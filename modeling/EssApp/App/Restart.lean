import EssApp.App.Storage
import EssApp.Lib.Simulation
import EssApp.Server.Route

/-!
# The app, closed and started again

`mapCtrl` reads the three items, one after the other, draws what the first two hold,
reads the route, and only then calls `app.initServer()` and builds the menu. What
throws on the way ends it there. The app is on the screen all the same, with
whatever had been drawn, but it connects to nothing and nothing can be reported.

`Storage.restored_iff` says when memory and storage agree. Here the app is closed and
started again, at any moment and any number of times. While the replies are ones
that can be stored, nobody can tell (`restarts_unnoticed`). A reply that is drawn but
lacks one of the three lists leaves an item behind that no start gets past, and since
only a reply could replace it, no later start ever does (`never_complete`).
-/

namespace EssApp.Restart

open Js Draw Storage
open WebSocketServer (printLength printLength_ok_iff RoundTrips RouteInv mergeDatabases_shape)

/-- How far `mapCtrl` got. -/
inductive Progress where
  /-- It threw before it drew anything. -/
  | loading
  /-- It threw while it drew, or behind that. -/
  | drawing
  /-- It called `app.initServer()`, and there is a menu. -/
  | complete
  deriving DecidableEq

structure Phone where
  device : Device
  progress : Progress

/-- The app's script has run, `mapCtrl` has not. -/
def loaded (storage : Items) : Phone where
  device := { marker_list := .arr [], wu_list := .arr [], waypoint_list := .arr [], storage }
  progress := .loading

/-- The controller: it works on the phone and keeps what it did when it throws. -/
abbrev Controller := ExceptT Exn (StateM Phone)

def assign (f : Device → Device) : Controller Unit :=
  modify fun p => { p with device := f p.device }

/-- How a list is read: `put` is the assignment to its property of `app`. -/
def readList (item : Option Text) (put : Value → Device → Device) : Controller Unit := do
  let list ← getItem item
  assign (put list)
  if list.truthy then
    let _ ← printLength list
  else assign (put (.arr []))

section

variable (places : Value → Bool) (toNumber : String → Number)

/-- What `mapCtrl` does once it has the two lists. -/
def drawLists (storage : Items) : Controller Unit := do
  modify fun p => { p with progress := .drawing }
  let d := (← get).device
  updateMarkers places d.marker_list d.wu_list
  let waypoint_list ← getItem storage.waypoint_list
  assign fun d => { d with waypoint_list := waypoint_list }
  modify fun p => { p with progress := .complete }

/-- `mapCtrl`, as far as it touches the lists; `localStorage` is only read. -/
def mapCtrl (storage : Items) : Controller Unit := do
  readList storage.marker_list fun v d => { d with marker_list := v }
  readList storage.wu_list fun v d => { d with wu_list := v }
  drawLists places storage

/-- What a start makes of the storage. -/
def start (storage : Items) : Phone := ((mapCtrl places storage).run (loaded storage)).2

inductive Event where
  /-- The app is closed, however it comes about, and started. -/
  | restart
  | app (e : Storage.Event)

/-- Only a controller that got through connects and has a menu; to delete, a marker suffices. -/
def Enabled (p : Phone) : Event → Prop
  | .restart => True
  | .app (.confirm _ _) => p.progress ≠ .loading
  | .app e => p.progress = .complete ∧ Storage.Enabled e

def handle (p : Phone) : Event → Phone
  | .restart => start places p.device.storage
  | .app e => { p with device := Storage.handle places toNumber p.device e }

def Step (p : Phone) (e : Event) (p' : Phone) : Prop :=
  Enabled p e ∧ p' = handle places toNumber p e

end

/-! ## What a start does -/

theorem run_bind_ok {α β : Type} {x : Controller α} {f : α → Controller β} {p p' : Phone} {a : α}
    (h : x.run p = (.ok a, p')) : (x >>= f).run p = (f a).run p' := by
  rw [ExceptT.run_bind]
  simp only [bind, StateT.bind, h]

theorem run_bind_error {α β : Type} {x : Controller α} {f : α → Controller β} {p p' : Phone}
    {e : Exn} (h : x.run p = (.error e, p')) : (x >>= f).run p = (.error e, p') := by
  rw [ExceptT.run_bind]
  simp only [bind, StateT.bind, h]
  rfl

/-- **A list that is read** is assigned; what throws on the way throws for `loadList` too. -/
theorem run_readList (item : Option Text) (put : Value → Device → Device)
    (hput : ∀ v w d, put v (put w d) = put v d) (p : Phone) :
    (∃ v, loadList item = .ok v
        ∧ (readList item put).run p = (.ok (), { p with device := put v p.device }))
      ∨ (∃ e, loadList item = .error e)
        ∧ ∃ e d, (readList item put).run p = (.error e, { p with device := d })
          ∧ (d = p.device ∨ ∃ v, d = put v p.device) := by
  cases hg : getItem item with
  | error e =>
      have hl : loadList item = .error e := by
        rw [loadList, hg]
        rfl
      have hr : (readList item put).run p = (.error e, p) := by
        rw [readList, hg]
        rfl
      exact Or.inr ⟨⟨e, hl⟩, e, p.device, hr, Or.inl rfl⟩
  | ok list =>
      have hassigned : (readList item put).run p
          = (if list.truthy then (do let _ ← (printLength list : Controller String); pure ())
              else assign (put (.arr [])) : Controller Unit).run
            { p with device := put list p.device } := by
        rw [readList, hg]
        rfl
      rw [hassigned]
      by_cases ht : list.truthy = true
      · rw [if_pos ht]
        cases hn : printLength list with
        | error e =>
            have hl : loadList item = .error e := by
              rw [loadList, hg]
              simp only [bind, Except.bind, ht, if_true, hn]
            exact Or.inr ⟨⟨e, hl⟩, e, _, rfl, Or.inr ⟨list, rfl⟩⟩
        | ok n =>
            refine Or.inl ⟨list, loadList_ok_iff.mpr ⟨list, hg, Or.inl ⟨ht, ?_, rfl⟩⟩, rfl⟩
            rw [Value.printable, (printLength_ok_iff.mp hn).2]
            rfl
      · have hf : list.truthy = false := by simpa using ht
        refine Or.inl ⟨.arr [], loadList_ok_iff.mpr ⟨list, hg, Or.inr ⟨hf, rfl⟩⟩, ?_⟩
        rw [if_neg ht]
        show (_, { p with device := put (.arr []) (put list p.device) }) = _
        rw [hput]

/-- **Drawing** gets through, and the route is read; or the lists are left as they are. -/
theorem run_drawLists (places : Value → Bool) (storage : Items) (p : Phone) :
    (∃ v, updateMarkers places p.device.marker_list p.device.wu_list = .ok ()
        ∧ getItem storage.waypoint_list = .ok v
        ∧ ((drawLists places storage).run p).2
          = { device := { p.device with waypoint_list := v }, progress := .complete })
      ∨ (updateMarkers places p.device.marker_list p.device.wu_list = .ok () →
          ∃ e, getItem storage.waypoint_list = .error e)
        ∧ ((drawLists places storage).run p).2 = { device := p.device, progress := .drawing } := by
  have hdrawn : (drawLists places storage).run p
      = (do
          (updateMarkers places p.device.marker_list p.device.wu_list : Controller Unit)
          let waypoint_list ← (getItem storage.waypoint_list : Controller Value)
          assign fun d => { d with waypoint_list := waypoint_list }
          modify fun p => { p with progress := .complete } : Controller Unit).run
        { p with progress := .drawing } := rfl
  rw [hdrawn]
  cases hu : updateMarkers places p.device.marker_list p.device.wu_list with
  | error e => exact Or.inr ⟨fun h => (by cases h), rfl⟩
  | ok u =>
      cases hp : getItem storage.waypoint_list with
      | error e => exact Or.inr ⟨fun _ => ⟨e, rfl⟩, rfl⟩
      | ok v => exact Or.inl ⟨v, rfl, rfl, rfl⟩

/-- **Everything a start can come to.** -/
inductive Started (places : Value → Bool) (storage : Items) : Phone → Prop where
  | loading {d : Device} : d.storage = storage →
      (∃ e, loadList storage.marker_list = .error e)
        ∨ (∃ e, loadList storage.wu_list = .error e) →
      Started places storage { device := d, progress := .loading }
  | drawing {d : Device} {m w : Value} : d.storage = storage →
      loadList storage.marker_list = .ok m → loadList storage.wu_list = .ok w →
      (∀ d', initialise places storage ≠ .ok d') →
      Started places storage { device := d, progress := .drawing }
  | complete {d : Device} : initialise places storage = .ok d →
      Started places storage { device := d, progress := .complete }

theorem start_spec (places : Value → Bool) (storage : Items) :
    Started places storage (start places storage) := by
  rcases run_readList storage.marker_list (fun v d => { d with marker_list := v })
    (fun _ _ _ => rfl) (loaded storage) with ⟨m, hm, hrun⟩ | ⟨hm, e, d, hrun, hd⟩
  · rcases run_readList storage.wu_list (fun v d => { d with wu_list := v })
      (fun _ _ _ => rfl) { loaded storage with device.marker_list := m }
      with ⟨w, hw, hrun'⟩ | ⟨hw, e, d, hrun', hd⟩
    · have hlists : (mapCtrl places storage).run (loaded storage) = (drawLists places storage).run
          { loaded storage with device := ⟨m, w, .arr [], storage⟩ } :=
        (run_bind_ok hrun).trans (run_bind_ok hrun')
      rw [start, hlists]
      rcases run_drawLists places storage { loaded storage with device := ⟨m, w, .arr [], storage⟩ }
        with ⟨v, hu, hp, hres⟩ | ⟨hfail, hres⟩
      · rw [hres]
        refine .complete ?_
        exact bind_ok_iff.mpr ⟨m, hm, bind_ok_iff.mpr ⟨w, hw, bind_ok_iff.mpr ⟨(), hu,
          bind_ok_iff.mpr ⟨v, hp, rfl⟩⟩⟩⟩
      · rw [hres]
        refine .drawing rfl hm hw ?_
        intro d h
        obtain ⟨m', hm', h⟩ := bind_ok_iff.mp h
        obtain ⟨w', hw', h⟩ := bind_ok_iff.mp h
        obtain ⟨⟨⟩, hu, h⟩ := bind_ok_iff.mp h
        obtain ⟨v, hp, _⟩ := bind_ok_iff.mp h
        obtain rfl := Except.ok.inj (hm'.symm.trans hm)
        obtain rfl := Except.ok.inj (hw'.symm.trans hw)
        obtain ⟨e, he⟩ := hfail hu
        rw [hp] at he
        cases he
    · have hlists : (mapCtrl places storage).run (loaded storage) = (.error e, _) :=
        (run_bind_ok hrun).trans (run_bind_error hrun')
      rw [start, hlists]
      refine .loading ?_ (Or.inr hw)
      rcases hd with rfl | ⟨v, rfl⟩ <;> rfl
  · have hlists : (mapCtrl places storage).run (loaded storage) = (.error e, _) :=
      run_bind_error hrun
    rw [start, hlists]
    refine .loading ?_ (Or.inl hm)
    rcases hd with rfl | ⟨v, rfl⟩ <;> rfl

/-- A start that gets through is the one `Storage` speaks of. -/
theorem start_of_initialise {places : Value → Bool} {storage : Items} {d : Device}
    (h : initialise places storage = .ok d) :
    start places storage = { device := d, progress := .complete } := by
  have hlists : (∃ m, loadList storage.marker_list = .ok m)
      ∧ ∃ w, loadList storage.wu_list = .ok w := by
    obtain ⟨m, hm, h⟩ := bind_ok_iff.mp h
    obtain ⟨w, hw, _⟩ := bind_ok_iff.mp h
    exact ⟨⟨m, hm⟩, w, hw⟩
  have hs := start_spec places storage
  generalize start places storage = p at hs
  cases hs with
  | loading _ herr =>
      obtain ⟨⟨m, hm⟩, w, hw⟩ := hlists
      rcases herr with ⟨e, he⟩ | ⟨e, he⟩
      · rw [hm] at he
        cases he
      · rw [hw] at he
        cases he
  | drawing _ _ _ hfail => exact absurd h (hfail d)
  | complete h' => rw [Except.ok.inj (h'.symm.trans h)]

/-- What could be drawn and is stored as it is starts as it was. -/
theorem initialise_of_restored {places : Value → Bool} {d : Device} (hs : Sound places d)
    (h : Restored d) : initialise places d.storage = .ok d := by
  obtain ⟨hm, hw, hp⟩ := restore_ok_iff.mp h
  have hu := updateMarkers_ok_iff.mpr ⟨hs.drawable, hs.placeable⟩
  exact bind_ok_iff.mpr ⟨_, hm, bind_ok_iff.mpr ⟨_, hw, bind_ok_iff.mpr ⟨(), hu,
    bind_ok_iff.mpr ⟨_, hp, rfl⟩⟩⟩⟩

/-! ## Restarts nobody notices -/

/-- The events of a run, closing and starting the app aside. -/
def erase : Event → List Storage.Event
  | .restart => []
  | .app e => [e]

/-- Every reply is one that can be stored, or is `null`, or no JSON. -/
def Orderly (places : Value → Bool) (p : Phone) : Event → Prop
  | .restart => True
  | .app e => Storage.Orderly places p.device e

/-- The app runs, and `d` is what it holds in memory and in storage. -/
structure Holds (places : Value → Bool) (p : Phone) (d : Device) : Prop where
  eq : p = { device := d, progress := .complete }
  sound : Sound places d
  restored : Restored d

/-- **A restart** changes nothing, and any other step is the app's. -/
theorem holds_step {places : Value → Bool} {toNumber : String → Number} {p p' : Phone}
    {d : Device} {e : Event} (h : Holds places p d)
    (hs : Lts.Guarded (Step places toNumber) (Orderly places) p e p') :
    ∃ d', Lts.Run (Storage.Step places toNumber) d (erase e) d' ∧ Holds places p' d' := by
  obtain ⟨⟨hen, rfl⟩, ho⟩ := hs
  obtain ⟨rfl, hsound, hrest⟩ := h
  cases e with
  | restart =>
      refine ⟨d, .nil, ?_, hsound, hrest⟩
      exact start_of_initialise (initialise_of_restored hsound hrest)
  | app e =>
      have hen' : Storage.Enabled e := by
        cases e with
        | create latlng type id timestamp => exact hen.2
        | confirm ident same => trivial
        | message data => trivial
      have hst : Storage.Step places toNumber d e (Storage.handle places toNumber d e) :=
        ⟨hen', rfl⟩
      exact ⟨_, .single hst, rfl, sound_step hsound ho hst,
        (restored_step hsound hrest hst).mpr ho⟩

/--
**Restarts are not noticed.** However often and whenever the app is closed and started
again, as long as the replies can be stored: it always gets through to the end, it
holds what it would hold had it never been closed, and so would one start more.
-/
theorem restarts_unnoticed {places : Value → Bool} {toNumber : String → Number} {s : Items}
    {d₀ : Device} (hw : s.Written) (h0 : initialise places s = .ok d₀) {es : List Event}
    {p : Phone}
    (h : Lts.Run (Lts.Guarded (Step places toNumber) (Orderly places)) (start places s) es p) :
    p.progress = .complete
      ∧ Lts.Run (Storage.Step places toNumber) d₀ (es.flatMap erase) p.device
      ∧ start places p.device.storage = p := by
  obtain ⟨hsound, hrest⟩ := initialise_spec hw h0
  have hsim : ∃ d, Lts.Run (Storage.Step places toNumber) d₀ (es.flatMap erase) d
      ∧ Holds places p d :=
    h.simulate (R := Holds places) (f := erase) holds_step ⟨start_of_initialise h0, hsound, hrest⟩
  obtain ⟨d, hrun, rfl, hsound', hrest'⟩ := hsim
  exact ⟨rfl, hrun, start_of_initialise (initialise_of_restored hsound' hrest')⟩

/-- The user reports an event, the app is closed and started, and the event is removed. -/
def reportAndRestart : List Event :=
  [.app (.create (some (Readme.readmeEvent Readme.idA).latlng) "fire" Readme.idA
      (Readme.readmeEvent Readme.idA).timestamp), .restart,
    .app (.confirm (.str Readme.idA.text) fun _ => false)]

theorem restarts_unnoticed_of_reportAndRestart :
    let p := reportAndRestart.foldl (handle hasLatLng Number.mk) (start hasLatLng {})
    p.progress = .complete
      ∧ Lts.Run (Storage.Step hasLatLng Number.mk) firstStart (reportAndRestart.flatMap erase)
        p.device
      ∧ start hasLatLng p.device.storage = p := by
  have hfire : "fire" ∈ event_types.map Prod.fst := by decide
  exact restarts_unnoticed written_nothing rfl
    (.cons ⟨⟨⟨rfl, hfire⟩, rfl⟩, trivial⟩ (.cons ⟨⟨trivial, rfl⟩, trivial⟩
      (.cons ⟨⟨Progress.noConfusion, rfl⟩, trivial⟩ .nil)))

/-! ## Items no start gets past -/

/-- One of the three items cannot be read. -/
def Unreadable (s : Items) : Prop :=
  (∃ e, loadList s.marker_list = .error e) ∨ (∃ e, loadList s.wu_list = .error e)
    ∨ ∃ e, getItem s.waypoint_list = .error e

/-- The app did not get through, for an item that is still there. -/
inductive Stopped (p : Phone) : Prop where
  /-- A list could not be read, so there is no marker to click. -/
  | lists : (∃ e, loadList p.device.storage.marker_list = .error e)
        ∨ (∃ e, loadList p.device.storage.wu_list = .error e) →
      p.progress = .loading → Stopped p
  /-- The route could not, so there may be markers, but nothing else. -/
  | route {e : Exn} : getItem p.device.storage.waypoint_list = .error e →
      p.progress ≠ .complete → Stopped p

theorem Stopped.unreadable {p : Phone} (h : Stopped p) : Unreadable p.device.storage := by
  cases h with
  | lists hlists _ => exact hlists.elim Or.inl (fun h => Or.inr (Or.inl h))
  | route hroute _ => exact Or.inr (Or.inr ⟨_, hroute⟩)

theorem Stopped.not_complete {p : Phone} (h : Stopped p) : p.progress ≠ .complete := by
  cases h with
  | lists _ hp =>
      rw [hp]
      nofun
  | route _ hp => exact hp

/-- **A start on an item that cannot be read** does not get past it. -/
theorem stopped_start (places : Value → Bool) {storage : Items} (h : Unreadable storage) :
    Stopped (start places storage) := by
  have hs := start_spec places storage
  generalize start places storage = p at hs
  cases hs with
  | loading hst hlists => exact .lists (hst ▸ hlists) rfl
  | drawing hst hm hw _ =>
      rcases h with ⟨e, he⟩ | ⟨e, he⟩ | ⟨e, he⟩
      · rw [hm] at he
        cases he
      · rw [hw] at he
        cases he
      · exact .route (hst ▸ he) nofun
  | complete hinit =>
      obtain ⟨m, hm, hinit⟩ := bind_ok_iff.mp hinit
      obtain ⟨w, hw, hinit⟩ := bind_ok_iff.mp hinit
      obtain ⟨_, _, hinit⟩ := bind_ok_iff.mp hinit
      obtain ⟨v, hv, _⟩ := bind_ok_iff.mp hinit
      rcases h with ⟨e, he⟩ | ⟨e, he⟩ | ⟨e, he⟩
      · rw [hm] at he
        cases he
      · rw [hw] at he
        cases he
      · rw [hv] at he
        cases he

/-- A deletion writes the markers, and nothing else. -/
theorem deleteEvent_storage (toNumber : String → Number) (d : Device) (ident : Value)
    (same : Nat → Bool) :
    (deleteEvent toNumber d ident same).storage.wu_list = d.storage.wu_list
      ∧ (deleteEvent toNumber d ident same).storage.waypoint_list = d.storage.waypoint_list := by
  unfold deleteEvent
  split
  · dsimp only
    split <;> exact ⟨rfl, rfl⟩
  · exact ⟨rfl, rfl⟩

/-- What a user can do with an app that did not get through. -/
def Inert : Event → Prop
  | .restart => True
  | .app (.confirm _ _) => True
  | .app _ => False

/-- **The step lemma**: an app that is stopped stays so. -/
theorem stopped_step {places : Value → Bool} {toNumber : String → Number} {p p' : Phone}
    {e : Event} (h : Stopped p) (hs : Step places toNumber p e p') : Inert e ∧ Stopped p' := by
  obtain ⟨hen, rfl⟩ := hs
  cases e with
  | restart => exact ⟨trivial, stopped_start places h.unreadable⟩
  | app e =>
      cases e with
      | create latlng type id timestamp => exact absurd hen.1 h.not_complete
      | message data => exact absurd hen.1 h.not_complete
      | confirm ident same =>
          refine ⟨trivial, ?_⟩
          cases h with
          | lists _ hp => exact absurd hp hen
          | @route err hroute hp =>
              refine .route (e := err) ?_ hp
              show getItem (deleteEvent toNumber p.device ident same).storage.waypoint_list = _
              rw [(deleteEvent_storage toNumber p.device ident same).2]
              exact hroute

/--
**Once an item cannot be read, the app never gets through again**: however often it is
started, it neither connects nor offers the menu, and all that ever happens is that
markers are removed and that it is started once more.
-/
theorem never_complete {places : Value → Bool} {toNumber : String → Number} {s : Items}
    (hs : Unreadable s) {es : List Event} {p : Phone}
    (h : Lts.Run (Step places toNumber) (start places s) es p) :
    p.progress ≠ .complete ∧ ∀ e ∈ es, Inert e := by
  refine (h.history (I := fun as p => Stopped p ∧ ∀ e ∈ as, Inert e) ?_ ?_).imp_left ?_
  · intro as p e p' _ hex hstep
    obtain ⟨hp, has⟩ := hex
    obtain ⟨he, hp'⟩ := stopped_step hp hstep
    exact ⟨hp', Places.forall_mem_concat has he⟩
  · exact ⟨stopped_start places hs, by simp⟩
  · exact Stopped.not_complete

/-- A reply that is drawn is stored, and what it lacks is stored with it. -/
theorem unreadable_of_lacking {places : Value → Bool} (d : Device) {database : Value}
    (hn : database.isNullish = false)
    (hu : updateMarkers places (database.prop "markers") (database.prop "wus") = .ok ())
    (hlack : database.prop "markers" = .undefined ∨ database.prop "wus" = .undefined
      ∨ database.prop "waypoints" = .undefined) :
    Unreadable (onmessage places d (.json database)).storage := by
  have hread := readMessage_ok_iff.mpr ⟨database, rfl, hn, rfl, rfl, rfl⟩
  have hstorage : (onmessage places d (.json database)).storage
      = { wu_list := some (stored (database.prop "wus")),
          marker_list := some (stored (database.prop "markers")),
          waypoint_list := some (stored (database.prop "waypoints")) } := by
    unfold onmessage
    rw [hread]
    simp only [hu]
  rw [hstorage]
  rcases hlack with h | h | h
  · refine Or.inl ⟨.syntaxError, ?_⟩
    rw [h]
    rfl
  · refine Or.inr (Or.inl ⟨.syntaxError, ?_⟩)
    rw [h]
    rfl
  · refine Or.inr (Or.inr ⟨.syntaxError, ?_⟩)
    rw [h]
    rfl

/--
**A reply that lacks a list disables the app.** If it can be drawn it is stored as it
is, and unless another reply comes before the app is closed, that was the last one.
-/
theorem disabled_by_reply {places : Value → Bool} {toNumber : String → Number} (d : Device)
    {database : Value} (hn : database.isNullish = false)
    (hu : updateMarkers places (database.prop "markers") (database.prop "wus") = .ok ())
    (hlack : database.prop "markers" = .undefined ∨ database.prop "wus" = .undefined
      ∨ database.prop "waypoints" = .undefined) {es : List Event} {p : Phone}
    (h : Lts.Run (Step places toNumber) (start places (onmessage places d (.json database)).storage)
      es p) : p.progress ≠ .complete ∧ ∀ e ∈ es, Inert e :=
  never_complete (unreadable_of_lacking d hn hu hlack) h

/-- The app after the reply without waypoints, closed and started. -/
def afterNoWaypoints : Phone :=
  start hasLatLng (onmessage hasLatLng firstStart noWaypoints).storage

/-- One start more does not get through either. -/
theorem disabled_by_reply_noWaypoints :
    (handle hasLatLng Number.mk afterNoWaypoints .restart).progress ≠ .complete
      ∧ ∀ e ∈ [Event.restart], Inert e := by
  have hrun : Lts.Run (Step hasLatLng Number.mk) afterNoWaypoints [.restart]
      (handle hasLatLng Number.mk afterNoWaypoints .restart) := .cons ⟨trivial, rfl⟩ .nil
  exact disabled_by_reply firstStart rfl rfl (Or.inr (Or.inr rfl)) hrun

/-! ## A unit without a route -/

/-- A reply is an object. -/
theorem sent_obj_step {s t : WebSocketServer.Server} {e : WebSocketServer.Event}
    (h : ∀ reply ∈ s.sent, ∃ ps, reply = .json (.obj ps)) (hs : WebSocketServer.Step s e t) :
    ∀ reply ∈ t.sent, ∃ ps, reply = .json (.obj ps) := by
  cases WebSocketServer.step_effect hs with
  | @replied io data db hm _ =>
      obtain ⟨remote_db, _, hm⟩ := bind_ok_iff.mp hm
      obtain ⟨ms, rfl⟩ := mergeDatabases_shape hm
      exact Places.forall_mem_concat h ⟨_, rfl⟩
  | _ => exact h

/-- No reply of a unit whose file has no waypoints has any. -/
theorem replies_without_route {v₀ : Value} (hobj : v₀.isObject = true)
    (hw : RoundTrips v₀ "wus") (hp : v₀.own "waypoints" = none) {es : List WebSocketServer.Event}
    {s : WebSocketServer.Server}
    (hrun : Lts.Run WebSocketServer.Step (WebSocketServer.boot (.json v₀)) es s) :
    ∀ reply ∈ s.sent, ∃ database, reply = .json database ∧ database.isNullish = false
      ∧ database.prop "waypoints" = .undefined := by
  have hp' : RoundTrips v₀ "waypoints" := by
    rw [RoundTrips, hp]
    rfl
  have hinit : RouteInv v₀ (WebSocketServer.boot (.json v₀)) :=
    ⟨⟨v₀, rfl, hobj, rfl, rfl⟩, fun p h => absurd h (by simp [WebSocketServer.boot]),
      fun r h => absurd h (by simp [WebSocketServer.boot])⟩
  have hroute := hrun.invariant (I := RouteInv v₀) (WebSocketServer.routeInv_step hw hp') hinit
  have hsent := hrun.invariant (I := fun s => ∀ reply ∈ s.sent, ∃ ps, reply = .json (.obj ps))
    sent_obj_step (by simp [WebSocketServer.boot])
  intro reply hreply
  obtain ⟨ps, rfl⟩ := hsent reply hreply
  obtain ⟨v, hv, hsame⟩ := hroute.replies _ hreply
  cases hv
  refine ⟨_, rfl, rfl, ?_⟩
  rw [Value.prop, hsame.waypoints, hp]
  rfl

/--
**A unit set up without a route disables every app it serves.** Whatever happens to the
unit, each reply it ever sends is one that the app, if it can draw it, does not survive
being closed after.
-/
theorem disabled_by_unit {places : Value → Bool} {toNumber : String → Number} {v₀ : Value}
    (hobj : v₀.isObject = true) (hw : RoundTrips v₀ "wus") (hp : v₀.own "waypoints" = none)
    {fs : List WebSocketServer.Event} {s : WebSocketServer.Server}
    (hrun : Lts.Run WebSocketServer.Step (WebSocketServer.boot (.json v₀)) fs s)
    {database : Value} (hreply : .json database ∈ s.sent)
    (hu : updateMarkers places (database.prop "markers") (database.prop "wus") = .ok ())
    (d : Device) {es : List Event} {p : Phone}
    (h : Lts.Run (Step places toNumber) (start places (onmessage places d (.json database)).storage)
      es p) : p.progress ≠ .complete ∧ ∀ e ∈ es, Inert e := by
  obtain ⟨_, hdb, hn, hlack⟩ := replies_without_route hobj hw hp hrun _ hreply
  cases hdb
  exact never_complete (unreadable_of_lacking d hn hu (Or.inr (Or.inr hlack))) h

/-- The database of a unit that was given no route. -/
def routeless : Value := .obj [("wus", .arr []), ("markers", .arr [])]

/-- A phone with nothing to tell syncs with it once. -/
theorem disabled_by_unit_routeless :
    (handle hasLatLng Number.mk afterNoWaypoints .restart).progress ≠ .complete
      ∧ ∀ e ∈ [Event.restart], Inert e := by
  have hunit : Lts.Run WebSocketServer.Step (WebSocketServer.boot (.json routeless))
      [.clientMessage {} (.json routeless)]
      (WebSocketServer.after (WebSocketServer.boot (.json routeless))
        (.clientMessage {} (.json routeless))) := .cons ⟨trivial, rfl⟩ .nil
  have hrun : Lts.Run (Step hasLatLng Number.mk) afterNoWaypoints [.restart]
      (handle hasLatLng Number.mk afterNoWaypoints .restart) := .cons ⟨trivial, rfl⟩ .nil
  have hobj : routeless.isObject = true := rfl
  have hw : RoundTrips routeless "wus" := rfl
  have hp : routeless.own "waypoints" = none := rfl
  exact disabled_by_unit hobj hw hp hunit (List.mem_singleton_self _) rfl firstStart hrun

end EssApp.Restart
