import EssApp.App.Location
import EssApp.App.Status

/-!
# Back on the home page

`mapCtrl` runs on `pageInit` of the home page, and the page is gone as soon as the user
is on another one. Whoever reads the help and comes back runs it again, in the same
app: it reads the lists from `localStorage`, draws a new map, asks for the position,
sets an interval of its own and calls `initServer`. From then on `app` has the functions
of the new run. The earlier run has no page any more, but what it has set up goes on:
its interval asks for the position, its map takes the answers, and its socket stays
open.

On the map nothing of this shows (`visits_run`). What piles up is an interval for each
visit that did not end with the automatic position switched off, and, as long as no
socket closes, a socket and an update interval for each visit (`uploads_visits`).
-/

namespace EssApp.Visits

open Readme (Database ids)
open Sync (App)
open Location (View Updating Unswitched)
open Connection (Manager)

structure Life where
  /-- The views of the visits before. Their pages are gone, their intervals are not. -/
  before : List View := []
  /-- The view whose functions `app` has. -/
  view : View
  /-- The home page is on the screen. -/
  home : Bool := true
  /-- The lists in `localStorage`. -/
  storage : App
  manager : Manager

/-- `app.marker_list` and the other lists are the same for all views. -/
def shared (app : App) (v : View) : View := { v with map := { v.map with app := app } }

/-- What the browser does: it answers, or an interval fires. -/
def ofBrowser : Location.Event → Bool
  | .locationfound _ _ => true
  | .locationerror => true
  | .tick _ => true
  | _ => false

/-- What the user does on the page; the checkbox is in the panel beside it. -/
def onPage : Location.Event → Bool
  | .tap _ => true
  | .press _ _ _ => true
  | .dismiss => true
  | .click _ => true
  | .confirm _ => true
  | _ => false

def isReply : Location.Event → Bool
  | .reply _ => true
  | _ => false

/-- What `localStorage` has behind an event of the view `v`. -/
def stored (storage : App) (v : View) (e : Location.Event) : App :=
  let app := (Location.handle v e).map.app
  match e with
  | .press k _ _ =>
      -- the last button stores nothing, and neither does one that throws
      if k < Draw.event_types.length ∧ v.eventLatLng.isSome then
        { storage with marker_list := app.marker_list }
      else storage
  | .confirm _ => { storage with marker_list := app.marker_list }
  | .reply _ => app
  | _ => storage

inductive Event where
  /-- Something happens in the view whose functions `app` has. -/
  | view (e : Location.Event)
  /-- The browser answers, or an interval fires, in the `k`-th view before it. -/
  | before (k : Nat) (e : Location.Event)
  | socket (e : Connection.Event)
  /-- The user goes to another page, -/
  | leave
  /-- and comes back. -/
  | visit

def handle (s : Life) : Event → Life
  | .view e => { s with view := Location.handle s.view e, storage := stored s.storage s.view e }
  | .before k e =>
      { s with before :=
          s.before.modify k fun v => Location.handle (shared s.view.map.app v) e }
  | .socket e => { s with manager := Connection.handle s.manager e }
  | .leave => { s with home := false }
  | .visit =>
      { s with
        before := s.before ++ [s.view]
        view := Location.start s.storage s.view.autoloc_checkbox s.view.nextId
        home := true
        manager := s.manager.initServer }

/-- A dialog covers the page, and the way to the other pages with it. -/
def Enabled (s : Life) : Event → Prop
  | .view e => Location.Enabled s.view e ∧ (onPage e = true → s.home = true)
      ∧ (isReply e = true → ∃ j, s.manager.readyState j = some .opened)
  | .before k e => ofBrowser e = true ∧ ∃ v, s.before[k]? = some v ∧ Location.Enabled v e
  | .socket e => e ≠ .initServer ∧ Connection.Enabled s.manager e
  | .leave => s.home = true ∧ s.view.event_dialog = false ∧ s.view.map.dialogs = []
  | .visit => s.home = false

def Step (s : Life) (e : Event) (s' : Life) : Prop := Enabled s e ∧ s' = handle s e

/-- The app behind its first visit, with what an earlier life of it has stored. -/
def opened (app : App) (checked : Bool) : Life where
  view := Location.start app checked 1
  storage := app
  manager := Connection.start.initServer

/-! ## The views -/

/-- The events of the visits before, and of this one. -/
def record (hs : List (List Location.Event) × List Location.Event) :
    Event → List (List Location.Event) × List Location.Event
  | .view e => (hs.1, hs.2 ++ [e])
  | .visit => (hs.1 ++ [hs.2], [])
  | _ => hs

def visits (es : List Event) : List (List Location.Event) × List Location.Event :=
  es.foldl record ([], [])

theorem visits_concat (es : List Event) (e : Event) :
    visits (es ++ [e]) = record (visits es) e := by
  rw [visits, List.foldl_append]
  rfl

/-- The intervals that ask for the position, of all views. -/
def positions (s : Life) : List (Nat × Nat) := (s.before ++ [s.view]).flatMap View.intervals

theorem positions_eq (s : Life) :
    positions s = s.before.flatMap View.intervals ++ s.view.intervals := by
  rw [positions, List.flatMap_append, List.flatMap_singleton]

/-- What the browser does changes no interval, whosever lists the view has. -/
theorem unswitched_browser {e : Location.Event} (he : ofBrowser e = true) (app : App) (v : View) :
    Unswitched v (Location.handle (shared app v) e) := by
  cases e with
  | locationfound latlng accuracy =>
      let t : View := { shared app v with locating := (shared app v).locating - 1 }
      have h := Location.unswitched_setUserLocation t latlng accuracy
      exact ⟨h.intervals, h.gpsUpdater, h.autoloc_checkbox⟩
  | locationerror => exact ⟨rfl, rfl, rfl⟩
  | tick _ => exact ⟨rfl, rfl, rfl⟩
  | _ => cases he

theorem updating_frame {es : List Location.Event} {v v' : View} (h : Unswitched v v')
    (hv : Updating es v) : Updating es v' := by
  rw [Updating, h.intervals, h.gpsUpdater, h.autoloc_checkbox]
  exact hv

/-- **What a step does to the ids**: a view keeps some of its intervals and may add the next. -/
theorem intervals_step {v v' : View} {e : Location.Event} (hs : Location.Step v e v') :
    ∃ kept, kept.Sublist v.intervals
      ∧ ((v'.intervals = kept ∧ v'.nextId = v.nextId)
        ∨ (v'.intervals = kept ++ [(v.nextId, 5000)] ∧ v'.nextId = v.nextId + 1)) := by
  cases Location.step_effect hs with
  | found _ =>
      rw [Location.setUserLocation_intervals, Location.setUserLocation_nextId]
      exact ⟨_, List.Sublist.refl _, Or.inl ⟨rfl, rfl⟩⟩
  | switched =>
      refine ⟨_, List.filter_sublist (p := fun t => t.1 ≠ v.gpsUpdater), ?_⟩
      cases v.autoloc_checkbox with
      | true => exact Or.inl ⟨rfl, rfl⟩
      | false => exact Or.inr ⟨rfl, rfl⟩
  | pressed _ hp =>
      cases hp with
      | reported _ _ => exact ⟨_, List.Sublist.refl _, Or.inl ⟨rfl, rfl⟩⟩
      | @overridden tap _ _ =>
          exact ⟨_, List.Sublist.refl _, Or.inl
            ⟨Location.setUserLocation_intervals v tap _, Location.setUserLocation_nextId v tap _⟩⟩
      | threw _ => exact ⟨_, List.Sublist.refl _, Or.inl ⟨rfl, rfl⟩⟩
  | _ => exact ⟨_, List.Sublist.refl _, Or.inl ⟨rfl, rfl⟩⟩

/-- **What is stored** is what the app holds, if it was before the event. -/
theorem stored_step {v v' : View} {e : Location.Event} (hs : Location.Step v e v') :
    stored v.map.app v e = v'.map.app := by
  have hstep := hs.2
  cases Location.step_effect hs with
  | found _ =>
      rw [Location.setUserLocation_map]
      rfl
  | switched =>
      unfold View.setAutoLocation
      cases v.autoloc_checkbox <;> rfl
  | @pressed k id timestamp _ _ hp =>
      rw [stored, ← hstep]
      cases hp with
      | @reported p latlng hk hl =>
          have hlt : k < Draw.event_types.length := (List.getElem?_eq_some_iff.mp hk).1
          rw [if_pos ⟨hlt, by rw [hl]; rfl⟩]
          rfl
      | overridden hk _ =>
          rw [if_neg (by rw [hk]; simp)]
          exact (congrArg MapCtrl.Map.app (Location.setUserLocation_map _ _ _)).symm
      | threw _ =>
          split <;> rfl
  | @confirmed i m hm _ =>
      obtain ⟨_, rfl⟩ := hm
      rw [stored]
      simp only [Location.handle, MapCtrl.handle]
      split <;> rfl
  | replied hm _ =>
      obtain ⟨_, rfl⟩ := hm
      rfl
  | clicked hm _ =>
      obtain ⟨_, rfl⟩ := hm
      simp only [stored, MapCtrl.handle]
      split <;> rfl
  | _ => rfl

/-- The invariant of a run `es`. -/
structure Apart (es : List Event) (s : Life) : Prop where
  /-- `localStorage` has the lists of the app. -/
  stored : s.storage = s.view.map.app
  /-- The view is what its own events have made of the lists that were stored, -/
  alone : ∃ app checked id,
    Lts.Run Location.Step (Location.start app checked id) (visits es).2 s.view
  /-- those before it have the intervals that theirs have left them, -/
  before : List.Forall₂ Updating (visits es).1 s.before
  /-- and no two of all these are the same. -/
  ascending : (positions s).Pairwise fun t t' => t.1 < t'.1
  bound : ∀ t ∈ positions s, t.1 < s.view.nextId

theorem apart_opened (app : App) (checked : Bool) : Apart [] (opened app checked) where
  stored := (Location.updateMarkers_app { app := app }).symm
  alone := ⟨app, checked, 1, .nil⟩
  before := .nil
  ascending := List.pairwise_singleton _ _
  bound := by
    intro t ht
    obtain rfl := List.mem_singleton.mp ht
    exact Nat.one_lt_two

/-- **A step of the view** that `app` has. -/
theorem apart_view {es : List Event} {s : Life} {v : View} {e : Location.Event} (h : Apart es s)
    (hs : Location.Step s.view e v) :
    Apart (es ++ [.view e]) { s with view := v, storage := stored s.storage s.view e } := by
  have hrecord : visits (es ++ [.view e]) = ((visits es).1, (visits es).2 ++ [e]) :=
    visits_concat es _
  obtain ⟨kept, hkept, hids⟩ := intervals_step hs
  have hasc := h.ascending
  have hbound := h.bound
  rw [positions_eq] at hasc hbound
  -- what is left of them is in order, and the next id is above all of it
  have hsub : (s.before.flatMap View.intervals ++ kept).Sublist
      (s.before.flatMap View.intervals ++ s.view.intervals) := (List.Sublist.refl _).append hkept
  have hasc' := hasc.sublist hsub
  have hbound' : ∀ t ∈ s.before.flatMap View.intervals ++ kept, t.1 < s.view.nextId :=
    fun t ht => hbound t (hsub.subset ht)
  refine ⟨?_, ?_, ?_, ?_, ?_⟩
  · rw [h.stored]
    exact stored_step hs
  · obtain ⟨app, checked, id, hrun⟩ := h.alone
    rw [hrecord]
    exact ⟨app, checked, id, hrun.append (.single hs)⟩
  · rw [hrecord]
    exact h.before
  · rw [positions_eq]
    rcases hids with ⟨hi, _⟩ | ⟨hi, _⟩
    · rw [hi]
      exact hasc'
    · rw [hi, ← List.append_assoc]
      refine List.pairwise_append.mpr ⟨hasc', List.pairwise_singleton _ _, ?_⟩
      intro t ht t' ht'
      obtain rfl := List.mem_singleton.mp ht'
      exact hbound' t ht
  · rw [positions_eq]
    rcases hids with ⟨hi, hn⟩ | ⟨hi, hn⟩
    · rw [hi, hn]
      exact hbound'
    · rw [hi, hn, ← List.append_assoc]
      refine Places.forall_mem_concat ?_ (Nat.lt_succ_self _)
      exact fun t ht => Nat.lt_succ_of_lt (hbound' t ht)

/-- **A step of a view before it**: its interval asks, or its map is answered. -/
theorem apart_before {es : List Event} {s : Life} {k : Nat} {e : Location.Event} (h : Apart es s)
    (he : ofBrowser e = true) : Apart (es ++ [.before k e]) (handle s (.before k e)) := by
  have hrecord : visits (es ++ [.before k e]) = visits es := visits_concat es _
  have hsame : (s.before.modify k fun v => Location.handle (shared s.view.map.app v) e).map
      View.intervals = s.before.map View.intervals :=
    Places.map_modify (fun v => (unswitched_browser he _ v).intervals) s.before k
  have hpositions : positions (handle s (.before k e)) = positions s := by
    rw [positions, positions, List.flatMap_def, List.flatMap_def, List.map_append, List.map_append]
    show (List.map View.intervals (s.before.modify k _) ++ _).flatten = _
    rw [hsame]
    rfl
  refine ⟨h.stored, ?_, ?_, ?_, ?_⟩
  · rw [hrecord]
    exact h.alone
  · rw [hrecord]
    have hmod := Places.forall₂_modify (f := id)
      (g := fun v => Location.handle (shared s.view.map.app v) e)
      (fun _ v hv => updating_frame (unswitched_browser he _ v) hv) h.before k
    rwa [List.modify_id] at hmod
  · rw [hpositions]
    exact h.ascending
  · rw [hpositions]
    exact h.bound

/-- **A visit**: the view that was shown is one of those before, and has what it had. -/
theorem apart_visit {es : List Event} {s : Life} (h : Apart es s) :
    Apart (es ++ [.visit]) (handle s .visit) := by
  have hrecord : visits (es ++ [.visit]) = ((visits es).1 ++ [(visits es).2], []) :=
    visits_concat es _
  have hview : Updating (visits es).2 s.view := by
    obtain ⟨app, checked, id, hrun⟩ := h.alone
    exact hrun.history (I := Updating) (fun _ hi hs => Location.updating_step hi hs) rfl
  have hpositions : positions (handle s .visit) = positions s ++ [(s.view.nextId, 20000)] := by
    show (s.before ++ [s.view] ++ [_]).flatMap View.intervals = _
    rw [List.flatMap_append, List.flatMap_singleton]
    rfl
  refine ⟨(Location.updateMarkers_app { app := s.storage }).symm, ?_, ?_, ?_, ?_⟩
  · rw [hrecord]
    exact ⟨s.storage, s.view.autoloc_checkbox, s.view.nextId, .nil⟩
  · rw [hrecord]
    exact List.rel_append h.before (.cons hview .nil)
  · rw [hpositions]
    refine List.pairwise_append.mpr ⟨h.ascending, List.pairwise_singleton _ _, ?_⟩
    intro t ht t' ht'
    obtain rfl := List.mem_singleton.mp ht'
    exact h.bound t ht
  · rw [hpositions]
    refine Places.forall_mem_concat ?_ (Nat.lt_succ_self _)
    exact fun t ht => Nat.lt_succ_of_lt (h.bound t ht)

/-- **The step lemma.** -/
theorem apart_step {es : List Event} {s s' : Life} {e : Event} (h : Apart es s)
    (hs : Step s e s') : Apart (es ++ [e]) s' := by
  obtain ⟨hen, rfl⟩ := hs
  have hframe : ∀ {e : Event} {s' : Life}, record (visits es) e = visits es →
      s'.storage = s.storage → s'.view = s.view → s'.before = s.before → Apart (es ++ [e]) s' := by
    intro e s' hrecord hstorage hview hbefore
    have hpositions : positions s' = positions s := by rw [positions, hbefore, hview, positions]
    rw [← visits_concat] at hrecord
    refine ⟨?_, ?_, ?_, ?_, ?_⟩
    · rw [hstorage, hview]
      exact h.stored
    · rw [hrecord, hview]
      exact h.alone
    · rw [hrecord, hbefore]
      exact h.before
    · rw [hpositions]
      exact h.ascending
    · rw [hpositions, hview]
      exact h.bound
  cases e with
  | view e => exact apart_view h ⟨hen.1, rfl⟩
  | before k e => exact apart_before h hen.1
  | socket e => exact hframe rfl rfl rfl rfl
  | leave => exact hframe rfl rfl rfl rfl
  | visit => exact apart_visit h

/-- **The intervals of the visits before** are not stopped, whatever is done to the checkbox. -/
theorem left_step {s s' : Life} {e : Event} (hs : Step s e s') :
    s.before.map View.intervals <+: s'.before.map View.intervals := by
  obtain ⟨hen, rfl⟩ := hs
  cases e with
  | before k e =>
      have hkept := Places.map_modify
        (fun v => (unswitched_browser hen.1 s.view.map.app v).intervals) s.before k
      exact ⟨[], (List.append_nil _).trans hkept.symm⟩
  | visit =>
      show _ <+: (s.before ++ [s.view]).map View.intervals
      rw [List.map_append]
      exact List.prefix_append _ _
  | _ => exact List.prefix_refl _

/--
**Visits keep out of each other's way, but do not end.** After any run of the app with
any number of visits to the home page: a new visit begins with the lists the app has;
the view shown is what its own events make of the lists it began with; each view before
it keeps an interval of its own, every 20 seconds if the checkbox was not clicked during
its visit, every 5 seconds if it was and was left checked; and nothing that happens
later stops one of these.
-/
theorem visits_run {app : App} {checked : Bool} {es : List Event} {s : Life}
    (h : Lts.Run Step (opened app checked) es s) :
    (∀ s', Step s .visit s' →
        s'.view = Location.start s.view.map.app s.view.autoloc_checkbox s.view.nextId)
      ∧ (∃ lists checked id,
        Lts.Run Location.Step (Location.start lists checked id) (visits es).2 s.view)
      ∧ List.Forall₂ (fun fs v => v.intervals =
          if fs.any Location.isToggle then
            (if v.autoloc_checkbox then [(v.gpsUpdater, 5000)] else [])
          else [(v.gpsUpdater, 20000)]) (visits es).1 s.before
      ∧ (positions s).Pairwise (fun t t' => t.1 < t'.1)
      ∧ ∀ es' s', Lts.Run Step s es' s' →
        s.before.map View.intervals <+: s'.before.map View.intervals := by
  have hinv : Apart es s :=
    h.history (I := Apart) (fun _ hi hs => apart_step hi hs) (apart_opened app checked)
  refine ⟨?_, hinv.alone, hinv.before, hinv.ascending, ?_⟩
  · intro s' hex
    obtain ⟨_, rfl⟩ := hex
    show Location.start s.storage _ _ = _
    rw [hinv.stored]
  · intro es' s' hrun
    refine hrun.preorder (I := fun _ => True)
      (R := fun (s t : Life) => s.before.map View.intervals <+: t.before.map View.intervals)
      (fun _ => List.prefix_refl _) ?_ (fun _ _ => trivial) (fun _ hs => left_step hs) trivial
    intro s t u h1 h2
    exact h1.trans h2

/-- The app connects; the user reads the help and comes back, and the app connects again. -/
def readHelp : List Event := [.socket (.opened 0), .leave, .visit, .socket (.opened 1)]

theorem run_readHelp :
    Lts.Run Step (opened {} true) readHelp (readHelp.foldl handle (opened {} true)) :=
  .cons ⟨⟨by decide, rfl⟩, rfl⟩ (.cons ⟨⟨rfl, rfl, rfl⟩, rfl⟩ (.cons ⟨rfl, rfl⟩
    (.cons ⟨⟨by decide, rfl⟩, rfl⟩ .nil)))

/-- The checkbox stops the interval of the second visit, and not that of the first. -/
theorem visits_run_readHelp :
    [[(1, 20000)]] <+:
      (handle (readHelp.foldl handle (opened {} true)) (.view .toggle)).before.map
        View.intervals := by
  obtain ⟨_, _, _, _, hleft⟩ := visits_run run_readHelp
  have hoff : Lts.Run Step (readHelp.foldl handle (opened {} true)) [.view .toggle]
      (handle (readHelp.foldl handle (opened {} true)) (.view .toggle)) :=
    .single ⟨⟨trivial, nofun, nofun⟩, rfl⟩
  exact hleft _ _ hoff

/-! ## The sockets -/

/-- What an event is to the connection manager: a visit calls `initServer`. -/
def managed : Event → Option Connection.Event
  | .socket e => some e
  | .visit => some .initServer
  | _ => none

def isVisit : Event → Bool
  | .visit => true
  | _ => false

/-- The manager runs as it does alone. -/
theorem manager_run {app : App} {checked : Bool} {es : List Event} {s : Life}
    (h : Lts.Run Step (opened app checked) es s) :
    Lts.Run Connection.Step Connection.start (.initServer :: es.filterMap managed) s.manager := by
  refine h.history (I := fun es s => Lts.Run Connection.Step Connection.start
    (.initServer :: es.filterMap managed) s.manager) ?_ (.cons ⟨trivial, rfl⟩ .nil)
  intro es s e _ _ hi hex
  obtain ⟨hen, rfl⟩ := hex
  rw [List.filterMap_append, ← List.cons_append]
  cases e with
  | socket e => exact hi.append (.single ⟨hen.2, rfl⟩)
  | visit => exact hi.append (.single ⟨trivial, rfl⟩)
  | _ => exact hi.append .nil

def isConnecting (k : Connection.Socket) : Bool := k.readyState = .connecting

/-- A socket that opens is no longer one that connects. -/
theorem countP_opened {m : Manager} {i : Nat} (hi : m.readyState i = some .connecting) :
    (m.setReadyState i .opened).sockets.countP isConnecting + 1
      = m.sockets.countP isConnecting := by
  obtain ⟨k, hk, hr⟩ := Option.map_eq_some_iff.mp hi
  obtain ⟨hlt, hget⟩ := List.getElem?_eq_some_iff.mp hk
  obtain ⟨pre, a, post, hsplit, hlen, hmod⟩ :=
    List.exists_of_modify (fun s => { s with readyState := .opened }) hlt
  have ha : a = k := by
    subst hlen
    rw [hsplit, List.getElem?_append_right (Nat.le_refl _), Nat.sub_self] at hk
    exact Option.some.inj hk
  have hbefore : isConnecting a = true := by rw [ha, isConnecting, hr]; rfl
  have hbehind : ¬ isConnecting { a with readyState := .opened } = true := Bool.false_ne_true
  rw [Manager.setReadyState, hmod, hsplit, List.countP_append, List.countP_append,
    List.countP_cons_of_neg hbehind, List.countP_cons_of_pos hbefore]
  rfl

/-- The invariant of a run in which no socket closes and `initServer` is called `n` times. -/
structure Piled (n : Nat) (m : Manager) : Prop where
  retries : Connection.Retries m
  /-- There is nothing to retry, -/
  idle : m.timerId = none
  /-- and every socket there is connects, or has an update interval. -/
  length : (m.live .update).length + m.sockets.countP isConnecting = n

/-- **A call of `initServer`** adds a socket. -/
theorem piled_initServer {n : Nat} {m : Manager} (h : Piled n m) :
    Piled (n + 1) m.initServer := by
  have hs : Connection.Step m .initServer m.initServer := ⟨trivial, rfl⟩
  refine ⟨Connection.retries_step h.retries hs, h.idle, ?_⟩
  rw [← h.length, Manager.initServer, List.countP_append]
  exact (Nat.add_assoc _ _ _).symm

/-- **The other steps**: a socket that opens has an interval from then on. -/
theorem piled_step {n : Nat} {m m' : Manager} {e : Connection.Event} (h : Piled n m)
    (hs : Connection.Step m e m') (hne : e ≠ .initServer) (hopen : ∀ i, e ≠ .closed i) :
    Piled n m' := by
  have hr := Connection.retries_step h.retries hs
  cases Connection.step_effect h.retries.attached hs with
  | created => exact absurd rfl hne
  | @retried id hget =>
      -- the retry interval is the one that `timerId` names
      have hid : id ∈ m.live .retry := Manager.mem_live.mpr (Table.mem_of_get hget)
      rw [h.retries.timers.retries, h.idle] at hid
      cases hid
  | uploaded _ => exact ⟨hr, h.idle, h.length⟩
  | @opened i hi =>
      obtain ⟨_, hidle, _, hlive⟩ :=
        Connection.onopen_spec (h.retries.timers.setReadyState i .opened)
      refine ⟨hr, hidle, ?_⟩
      have hlive' : (m.setReadyState i .opened).live .update = m.live .update := rfl
      have hopened := countP_opened hi
      have hlength := h.length
      rw [hlive, hlive', Connection.sockets_onopen, List.length_append, List.length_singleton]
      omega
  | @closed i _ _ _ => exact absurd rfl (hopen i)

/-- The run lemma: each visit is a call. -/
theorem piled_run {app : App} {checked : Bool} {es : List Event} {s : Life}
    (h : Lts.Run Step (opened app checked) es s)
    (hopen : ∀ i : Nat, .socket (.closed i) ∉ es) :
    Piled (es.countP isVisit + 1) s.manager := by
  have hinit : Piled 1 (opened app checked).manager :=
    piled_initServer (n := 0) ⟨Connection.retries_start, rfl, rfl⟩
  refine h.history (I := fun (es : List Event) (s : Life) => (∀ i : Nat, .socket (.closed i) ∉ es) →
    Piled (es.countP isVisit + 1) s.manager) ?_ (fun _ => hinit) hopen
  intro es s e _ _ hi hex hopen
  obtain ⟨hen, rfl⟩ := hex
  have hpiled := hi fun i hmem => hopen i (List.mem_append_left _ hmem)
  rw [List.countP_append]
  cases e with
  | socket e =>
      refine piled_step hpiled ⟨hen.2, rfl⟩ hen.1 ?_
      intro i he
      subst he
      exact hopen i (List.mem_append_right _ (List.mem_singleton_self _))
  | visit => exact piled_initServer hpiled
  | _ => exact hpiled

/--
**Every visit uploads.** The connection is run as it is alone, with a call of
`initServer` for each visit. As long as no socket closes, there is an update interval
for each visit but those whose socket still connects; and once the socket of the last
visit is open, each period sends that many copies of the lists on it.
-/
theorem uploads_visits {app : App} {checked : Bool} {es : List Event} {s : Life}
    (h : Lts.Run Step (opened app checked) es s) :
    Lts.Run Connection.Step Connection.start (.initServer :: es.filterMap managed) s.manager
      ∧ ((∀ i : Nat, .socket (.closed i) ∉ es) →
        (s.manager.live .update).length + s.manager.sockets.countP isConnecting
            = es.countP isVisit + 1
          ∧ ∀ i, s.manager.socket = some i → s.manager.readyState i = some .opened →
            ∃ m, Lts.Run Connection.Step s.manager ((s.manager.live .update).map .tick) m
              ∧ m.sent = s.manager.sent
                ++ List.replicate (s.manager.live .update).length i) := by
  refine ⟨manager_run h, ?_⟩
  intro hopen
  have hpiled := piled_run h hopen
  refine ⟨hpiled.length, ?_⟩
  intro i hc ho
  exact ⟨_, Connection.period_spec _ hpiled.retries.timers (List.Subset.refl _) hc ho, rfl⟩

/-- Two visits, two sockets, two uploads in each period. -/
theorem uploads_visits_readHelp :
    let m := (readHelp.foldl handle (opened {} true)).manager
    (m.live .update).length + m.sockets.countP isConnecting = 2 := by
  obtain ⟨_, hpiled⟩ := uploads_visits run_readHelp
  exact (hpiled (by simp [readHelp])).1

end EssApp.Visits
