import EssApp.App.Refine
import EssApp.App.Restart
import EssApp.Lib.Simulation
import EssApp.Sync.Network

/-!
# The whole system, on texts

Phones and units as the code has them: a phone is the app's lists with its
`localStorage`, which can be closed and started at any moment; a unit is the server of
`WebSocketServer`, which can fail and come back; what travels between them, and gets
lost between them, is text. On README-format data nothing in it throws, whatever the
order, and every run is one of `Network` (`texts_simulated`), in which closing a phone
does not even show. So what is proved of `Network` is true of the code.

There is one condition that `Network` has no use for and the code needs: the type of an
event must be one that has icons. The buttons offer no other, and neither side
invents one, so it is enough that the units start with such events and that the
broker brings no others.

Nothing fails but the units and the connections: every read, write and send of a unit is
taken to work, in `Step.handle` and `answers` as in `Readme.EventRep`, and what a phone stores
fits into its storage. What comes of a failed write is the subject of `WebSocketServer`.
-/

namespace EssApp.Sync.Texts

open Js Storage
open Readme (LatLng EventId JsonNumber Marker Wu Database MarkerRep WuRep WaypointsRep DatabaseRep
  ServerRep mergeDatabases setReported mem_merge mem_setReported idA readmeEvent readmeDatabase)
open Draw (Typed)
open Restart (Phone)

/-- Phones `ι`, units `κ`, and the texts under way between two of them on the connections `γ`. -/
structure System (ι κ γ : Type) where
  phones : ι → Phone
  units : κ → WebSocketServer.Server
  /-- Requests on their way, oldest first. -/
  requests : ι × κ × γ → List Text
  /-- Replies on their way, oldest first. -/
  replies : ι × κ × γ → List Text

/-- What the update interval sends. -/
def upload (d : Device) : Text :=
  JSON.stringify (.obj [("wus", d.wu_list), ("markers", d.marker_list),
    ("waypoints", d.waypoint_list)])

/-- What the unit's handler sends in answer to a request, if it can read, write and send. -/
def answers (s : WebSocketServer.Server) (request : Text) : List Text :=
  (WebSocketServer.after s (.clientMessage {} request)).sent.drop s.sent.length

inductive Event (ι κ γ : Type) where
  /-- The user of phone `i` touches it, or closes and starts the app. -/
  | phone (i : ι) (e : Restart.Event)
  /-- The update interval of phone `i` fires, while it is connected to unit `k` by `c`. -/
  | send (i : ι) (k : κ) (c : γ)
  /-- Unit `k` handles the oldest request of phone `i`. -/
  | handle (i : ι) (k : κ) (c : γ)
  /-- Phone `i` processes the oldest reply of unit `k`. -/
  | process (i : ι) (k : κ) (c : γ)
  /-- The connection breaks. -/
  | drop (i : ι) (k : κ) (c : γ)
  /-- A step of unit `k` on its own. -/
  | unit (k : κ) (e : WebSocketServer.Event)
  /-- Unit `k` fails and is started again. -/
  | reboot (k : κ)

variable {ι κ γ : Type}

section

variable (places : Value → Bool) (toNumber : String → Number)
variable [DecidableEq ι] [DecidableEq κ] [DecidableEq γ]

inductive Step (w : System ι κ γ) : Event ι κ γ → System ι κ γ → Prop where
  /-- Messages come from units and from nowhere else. -/
  | phone {i : ι} {e : Restart.Event} {p : Phone} : (∀ data, e ≠ .app (.message data)) →
      Restart.Step places toNumber (w.phones i) e p →
      Step w (.phone i e) { w with phones := Function.update w.phones i p }
  /-- Only an app that got through its initialisation is connected. -/
  | send {i : ι} {k : κ} {c : γ} : (w.phones i).progress = .complete →
      Step w (.send i k c)
        { w with
          requests := Function.update w.requests (i, k, c)
            (w.requests (i, k, c) ++ [upload (w.phones i).device]) }
  | handle {i : ι} {k : κ} {c : γ} {request : Text} {rest : List Text} :
      w.requests (i, k, c) = request :: rest →
      Step w (.handle i k c)
        { w with
          units := Function.update w.units k
            (WebSocketServer.after (w.units k) (.clientMessage {} request))
          requests := Function.update w.requests (i, k, c) rest
          replies := Function.update w.replies (i, k, c)
            (w.replies (i, k, c) ++ answers (w.units k) request) }
  | process {i : ι} {k : κ} {c : γ} {reply : Text} {rest : List Text} {p : Phone} :
      w.replies (i, k, c) = reply :: rest →
      Restart.Step places toNumber (w.phones i) (.app (.message reply)) p →
      Step w (.process i k c)
        { w with
          phones := Function.update w.phones i p
          replies := Function.update w.replies (i, k, c) rest }
  | drop {i : ι} {k : κ} {c : γ} :
      Step w (.drop i k c)
        { w with
          requests := Function.update w.requests (i, k, c) []
          replies := Function.update w.replies (i, k, c) [] }
  | unit {k : κ} {e : WebSocketServer.Event} {s : WebSocketServer.Server} :
      WebSocketServer.Step (w.units k) e s →
      Step w (.unit k e) { w with units := Function.update w.units k s }
  | reboot {k : κ} :
      Step w (.reboot k)
        { w with units := Function.update w.units k { database := (w.units k).database } }

end

/-! ## What stands for what -/

/-- The text of a database whose events can be drawn. -/
def TextRep (t : Text) (db : Database) : Prop :=
  ∃ v, t = .json v ∧ v.toJSON = some v ∧ DatabaseRep v db ∧ Typed db.markers

/-- The phone got through its last start, and holds what the app holds. -/
structure PhoneRep (places : Value → Bool) (p : Phone) (a : App) : Prop where
  complete : p.progress = .complete
  device : DeviceRep places p.device a

/-- Everything the unit may write or send can be drawn. -/
structure TypedUnit (s : Readme.Server) : Prop where
  database : Typed s.database.markers
  /-- A callback writes its snapshot back. -/
  snapshots : ∀ p ∈ s.publishes, Typed p.local_db.markers

structure SystemRep (places : Value → Bool) (w : System ι κ γ) (n : Network ι κ γ) : Prop where
  phones : ∀ i, PhoneRep places (w.phones i) (n.apps i)
  units : ∀ k, ServerRep (w.units k) (n.units k) ∧ TypedUnit (n.units k)
  requests : ∀ c, List.Forall₂ TextRep (w.requests c) (n.requests c)
  replies : ∀ c, List.Forall₂ TextRep (w.replies c) (n.replies c)

/-- The events of `Network` that stand for an event here, every read, write and send working. -/
inductive EventRep : Event ι κ γ → List (Network.Event ι κ γ) → Prop where
  | create {i : ι} {latlng : LatLng} {type : String} {id : EventId} {timestamp : JsonNumber} :
      EventRep (.phone i (.app (.create (some latlng) type id timestamp)))
        [.create i latlng type id timestamp]
  /-- While the app knows no position, nothing is reported. -/
  | nowhere {i : ι} {type : String} {id : EventId} {timestamp : JsonNumber} :
      EventRep (.phone i (.app (.create none type id timestamp))) []
  | confirm {i : ι} {ident : EventId} {same : Nat → Bool} :
      EventRep (.phone i (.app (.confirm (.str ident.text) same))) [.delete i ident]
  | restart {i : ι} : EventRep (.phone i .restart) []
  | send {i : ι} {k : κ} {c : γ} : EventRep (.send i k c) [.send i k c]
  | handle {i : ι} {k : κ} {c : γ} : EventRep (.handle i k c) [.handle i k c]
  | process {i : ι} {k : κ} {c : γ} : EventRep (.process i k c) [.process i k c]
  | drop {i : ι} {k : κ} {c : γ} : EventRep (.drop i k c) [.drop i k c]
  /-- What the broker brings can be drawn. -/
  | unit {k : κ} {e : WebSocketServer.Event} {f : Readme.Event} : Readme.EventRep e f →
      Typed (Readme.payload f) → EventRep (.unit k e) [.unit k f]
  | reboot {k : κ} : EventRep (.reboot k) [.reboot k]

/-! ## Types -/

theorem typed_merge {l r : Database} (hl : Typed l.markers) (hr : Typed r.markers) :
    Typed (mergeDatabases l r).markers := by
  intro m hm
  rcases mem_merge hm with hm | ⟨x, hx, _, rfl⟩
  · exact hl m hm
  · exact hr x hx

theorem typed_setReported {db : Database} (h : Typed db.markers) (k : Nat) :
    Typed (setReported db k).markers := by
  intro m hm
  obtain ⟨x, hx, rfl | rfl⟩ := mem_setReported hm
  · exact h m hx
  · exact h x hx

/-- **The unit invents no type.** -/
theorem typedUnit_step {s t : Readme.Server} {e : Readme.Event} (h : TypedUnit s)
    (he : Typed (Readme.payload e)) (hs : Readme.Step s e t) : TypedUnit t := by
  cases Readme.step_effect hs with
  | connect => exact ⟨h.database, h.snapshots⟩
  | client => exact ⟨typed_merge h.database he, h.snapshots⟩
  | mqtt => exact ⟨typed_merge h.database he, h.snapshots⟩
  | quiet => exact h
  | started _ _ =>
      exact ⟨h.database, Places.forall_mem_concat h.snapshots (typed_setReported h.database _)⟩
  | published hp _ =>
      have hsnap := h.snapshots _ (List.mem_of_getElem? hp)
      refine ⟨typed_setReported hsnap _, ?_⟩
      intro q hq
      -- the callback changes no snapshot, only whether it has run
      rcases List.mem_or_eq_of_mem_set hq with hq | rfl
      · exact h.snapshots q hq
      · exact hsnap

/-! ## Texts on their way -/

/-- **What the phone sends** is the text of what the app holds. -/
theorem upload_rep {places : Value → Bool} {d : Device} {a : App} (h : DeviceRep places d a) :
    TextRep (upload d) a.database := by
  obtain ⟨ms, hms, hmall⟩ := h.markers
  obtain ⟨ws, hws, hwall⟩ := h.wus
  have hrep : DatabaseRep (.obj [("wus", d.wu_list), ("markers", d.marker_list),
      ("waypoints", d.waypoint_list)]) a.database := by
    rw [hms, hws]
    exact ⟨⟨ws, rfl, hwall⟩, ⟨ms, rfl, hmall⟩, ⟨_, rfl, h.waypoints⟩⟩
  exact ⟨_, rfl, Value.toJSON_elemJSON _, hrep.roundTrip, h.typed⟩

/-- What the handler sends was written by `JSON.stringify`. -/
theorem stable_of_sent {s : WebSocketServer.Server} {request : Text} {v : Value}
    (h : (WebSocketServer.after s (.clientMessage {} request)).sent = s.sent ++ [.json v]) :
    v.toJSON = some v := by
  have hst : WebSocketServer.Step s (.clientMessage {} request)
      (WebSocketServer.after s (.clientMessage {} request)) := ⟨trivial, rfl⟩
  generalize WebSocketServer.after s (.clientMessage {} request) = t at h hst
  cases WebSocketServer.step_effect hst with
  | idle => exact absurd h (by simp)
  | @replied _ _ db _ _ =>
      have hv := List.append_cancel_left h
      simp only [JSON.stringify, List.cons.injEq, and_true, Text.json.injEq] at hv
      exact hv ▸ Value.toJSON_elemJSON db

/-- **What the unit answers** is the text of the reply, and nothing else. -/
theorem answers_rep {s : WebSocketServer.Server} {u : Readme.Server} {request : Text}
    {db : Database} (h : ServerRep s u) (hu : TypedUnit u) (hr : TextRep request db) :
    ServerRep (WebSocketServer.after s (.clientMessage {} request))
        (Readme.onClientMessage u db).2
      ∧ List.Forall₂ TextRep (answers s request) [(Readme.onClientMessage u db).1] := by
  obtain ⟨v, rfl, hv, hrep, ht⟩ := hr
  obtain ⟨hserver, reply, hsent, hreply⟩ := Readme.clientMessage_rep h hrep
  refine ⟨hserver, ?_⟩
  rw [answers, hsent, List.drop_left]
  exact .cons ⟨reply, rfl, stable_of_sent hsent, hreply, typed_merge hu.database ht⟩ .nil

/-! ## Steps and runs -/

/-- Related values at one more place. -/
theorem update_rep {α β γ : Type} [DecidableEq α] {R : β → γ → Prop} {f : α → β} {g : α → γ}
    (h : ∀ x, R (f x) (g x)) {a : α} {b : β} {c : γ} (hbc : R b c) :
    ∀ x, R (Function.update f a b x) (Function.update g a c x) := by
  intro x
  by_cases hx : x = a
  · subst hx
    rw [Function.update_self, Function.update_self]
    exact hbc
  · rw [Function.update_of_ne hx, Function.update_of_ne hx]
    exact h x

/-- A queue with something at its front, on the other side too. -/
theorem queue_rep {ts : List Text} {dbs : List Database} {t : Text} {rest : List Text}
    (h : List.Forall₂ TextRep ts dbs) (hts : ts = t :: rest) :
    ∃ db rest', dbs = db :: rest' ∧ TextRep t db ∧ List.Forall₂ TextRep rest rest' := by
  subst hts
  cases h with
  | cons hdb hrest => exact ⟨_, _, rfl, hdb, hrest⟩

/-- **A phone that is closed and started** comes up as it was. -/
theorem restart_rep {places : Value → Bool} {p : Phone} {a : App} (h : PhoneRep places p a) :
    Restart.start places p.device.storage = p := by
  obtain ⟨d, progress⟩ := p
  obtain rfl : progress = .complete := h.complete
  exact Restart.start_of_initialise
    (Restart.initialise_of_restored h.device.sound h.device.restored)

section

variable {places : Value → Bool} {toNumber : String → Number}
variable [DecidableEq ι] [DecidableEq κ] [DecidableEq γ]

/-- **What the user does to a phone** is what `Network` knows of it. -/
theorem phone_rep (hplaces : PlacesAll places) {w : System ι κ γ} {n : Network ι κ γ} {i : ι}
    {e : Restart.Event} {p : Phone} {fs : List (Network.Event ι κ γ)} (h : SystemRep places w n)
    (he : EventRep (.phone i e) fs) (hs : Restart.Step places toNumber (w.phones i) e p) :
    ∃ n', Lts.Run Network.Step n fs n'
      ∧ SystemRep places { w with phones := Function.update w.phones i p } n' := by
  obtain ⟨hen, rfl⟩ := hs
  have hi := h.phones i
  -- the other phones are not touched, and neither is this one's progress
  have hphones : ∀ {d : Device} {a : App}, DeviceRep places d a →
      ∀ j, PhoneRep places (Function.update w.phones i { w.phones i with device := d } j)
        (Function.update n.apps i a j) :=
    fun hd => update_rep h.phones ⟨hi.complete, hd⟩
  have hsame : ∀ {p : Phone}, p = w.phones i →
      SystemRep places { w with phones := Function.update w.phones i p } n := by
    intro p heq
    subst heq
    rw [Function.update_eq_self]
    exact h
  cases he with
  | @create _ latlng type id timestamp =>
      have hd := create_rep hplaces hi.device latlng hen.2 id timestamp
      exact ⟨_, .single .create, hphones hd, h.units, h.requests, h.replies⟩
  | nowhere => exact ⟨n, .nil, hsame rfl⟩
  | @confirm _ ident same =>
      have hd : DeviceRep places
          (deleteEvent toNumber (w.phones i).device (.str ident.text) same) _ :=
        confirm_rep hi.device ident same
      exact ⟨_, .single .delete, hphones hd, h.units, h.requests, h.replies⟩
  | restart => exact ⟨n, .nil, hsame (restart_rep hi)⟩

/-- **One step of the system** is a run of `Network`. -/
theorem step_rep (hplaces : PlacesAll places) {w w' : System ι κ γ} {n : Network ι κ γ}
    {e : Event ι κ γ} {fs : List (Network.Event ι κ γ)} (h : SystemRep places w n)
    (he : EventRep e fs) (hs : Step places toNumber w e w') :
    ∃ n', Lts.Run Network.Step n fs n' ∧ SystemRep places w' n' := by
  cases hs with
  | phone _ hs => exact phone_rep hplaces h he hs
  | @send i k c _ =>
      cases he
      have hreq := List.rel_append (h.requests (i, k, c))
        (.cons (upload_rep (h.phones i).device) .nil)
      exact ⟨_, .single .send, h.phones, h.units, update_rep h.requests hreq, h.replies⟩
  | @handle i k c request rest hreq =>
      cases he
      obtain ⟨db, rest', hdbs, hdb, hrest⟩ := queue_rep (h.requests (i, k, c)) hreq
      obtain ⟨hserver, htyped⟩ := h.units k
      obtain ⟨hserver', hanswers⟩ := answers_rep hserver htyped hdb
      have htyped' : TypedUnit (Readme.onClientMessage (n.units k) db).2 := by
        obtain ⟨_, _, _, _, ht⟩ := hdb
        exact ⟨typed_merge htyped.database ht, htyped.snapshots⟩
      exact ⟨_, .single (.handle hdbs), h.phones,
        update_rep (R := fun s u => ServerRep s u ∧ TypedUnit u) h.units ⟨hserver', htyped'⟩,
        update_rep h.requests hrest,
        update_rep h.replies (List.rel_append (h.replies (i, k, c)) hanswers)⟩
  | @process i k c reply rest p hrep hs =>
      cases he
      obtain ⟨_, rfl⟩ := hs
      obtain ⟨db, rest', hdbs, ⟨v, rfl, hv, hdb, ht⟩, hrest⟩ := queue_rep (h.replies (i, k, c)) hrep
      have hd := message_rep hplaces (h.phones i).device hdb hv ht
      exact ⟨_, .single (.process hdbs), update_rep h.phones ⟨(h.phones i).complete, hd⟩,
        h.units, h.requests, update_rep h.replies hrest⟩
  | drop =>
      cases he
      exact ⟨_, .single .drop, h.phones, h.units, update_rep h.requests .nil,
        update_rep h.replies .nil⟩
  | @unit k e s hs =>
      cases he with
      | unit hef hty =>
          obtain ⟨hserver, htyped⟩ := h.units k
          obtain ⟨u', hu', hserver'⟩ := Readme.step_refines hserver hef hs
          exact ⟨_, .single (.unit hu'), h.phones,
            update_rep (R := fun s u => ServerRep s u ∧ TypedUnit u) h.units
              ⟨hserver', typedUnit_step htyped hty hu'⟩, h.requests, h.replies⟩
  | @reboot k =>
      cases he
      obtain ⟨hserver, htyped⟩ := h.units k
      -- of a unit that comes back only the file is left
      have hserver' : ServerRep { database := (w.units k).database }
          (Readme.boot (n.units k).database) := ⟨hserver.database, rfl, .nil⟩
      have htyped' : TypedUnit (Readme.boot (n.units k).database) :=
        ⟨htyped.database, fun p hp => absurd hp List.not_mem_nil⟩
      exact ⟨_, .single .reboot, h.phones,
        update_rep (R := fun s u => ServerRep s u ∧ TypedUnit u) h.units ⟨hserver', htyped'⟩,
        h.requests, h.replies⟩

/--
**Every run on texts is a run of `Network`**, on README-format data, in any interleaving
of users, intervals, queues, broker, ticks, callbacks, broken connections, phones that
are closed and units that fail; and in every state reached each phone, were it closed
and started, would come up as it is.
-/
theorem texts_simulated (hplaces : PlacesAll places) {w₀ w : System ι κ γ} {n₀ : Network ι κ γ}
    (h0 : SystemRep places w₀ n₀) {es : List (Event ι κ γ)}
    {fss : List (List (Network.Event ι κ γ))} (he : List.Forall₂ EventRep es fss)
    (hrun : Lts.Run (Step places toNumber) w₀ es w) :
    (∃ n, Lts.Run Network.Step n₀ fss.flatten n ∧ SystemRep places w n)
      ∧ ∀ i, Restart.start places (w.phones i).device.storage = w.phones i := by
  obtain ⟨n, hn, hrep⟩ := Lts.Run.simulate_runs (step_rep hplaces) he hrun h0
  exact ⟨⟨n, hn, hrep⟩, fun i => restart_rep (hrep.phones i)⟩

end

/-! ## A start -/

def latlngValue (p : LatLng) : Value := .obj [("lat", .num p.lat.1), ("lng", .num p.lng.1)]

def markerValue (m : Marker) : Value :=
  .obj [("latlng", latlngValue m.latlng), ("type", .str m.type), ("validated", .bool m.validated),
    ("reported", .bool m.reported), ("id", .str m.id.text), ("timestamp", .num m.timestamp.1)]

def wuValue (w : Wu) : Value :=
  .obj [("latlng", latlngValue w.latlng), ("id", .str w.id), ("status", .str w.status)]

def waypointsValue : Option (List LatLng) → Value
  | none => .null
  | some ps => .arr (ps.map latlngValue)

/-- A database as an object, its properties in the README's order. -/
def databaseValue (db : Database) : Value :=
  .obj [("wus", .arr (db.wus.map wuValue)), ("markers", .arr (db.markers.map markerValue)),
    ("waypoints", waypointsValue db.waypoints)]

theorem forall₂_map {α : Type} {R : Value → α → Prop} {f : α → Value} (h : ∀ a, R (f a) a)
    (l : List α) : List.Forall₂ R (l.map f) l :=
  List.forall₂_map_left_iff.mpr (List.forall₂_same.mpr fun a _ => h a)

theorem markerValue_rep (m : Marker) : MarkerRep (markerValue m) m :=
  ⟨⟨_, rfl, rfl, rfl⟩, rfl, rfl, rfl, rfl, rfl⟩

theorem wuValue_rep (w : Wu) : WuRep (wuValue w) w := ⟨⟨_, rfl, rfl, rfl⟩, rfl, rfl⟩

theorem waypointsValue_rep (ps : Option (List LatLng)) :
    WaypointsRep (waypointsValue ps) ps := by
  cases ps with
  | none => rfl
  | some ps => exact ⟨_, rfl, forall₂_map (fun _ => ⟨rfl, rfl⟩) ps⟩

/-- Every database in the README's format is that of a file. -/
theorem databaseValue_rep (db : Database) : DatabaseRep (databaseValue db) db where
  wus := ⟨_, rfl, forall₂_map wuValue_rep db.wus⟩
  markers := ⟨_, rfl, forall₂_map markerValue_rep db.markers⟩
  waypoints := ⟨_, rfl, waypointsValue_rep db.waypoints⟩

/-- Phones with nothing stored, and units with these databases in their files. -/
def start (dbs : κ → Database) : System ι κ γ where
  phones _ := { device := firstStart, progress := .complete }
  units k := WebSocketServer.boot (.json (databaseValue (dbs k)))
  requests _ := []
  replies _ := []

theorem start_rep (places : Value → Bool) {dbs : κ → Database}
    (ht : ∀ k, Typed (dbs k).markers) :
    SystemRep places (start dbs : System ι κ γ) (Network.opened (fun _ => {}) dbs) where
  phones _ := ⟨rfl, firstStart_rep places⟩
  units k := ⟨Readme.serverRep_boot (databaseValue_rep (dbs k)), ht k,
    fun _ hp => absurd hp List.not_mem_nil⟩
  requests _ := .nil
  replies _ := .nil

theorem placesAll_hasLatLng : PlacesAll hasLatLng := by
  intro v p hex
  obtain ⟨hlat, hlng⟩ := hex
  rw [hasLatLng, hlat, hlng]
  rfl

/-- One unit, with the README's database but for the events. -/
def readmeUnit (_ : Unit) : Database := readmeDatabase []

/-- The user reports the README's event, the phone syncs, and the app is closed and started. -/
def reportSyncRestart : List (Event Unit Unit Unit) :=
  [.phone () (.app
      (.create (some (readmeEvent idA).latlng) "fire" idA (readmeEvent idA).timestamp)),
    .send () () (), .handle () () (), .process () () (), .phone () .restart]

theorem texts_simulated_report :
    ∃ w, Lts.Run (Step hasLatLng Number.mk) (start readmeUnit) reportSyncRestart w
      ∧ (∃ n, Lts.Run Network.Step (Network.opened (fun _ => {}) readmeUnit)
          [.create () (readmeEvent idA).latlng "fire" idA (readmeEvent idA).timestamp,
            .send () () (), .handle () () (), .process () () ()] n
        ∧ SystemRep hasLatLng w n)
      ∧ ∀ i, Restart.start hasLatLng (w.phones i).device.storage = w.phones i := by
  have hfire : "fire" ∈ Draw.event_types.map Prod.fst := by decide
  have hrun : Lts.Run (Step hasLatLng Number.mk) (start readmeUnit) reportSyncRestart _ :=
    .cons (.phone nofun ⟨⟨rfl, hfire⟩, rfl⟩) (.cons (.send rfl)
      (.cons (.handle rfl) (.cons (.process rfl ⟨⟨rfl, trivial⟩, rfl⟩)
        (.single (.phone nofun ⟨trivial, rfl⟩)))))
  have hlabels : List.Forall₂ EventRep reportSyncRestart [_, _, _, _, _] :=
    .cons .create (.cons .send (.cons .handle (.cons .process (.cons .restart .nil))))
  have hty : ∀ k, Typed (readmeUnit k).markers := fun _ _ hm => absurd hm List.not_mem_nil
  exact ⟨_, hrun, texts_simulated placesAll_hasLatLng (start_rep hasLatLng hty) hlabels hrun⟩

end EssApp.Sync.Texts
