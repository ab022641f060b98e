import EssApp.Readme.Database
import EssApp.Server.WebSocketServer

/-!
# The server on README-format data

The same handlers with every payload a database in the README's format, the file
one, and every read, write and send working. Nothing throws, so a handler is a
function from states to states, and the reply of a client's message is the
database it leaves in the file.

A publish keeps the snapshot its tick loaded; the callback writes that snapshot
back, whatever has happened to the file since.
-/

namespace EssApp.Readme

open WebSocketServer (Delivery)

/-- A call of `mqttClient.publish`, with what its callback will work on. -/
structure Publish where
  local_db : Database
  k : Nat
  delivery : Option Delivery := none

/-- What a publish sends: `local_db.markers[k]`, whose flag is set already. -/
def Publish.data (p : Publish) : Option Marker := p.local_db.markers[p.k]?

structure Server where
  /-- `database.json`. -/
  database : Database
  txEnabled : Bool := false
  publishes : List Publish := []

/-- `db.markers[k].reported = true`. -/
def setReported (db : Database) (k : Nat) : Database :=
  { db with markers := db.markers.modify k Marker.report }

/-- `cl.on('message')`: the reply, and the state after the write. -/
def onClientMessage (s : Server) (remote_db : Database) : Database × Server :=
  let resulting_db := mergeDatabases s.database remote_db
  (resulting_db, { s with database := resulting_db })

/-- `mqttClient.on('message')`. -/
def onMqttMessage (s : Server) (remote_db : Database) : Server :=
  { s with database := mergeDatabases s.database remote_db }

/-- `mqttClient.on('connect')`. -/
def onConnect (s : Server) : Server := { s with txEnabled := true }

/-- The first marker that was not transmitted, by its index. -/
def firstUnreported (markers : List Marker) : Option Nat :=
  markers.findIdx? fun m => !m.reported

/-- The `setInterval` callback. -/
def onTimer (s : Server) : Server :=
  if s.txEnabled then
    match firstUnreported s.database.markers with
    | none => s
    | some k =>
        { s with publishes := s.publishes ++ [{ local_db := setReported s.database k, k := k }] }
  else s

/-- The callback of the `i`-th publish. It writes whether there was an error or not. -/
def onPublished (s : Server) (i : Nat) (d : Delivery) : Server :=
  match s.publishes[i]? with
  | none => s
  | some p =>
      { s with publishes := s.publishes.set i { p with delivery := some d },
               database := setReported p.local_db p.k }

inductive Event where
  | connect
  | clientMessage (remote_db : Database)
  | mqttMessage (remote_db : Database)
  | tick
  | published (i : Nat) (d : Delivery)

def handle (s : Server) : Event → Server
  | .connect => onConnect s
  | .clientMessage remote_db => (onClientMessage s remote_db).2
  | .mqttMessage remote_db => onMqttMessage s remote_db
  | .tick => onTimer s
  | .published i d => onPublished s i d

/-- `publish` calls its callback once. -/
def Enabled (s : Server) : Event → Prop
  | .published i _ => ∃ p, s.publishes[i]? = some p ∧ p.delivery = none
  | _ => True

def Step (s : Server) (e : Event) (t : Server) : Prop := Enabled s e ∧ t = handle s e

/-- The state a server process starts in. -/
def boot (db : Database) : Server := { database := db }

/-- The events a message brings. -/
def payload : Event → List Marker
  | .clientMessage remote_db => remote_db.markers
  | .mqttMessage remote_db => remote_db.markers
  | _ => []

theorem step_deterministic (s : Server) (e : Event) (t t' : Server) (h : Step s e t)
    (h' : Step s e t') : t = t' :=
  h.2.trans h'.2.symm

/-- The labels of a run determine where it ends. -/
theorem run_deterministic {s t t' : Server} {es : List Event} (h : Lts.Run Step s es t)
    (h' : Lts.Run Step s es t') : t = t' :=
  h.deterministic step_deterministic h'

/-! ## What a step does -/

/-- **Everything a step can do.** -/
inductive Effect (s : Server) : Event → Server → Prop where
  | connect : Effect s .connect { s with txEnabled := true }
  | client {remote_db : Database} : Effect s (.clientMessage remote_db)
      { s with database := mergeDatabases s.database remote_db }
  | mqtt {remote_db : Database} : Effect s (.mqttMessage remote_db)
      { s with database := mergeDatabases s.database remote_db }
  | quiet : Effect s .tick s
  | started {k : Nat} : s.txEnabled = true → firstUnreported s.database.markers = some k →
      Effect s .tick
        { s with publishes := s.publishes ++ [{ local_db := setReported s.database k, k := k }] }
  | published {i : Nat} {d : Delivery} {p : Publish} :
      s.publishes[i]? = some p → p.delivery = none →
      Effect s (.published i d)
        { s with publishes := s.publishes.set i { p with delivery := some d },
                 database := setReported p.local_db p.k }

theorem step_effect {s t : Server} {e : Event} (h : Step s e t) : Effect s e t := by
  obtain ⟨hen, rfl⟩ := h
  cases e with
  | connect => exact .connect
  | clientMessage remote_db => exact .client
  | mqttMessage remote_db => exact .mqtt
  | tick =>
      simp only [handle, onTimer]
      split
      · split
        · exact .quiet
        · exact .started ‹_› ‹_›
      · exact .quiet
  | published i d =>
      obtain ⟨p, hp, hd⟩ := hen
      simp only [handle, onPublished, hp]
      exact .published hp hd

/-! ## Setting a flag in a list -/

theorem getElem?_setReported (db : Database) (k i : Nat) :
    (setReported db k).markers[i]?
      = (db.markers[i]?).map fun m => if k = i then m.report else m := by
  rw [setReported, List.getElem?_modify]
  rfl

theorem ids_setReported (db : Database) (k : Nat) :
    ids (setReported db k).markers = ids db.markers := by
  refine List.ext_getElem? ?_
  intro i
  rw [ids, ids, List.getElem?_map, List.getElem?_map, getElem?_setReported, Option.map_map]
  congr 1
  funext m
  simp only [Function.comp_apply]
  split <;> rfl

/-- A second write of the same flag changes nothing. -/
theorem setReported_setReported (db : Database) (k : Nat) :
    setReported (setReported db k) k = setReported db k := by
  refine Database.ext rfl (List.ext_getElem? ?_) rfl
  intro i
  rw [getElem?_setReported, getElem?_setReported, Option.map_map]
  -- at `k` the flag is set twice, elsewhere nothing is
  congr 1
  funext m
  simp only [Function.comp_apply]
  split <;> rfl

/-- Every marker of a snapshot is one of the database's, but for the flag. -/
theorem mem_setReported {db : Database} {k : Nat} {m : Marker}
    (h : m ∈ (setReported db k).markers) :
    ∃ m₀ ∈ db.markers, m = m₀ ∨ m = m₀.report := by
  obtain ⟨i, hi⟩ := List.mem_iff_getElem?.mp h
  rw [getElem?_setReported] at hi
  obtain ⟨m₀, hm₀, heq⟩ := Option.map_eq_some_iff.mp hi
  refine ⟨m₀, List.mem_of_getElem? hm₀, ?_⟩
  split at heq
  · exact Or.inr heq.symm
  · exact Or.inl heq.symm

/-- A marker of a snapshot is one of the database's, or the one whose flag was set. -/
theorem mem_setReported_at {db : Database} {k : Nat} {m : Marker}
    (h : m ∈ (setReported db k).markers) :
    m ∈ db.markers ∨ ∃ m₀, db.markers[k]? = some m₀ ∧ m = m₀.report := by
  obtain ⟨i, hi⟩ := List.mem_iff_getElem?.mp h
  rw [getElem?_setReported] at hi
  obtain ⟨m₀, hm₀, heq⟩ := Option.map_eq_some_iff.mp hi
  split at heq
  · next hk => exact Or.inr ⟨m₀, hk ▸ hm₀, heq.symm⟩
  · exact Or.inl (heq ▸ List.mem_of_getElem? hm₀)

end EssApp.Readme
