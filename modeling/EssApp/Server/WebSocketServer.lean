import EssApp.Lib.Run
import EssApp.Server.Merge

/-!
# The Witness Unit's server

The handlers of `WebSocketServer.js` over the state they share: the file
`database.json`, the `txEnabled` switch, what went out to clients and what was
handed to the broker. A handler runs in one step, and one that throws ends its
step where it threw, with the effects it had until then.

Three things are outside the program's control and are parameters of a step:
whether the file can be read, whether `cl.send` works, whether the write works
(`Outcomes`), and, for a publish, when its callback comes and with what result.
The file itself may hold any text, or be unreadable for good. A write that fails is taken
to leave the file as it was; that `writeFileSync` can leave a part of the text is not modelled.

The `run_` lemmas say once what each handler does to the state, and `step_effect`
what a step can do at all; nothing later unfolds a handler.
-/

namespace EssApp.WebSocketServer

open Js

/-- How the operations of one step that the program does not control turn out. -/
structure Outcomes where
  readOk : Bool := true
  sendOk : Bool := true
  writeOk : Bool := true

/-- The result `mqttClient.publish` passes to its callback: no error, or one. -/
inductive Delivery where
  | success
  | failure
  deriving DecidableEq, Repr

/-- A call of `mqttClient.publish`, with what its callback will work on. -/
structure Publish where
  /-- The database the tick loaded, its marker `k` set to reported. -/
  local_db : Value
  k : String
  payload : Text
  /-- `none` until the callback has run. -/
  delivery : Option Delivery := none

structure Server where
  /-- `database.json`; `none` when there is no such file or it cannot be read. -/
  database : Option Text
  txEnabled : Bool := false
  /-- What `cl.send` has sent, oldest first. -/
  sent : List Text := []
  /-- The calls of `mqttClient.publish`, oldest first. -/
  publishes : List Publish := []

/-- A handler: it works on the server's state and keeps what it did when it throws. -/
abbrev Handler := ExceptT Exn (StateM Server)

/-! ## Reading and writing the file -/

def readFileSync (io : Outcomes) (s : Server) : Except Exn Text :=
  match s.database with
  | some text => if io.readOk then .ok text else .error .systemError
  | none => .error .systemError

/-- The file's value; `undefined` when it cannot be read or parsed, or is falsy. -/
def loadDatabase (io : Outcomes) (s : Server) : Value :=
  let database :=
    match readFileSync io s >>= JSON.parse with
    | .ok v => v
    -- caught and logged
    | .error _ => .null
  if database.truthy then database else .undefined

/-- A write replaces the file or fails, and then the file is the one before. -/
def writeDatabase (io : Outcomes) (db : Value) : Handler Unit :=
  if io.writeOk then
    modify fun s => { s with database := some (JSON.stringify db) }
  else throw .systemError

/-! ## The handlers -/

/-- `cl.send`. -/
def send (io : Outcomes) (text : Text) : Handler Unit :=
  if io.sendOk then modify fun s => { s with sent := s.sent ++ [text] } else throw .systemError

/-- `cl.on('message')`. -/
def onClientMessage (io : Outcomes) (data : Text) : Handler Unit := do
  let remote_db ← JSON.parse data
  let local_db := loadDatabase io (← get)
  let resulting_db ← mergeDatabases local_db remote_db
  -- the reply goes out before the file is written
  send io (JSON.stringify resulting_db)
  writeDatabase io resulting_db

/-- `mqttClient.on('message')`; the parsed message is printed as text before it is used. -/
def onMqttMessage (io : Outcomes) (message : Text) : Handler Unit := do
  let remote_db ← JSON.parse message
  let _ ← remote_db.toText
  let local_db := loadDatabase io (← get)
  let resulting_db ← mergeDatabases local_db remote_db
  writeDatabase io resulting_db

/-- `mqttClient.on('connect')`. -/
def onConnect : Handler Unit :=
  modify fun s => { s with txEnabled := true }

/-- The timer's search: the first marker that was not transmitted, with its key. -/
def firstUnreported : List (String × Value) → Except Exn (Option (String × Value))
  | [] => .ok none
  | (k, m) :: es => do
      if !(← m.get "reported").truthy then return some (k, m) else firstUnreported es

/-- `db.markers[k].reported = true`. -/
def setReported (db : Value) (k : String) : Value :=
  db.modify "markers" fun markers => markers.modify k fun m => m.set "reported" (.bool true)

/-- The publish a tick starts on finding marker `m` under `k`. -/
def publishOf (local_db : Value) (k : String) (m : Value) : Publish :=
  { local_db := setReported local_db k, k := k,
    payload := JSON.stringify (m.set "reported" (.bool true)) }

/-- The `setInterval` callback. -/
def onTimer (io : Outcomes) : Handler Unit := do
  let local_db := loadDatabase io (← get)
  if (← get).txEnabled then
    let markers ← local_db.get "markers"
    -- the loop breaks at the first marker it publishes
    match ← firstUnreported markers.entries with
    | none => pure ()
    | some (k, m) =>
        modify fun s => { s with publishes := s.publishes ++ [publishOf local_db k m] }

/-- How the promise of `mqttSend` settles. -/
inductive Settled where
  | fulfilled
  | rejected

/--
`mqttSend` hands its `fulfill` to `publish` as the callback, so an error is only
the value the promise is fulfilled with.
-/
def mqttSend : Delivery → Settled := fun _ => .fulfilled

/-- The callback of the `i`-th publish, and the `then` it leads to. -/
def onPublished (io : Outcomes) (i : Nat) (d : Delivery) : Handler Unit := do
  match (← get).publishes[i]? with
  | none => pure ()
  | some p =>
      modify fun s => { s with publishes := s.publishes.set i { p with delivery := some d } }
      match mqttSend d with
      -- the snapshot of the tick, not the file as it is now
      | .fulfilled => writeDatabase io (setReported p.local_db p.k)
      | .rejected => pure ()

/-! ## Steps -/

inductive Event where
  | connect
  | clientMessage (io : Outcomes) (data : Text)
  | mqttMessage (io : Outcomes) (message : Text)
  | tick (io : Outcomes)
  | published (io : Outcomes) (i : Nat) (d : Delivery)

def handle : Event → Handler Unit
  | .connect => onConnect
  | .clientMessage io data => onClientMessage io data
  | .mqttMessage io message => onMqttMessage io message
  | .tick io => onTimer io
  | .published io i d => onPublished io i d

/-- `publish` calls its callback once. -/
def Enabled (s : Server) : Event → Prop
  | .published _ i _ => ∃ p, s.publishes[i]? = some p ∧ p.delivery = none
  | _ => True

/-- The state a handler leaves, whether it completed or threw. -/
def after (s : Server) (e : Event) : Server := ((handle e).run s).2

/-- Whether a handler runs to completion. -/
def Completes (s : Server) (e : Event) : Prop := ((handle e).run s).1 = .ok ()

def Step (s : Server) (e : Event) (t : Server) : Prop := Enabled s e ∧ t = after s e

/-! ## What each handler does -/

/-- The database a client's message leads to. -/
def mergedFor (io : Outcomes) (s : Server) (data : Text) : Except Exn Value := do
  let remote_db ← JSON.parse data
  mergeDatabases (loadDatabase io s) remote_db

/-- The database a message of the broker leads to. -/
def mergedForMqtt (io : Outcomes) (s : Server) (message : Text) : Except Exn Value := do
  let remote_db ← JSON.parse message
  let _ ← remote_db.toText
  mergeDatabases (loadDatabase io s) remote_db

/-- The file after a write of `db`. -/
def fileAfter (io : Outcomes) (s : Server) (db : Value) : Option Text :=
  if io.writeOk then some (JSON.stringify db) else s.database

theorem run_clientMessage (io : Outcomes) (data : Text) (s : Server) :
    (onClientMessage io data).run s =
      match mergedFor io s data with
      | .error e => (.error e, s)
      | .ok db =>
          if io.sendOk then
            (if io.writeOk then .ok () else .error .systemError,
              { s with sent := s.sent ++ [JSON.stringify db], database := fileAfter io s db })
          else (.error .systemError, s) := by
  unfold onClientMessage mergedFor
  cases data with
  | malformed => rfl
  | json remote_db =>
      show (ExceptT.run (do
        let resulting_db ← (mergeDatabases (loadDatabase io s) remote_db : Handler Value)
        send io (JSON.stringify resulting_db)
        writeDatabase io resulting_db)).run s =
          match mergeDatabases (loadDatabase io s) remote_db with
          | .error e => (.error e, s)
          | .ok db => _
      cases mergeDatabases (loadDatabase io s) remote_db with
      | error e => rfl
      | ok db =>
          -- what is left is the two effects, each working or throwing
          unfold send writeDatabase fileAfter
          cases io.sendOk <;> cases io.writeOk <;> rfl

theorem run_mqttMessage (io : Outcomes) (message : Text) (s : Server) :
    (onMqttMessage io message).run s =
      match mergedForMqtt io s message with
      | .error e => (.error e, s)
      | .ok db =>
          (if io.writeOk then .ok () else .error .systemError,
            { s with database := fileAfter io s db }) := by
  unfold onMqttMessage mergedForMqtt
  cases message with
  | malformed => rfl
  | json remote_db =>
      show (ExceptT.run (do
        let _ ← (remote_db.toText : Handler String)
        let local_db := loadDatabase io (← get)
        let resulting_db ← (mergeDatabases local_db remote_db : Handler Value)
        writeDatabase io resulting_db)).run s =
          match (do
            let _ ← remote_db.toText
            mergeDatabases (loadDatabase io s) remote_db) with
          | .error e => (.error e, s)
          | .ok db => _
      cases remote_db.toText with
      | error e => rfl
      | ok _ =>
          show (ExceptT.run (do
            let resulting_db ← (mergeDatabases (loadDatabase io s) remote_db : Handler Value)
            writeDatabase io resulting_db)).run s =
              match mergeDatabases (loadDatabase io s) remote_db with
              | .error e => (.error e, s)
              | .ok db => _
          cases mergeDatabases (loadDatabase io s) remote_db with
          | error e => rfl
          | ok db =>
              unfold writeDatabase fileAfter
              cases io.writeOk <;> rfl

/-- What a tick finds to publish: nothing, or a marker under a key. -/
def pendingMarker (io : Outcomes) (s : Server) : Except Exn (Option (String × Value)) := do
  let markers ← (loadDatabase io s).get "markers"
  firstUnreported markers.entries

theorem run_tick (io : Outcomes) (s : Server) :
    (onTimer io).run s =
      if s.txEnabled then
        match pendingMarker io s with
        | .error e => (.error e, s)
        | .ok none => (.ok (), s)
        | .ok (some (k, m)) =>
            (.ok (), { s with publishes := s.publishes ++ [publishOf (loadDatabase io s) k m] })
      else (.ok (), s) := by
  unfold onTimer pendingMarker
  show ((if s.txEnabled then (do
      let markers ← ((loadDatabase io s).get "markers" : Handler Value)
      match ← (firstUnreported markers.entries : Handler (Option (String × Value))) with
      | none => pure ()
      | some (k, m) => modify fun t =>
          { t with publishes := t.publishes ++ [publishOf (loadDatabase io s) k m] })
    else pure () : Handler Unit)).run.run s = _
  generalize loadDatabase io s = local_db
  by_cases htx : s.txEnabled = true
  · rw [if_pos htx, if_pos htx]
    cases local_db.get "markers" with
    | error e => rfl
    | ok markers =>
        show ((do
          match ← (firstUnreported markers.entries : Handler (Option (String × Value))) with
          | none => pure ()
          | some (k, m) =>
              modify fun s => { s with publishes := s.publishes ++ [publishOf local_db k m] }
          : Handler Unit)).run.run s =
            match firstUnreported markers.entries with
            | .error e => (.error e, s)
            | .ok none => (.ok (), s)
            | .ok (some (k, m)) => _
        cases firstUnreported markers.entries with
        | error e => rfl
        | ok found => cases found <;> rfl
  · rw [if_neg htx, if_neg htx]
    rfl

theorem run_published {io : Outcomes} {i : Nat} {d : Delivery} {s : Server} {p : Publish}
    (hp : s.publishes[i]? = some p) :
    (onPublished io i d).run s =
      (if io.writeOk then .ok () else .error .systemError,
        { s with publishes := s.publishes.set i { p with delivery := some d },
                 database := fileAfter io s (setReported p.local_db p.k) }) := by
  unfold onPublished
  show ((match s.publishes[i]? with
    | none => pure ()
    | some p => do
        modify fun s => { s with publishes := s.publishes.set i { p with delivery := some d } }
        match mqttSend d with
        | .fulfilled => writeDatabase io (setReported p.local_db p.k)
        | .rejected => pure () : Handler Unit)).run.run s = _
  rw [hp]
  unfold writeDatabase fileAfter
  cases io.writeOk <;> rfl

/--
**Everything a step can do.** A handler that throws before its first effect, and a
tick that finds nothing, leave the state alone; the others merge a message into
the file, start a publish, or write a publish's snapshot back.
-/
inductive Effect (s : Server) : Event → Server → Prop where
  | connect : Effect s .connect { s with txEnabled := true }
  | idle {e : Event} : Effect s e s
  | replied {io : Outcomes} {data : Text} {db : Value} :
      mergedFor io s data = .ok db → io.sendOk = true →
      Effect s (.clientMessage io data)
        { s with sent := s.sent ++ [JSON.stringify db], database := fileAfter io s db }
  | received {io : Outcomes} {message : Text} {db : Value} :
      mergedForMqtt io s message = .ok db →
      Effect s (.mqttMessage io message) { s with database := fileAfter io s db }
  | started {io : Outcomes} {k : String} {m : Value} :
      s.txEnabled = true → pendingMarker io s = .ok (some (k, m)) →
      Effect s (.tick io)
        { s with publishes := s.publishes ++ [publishOf (loadDatabase io s) k m] }
  | published {io : Outcomes} {i : Nat} {d : Delivery} {p : Publish} :
      s.publishes[i]? = some p → p.delivery = none →
      Effect s (.published io i d)
        { s with publishes := s.publishes.set i { p with delivery := some d },
                 database := fileAfter io s (setReported p.local_db p.k) }

theorem step_effect {s t : Server} {e : Event} (h : Step s e t) : Effect s e t := by
  obtain ⟨hen, rfl⟩ := h
  cases e with
  | connect => exact .connect
  | clientMessage io data =>
      simp only [after, handle, run_clientMessage]
      split
      · exact .idle
      · split
        · exact .replied ‹_› ‹_›
        · exact .idle
  | mqttMessage io message =>
      simp only [after, handle, run_mqttMessage]
      split
      · exact .idle
      · exact .received ‹_›
  | tick io =>
      simp only [after, handle, run_tick]
      split
      · split
        · exact .idle
        · exact .idle
        · exact .started ‹_› ‹_›
      · exact .idle
  | published io i d =>
      obtain ⟨p, hp, hd⟩ := hen
      simp only [after, handle, run_published hp]
      exact .published hp hd

end EssApp.WebSocketServer
