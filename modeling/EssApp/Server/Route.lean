import EssApp.Lib.Places
import EssApp.Server.Completion

/-!
# No message can alter the evacuation route

The server only ever writes two kinds of database: what `mergeDatabases` returns,
which takes `wus` and `waypoints` from the file, and the snapshot of a tick, which
is the file with one flag set. So the route the file started with is in the file,
in every snapshot and in every reply, whatever the payloads are and wherever a
handler stops.
-/

namespace EssApp.WebSocketServer

open Js

/-- `JSON.stringify` and `JSON.parse` bring the property `k` of `v` back as it was. -/
def RoundTrips (v : Value) (k : String) : Prop := (v.own k).bind Value.toJSON = v.own k

/-- `v` has the two lists of `v₀` that make up the route. -/
structure SameRoute (v₀ v : Value) : Prop where
  wus : v.own "wus" = v₀.own "wus"
  waypoints : v.own "waypoints" = v₀.own "waypoints"

/-- The state a server process starts in. -/
def boot (file : Text) : Server := { database := some file }

/-- The route is the one of `v₀` everywhere it is kept. -/
structure RouteInv (v₀ : Value) (s : Server) : Prop where
  /-- In the file, -/
  file : ∃ v, s.database = some (.json v) ∧ v.isObject = true ∧ SameRoute v₀ v
  /-- in every snapshot, finished or not, -/
  snapshots : ∀ p ∈ s.publishes, (∃ ps, p.local_db = .obj ps) ∧ SameRoute v₀ p.local_db
  /-- and in every reply. -/
  replies : ∀ reply ∈ s.sent, ∃ v, reply = .json v ∧ SameRoute v₀ v

/-- What has elements under `markers` is an object. -/
theorem obj_of_entries {v : Value} (h : (v.prop "markers").entries ≠ []) : ∃ ps, v = .obj ps := by
  cases v with
  | obj ps => exact ⟨ps, rfl⟩
  | arr es => exact absurd rfl h
  | str s => exact absurd rfl h
  | _ => exact absurd rfl h

theorem database_of_read {io : Outcomes} {s : Server} {text : Text}
    (h : readFileSync io s = .ok text) : s.database = some text := by
  unfold readFileSync at h
  cases hd : s.database with
  | none => rw [hd] at h; cases h
  | some text' =>
      rw [hd] at h
      dsimp only at h
      split at h
      · rw [Except.ok.inj h]
      · cases h

/-- Loading gives the file's value or nothing. -/
theorem loadDatabase_cases (io : Outcomes) (s : Server) :
    loadDatabase io s = .undefined
      ∨ ∃ v, s.database = some (.json v) ∧ loadDatabase io s = v := by
  unfold loadDatabase
  cases hr : readFileSync io s with
  | error e => exact Or.inl rfl
  | ok text =>
      cases text with
      | malformed => exact Or.inl rfl
      | json v =>
          show (if v.truthy = true then v else .undefined) = _ ∨ _
          by_cases hv : v.truthy = true
          · exact Or.inr ⟨v, database_of_read hr, if_pos hv⟩
          · exact Or.inl (if_neg hv)

/-- A database the merge can read was loaded from the file. -/
theorem loaded_of_mergeable {io : Outcomes} {s : Server} (h : Mergeable (loadDatabase io s)) :
    s.database = some (.json (loadDatabase io s)) := by
  rcases loadDatabase_cases io s with h' | ⟨v, hv, h'⟩
  · rw [h'] at h
    exact absurd h.not_nullish (by decide)
  · rw [h']; exact hv

/-- What a tick finds, it finds in an object loaded from the file. -/
theorem loaded_of_pending {io : Outcomes} {s : Server} {k : String} {m : Value}
    (h : pendingMarker io s = .ok (some (k, m))) :
    s.database = some (.json (loadDatabase io s)) ∧ ∃ ps, loadDatabase io s = .obj ps := by
  obtain ⟨ms, hms, hf⟩ := bind_ok_iff.mp h
  obtain ⟨hn, rfl⟩ := Value.get_ok_iff.mp hms
  have hobj : ∃ ps, loadDatabase io s = .obj ps := by
    refine obj_of_entries (fun he => ?_)
    rw [he] at hf
    cases hf
  refine ⟨?_, hobj⟩
  rcases loadDatabase_cases io s with h' | ⟨v, hv, h'⟩
  · rw [h'] at hn; exact absurd hn (by decide)
  · rw [h']; exact hv

/-- Setting a marker's flag keeps the route. -/
theorem sameRoute_setReported {v₀ v : Value} {ps : List (String × Value)} (hv : v = .obj ps)
    (h : SameRoute v₀ v) (k : String) :
    (∃ ps', setReported v k = .obj ps') ∧ SameRoute v₀ (setReported v k) := by
  subst hv
  refine ⟨⟨_, rfl⟩, ?_, ?_⟩
  · rw [setReported, Value.own_modify_obj, if_neg (by decide), h.wus]
  · rw [setReported, Value.own_modify_obj, if_neg (by decide), h.waypoints]

section

variable {v₀ : Value} (hw : RoundTrips v₀ "wus") (hp : RoundTrips v₀ "waypoints")
include hw hp

/-- Writing an object out and reading it back keeps the route. -/
theorem sameRoute_written {ps : List (String × Value)} (h : SameRoute v₀ (.obj ps)) :
    SameRoute v₀ (Value.obj ps).elemJSON := by
  refine ⟨?_, ?_⟩
  · rw [Value.own_elemJSON_obj, h.wus, hw]
  · rw [Value.own_elemJSON_obj, h.waypoints, hp]

/-- What the merge returns, written out and read back, has the route of the local database. -/
theorem sameRoute_merged {local_db remote_db db : Value} (h : SameRoute v₀ local_db)
    (hm : mergeDatabases local_db remote_db = .ok db) :
    db.elemJSON.isObject = true ∧ SameRoute v₀ db.elemJSON := by
  -- a list the local database does not have is dropped on the way out, and so is `undefined`
  have hback : ∀ k, (local_db.own k).bind Value.toJSON = local_db.own k →
      (local_db.prop k).toJSON = local_db.own k := by
    intro k hk
    rw [Value.prop]
    cases hx : local_db.own k with
    | none => rfl
    | some x => rw [hx] at hk; exact hk
  obtain ⟨ms, rfl⟩ := mergeDatabases_shape hm
  refine ⟨rfl, ?_, ?_⟩
  · rw [Value.own_elemJSON_obj]
    show (local_db.prop "wus").toJSON = _
    rw [hback _ (by rw [h.wus]; exact hw), h.wus]
  · rw [Value.own_elemJSON_obj]
    show (local_db.prop "waypoints").toJSON = _
    rw [hback _ (by rw [h.waypoints]; exact hp), h.waypoints]

/-- **The route survives every step.** -/
theorem routeInv_step {s t : Server} {e : Event} (h : RouteInv v₀ s) (hs : Step s e t) :
    RouteInv v₀ t := by
  obtain ⟨v, hv, hobj, hroute⟩ := h.file
  -- what a handler loads from the file has the file's route
  have hloaded : ∀ io, s.database = some (.json (loadDatabase io s)) →
      SameRoute v₀ (loadDatabase io s) := by
    intro io hl
    rw [hv] at hl
    cases hl
    exact hroute
  -- a write replaces the file's value by `db` after a round trip, or fails
  have hfile : ∀ io db, db.elemJSON.isObject = true ∧ SameRoute v₀ db.elemJSON →
      ∃ v, fileAfter io s db = some (.json v) ∧ v.isObject = true ∧ SameRoute v₀ v := by
    intro io db hdb
    unfold fileAfter
    split
    · exact ⟨_, rfl, hdb⟩
    · exact ⟨v, hv, hobj, hroute⟩
  have hmerged : ∀ io remote_db db, mergeDatabases (loadDatabase io s) remote_db = .ok db →
      db.elemJSON.isObject = true ∧ SameRoute v₀ db.elemJSON := by
    intro io remote_db db hm
    have hl := (mergeDatabases_ok_iff.mp ⟨db, hm⟩).1
    exact sameRoute_merged hw hp (hloaded io (loaded_of_mergeable hl)) hm
  cases step_effect hs with
  | connect => exact ⟨h.file, h.snapshots, h.replies⟩
  | idle => exact h
  | @replied io data db hm hsend =>
      obtain ⟨remote_db, _, hm⟩ := bind_ok_iff.mp hm
      have hdb := hmerged io remote_db db hm
      exact ⟨hfile io db hdb, h.snapshots, Places.forall_mem_concat h.replies ⟨_, rfl, hdb.2⟩⟩
  | @received io message db hm =>
      obtain ⟨remote_db, _, hm⟩ := bind_ok_iff.mp hm
      obtain ⟨_, _, hm⟩ := bind_ok_iff.mp hm
      exact ⟨hfile io db (hmerged io remote_db db hm), h.snapshots, h.replies⟩
  | @started io k m htx hm =>
      obtain ⟨hl, ps, hps⟩ := loaded_of_pending hm
      have hsnap := sameRoute_setReported hps (hloaded io hl) k
      exact ⟨h.file, Places.forall_mem_concat h.snapshots hsnap, h.replies⟩
  | @published io i d p hget hd =>
      have hmem := List.mem_of_getElem? hget
      obtain ⟨⟨ps, hps⟩, hsame⟩ := h.snapshots p hmem
      -- what the callback writes is its snapshot with one flag set
      obtain ⟨⟨ps', hps'⟩, hsame'⟩ := sameRoute_setReported hps hsame p.k
      refine ⟨hfile io _ ?_, Places.forall_mem_set h.snapshots ?_ i, h.replies⟩
      · rw [hps'] at hsame' ⊢
        exact ⟨rfl, sameRoute_written hw hp hsame'⟩
      · exact ⟨⟨ps, hps⟩, hsame⟩

end

/--
**The evacuation route is fixed.** From a file that parses to an object, whatever
the payloads and however the operations turn out, the file and every reply hold
the `wus` and `waypoints` the file started with. A write that fails is taken to leave
the file as it was.
-/
theorem route_fixed {v₀ : Value} (hobj : v₀.isObject = true) (hw : RoundTrips v₀ "wus")
    (hp : RoundTrips v₀ "waypoints") {es : List Event} {s : Server}
    (hrun : Lts.Run Step (boot (.json v₀)) es s) :
    (∃ v, s.database = some (.json v) ∧ SameRoute v₀ v)
      ∧ ∀ reply ∈ s.sent, ∃ v, reply = .json v ∧ SameRoute v₀ v := by
  have hinit : RouteInv v₀ (boot (.json v₀)) :=
    ⟨⟨v₀, rfl, hobj, rfl, rfl⟩, fun p h => absurd h (by simp [boot]),
      fun r h => absurd h (by simp [boot])⟩
  have hinv := hrun.invariant (I := RouteInv v₀) (routeInv_step hw hp) hinit
  obtain ⟨v, hv, _, hr⟩ := hinv.file
  exact ⟨⟨v, hv, hr⟩, hinv.replies⟩

/-- A position in a database. -/
def latLng (lat lng : String) : Value :=
  .obj [("lat", .num ⟨lat⟩), ("lng", .num ⟨lng⟩)]

/-- The marker of the README's example. -/
def readmeMarker : Value :=
  .obj [("latlng", latLng "-38.689217299999996" "-62.2506036"),
    ("id", .str "a8uhn7eHUJnheUJ3n9In"), ("timestamp", .num ⟨"1579123392000"⟩),
    ("validated", .bool true), ("reported", .bool false), ("type", .str "fire")]

/-- The README's example of a database. -/
def readmeDatabase : Value :=
  .obj [("wus", .arr [.obj [("latlng", latLng "-38.6842173" "-62.2406036"),
      ("id", .str "wu_0"), ("status", .str "up")]]),
    ("markers", .arr [readmeMarker]),
    ("waypoints", .arr [latLng "-38.6992173" "-62.2626036"])]

/-- A phone's message that brings an event, and has neither WUs nor a route. -/
def routeless : Value :=
  .obj [("wus", .arr []), ("markers", .arr [readmeMarker.set "id" (.str "_sw8c8d9umph")]),
    ("waypoints", .null)]

/--
From the README's database: the broker connects, a phone's message is merged, answered and written,
a broken one is dropped, and a tick publishes an event and its callback writes the file.
-/
def routeRun : List Event :=
  [.connect, .clientMessage {} (.json routeless), .mqttMessage {} (.json .null), .tick {},
    .published {} 0 .success]

/-- The phone is told the route of the README, and that is what the file has in the end. -/
theorem route_fixed_readme : ∃ s, Lts.Run Step (boot (.json readmeDatabase)) routeRun s
    ∧ s.sent.length = 1 ∧ s.publishes.map Publish.delivery = [some .success]
    ∧ (∃ v, s.database = some (.json v) ∧ SameRoute readmeDatabase v
      ∧ (markersOf v).map isReported = [true, false])
    ∧ ∀ reply ∈ s.sent, ∃ v, reply = .json v ∧ SameRoute readmeDatabase v := by
  have hw : RoundTrips readmeDatabase "wus" := rfl
  have hp : RoundTrips readmeDatabase "waypoints" := rfl
  have hrun : Lts.Run Step (boot (.json readmeDatabase)) routeRun
      (routeRun.foldl after (boot (.json readmeDatabase))) :=
    .cons ⟨trivial, rfl⟩ (.cons ⟨trivial, rfl⟩ (.cons ⟨trivial, rfl⟩ (.cons ⟨trivial, rfl⟩
      (.single ⟨⟨_, rfl, rfl⟩, rfl⟩))))
  obtain ⟨hfile, hreplies⟩ := route_fixed rfl hw hp hrun
  obtain ⟨v, hv, hroute⟩ := hfile
  refine ⟨_, hrun, rfl, rfl, ⟨v, hv, hroute, ?_⟩, hreplies⟩
  cases hv
  rfl

end EssApp.WebSocketServer
