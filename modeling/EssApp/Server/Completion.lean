import EssApp.Server.WebSocketServer

/-!
# When a handler completes

Payloads and the content of the file are any texts, and a handler that meets one it
cannot read throws. `handlers_complete_iff` says which inputs a handler survives: it
gives the shape both databases must have, handler by handler.
-/

namespace EssApp.WebSocketServer

open Js

/-- `m.reported`, as a condition. -/
def isReported (m : Value) : Bool := (m.prop "reported").truthy

/-- No element up to the first unreported one is `null`. -/
def Scannable : List Value → Prop
  | [] => True
  | m :: ms => m.isNullish = false ∧ (isReported m = true → Scannable ms)

theorem firstUnreported_cons {k : String} {m : Value} {es : List (String × Value)}
    (hm : m.isNullish = false) :
    firstUnreported ((k, m) :: es) =
      if isReported m then firstUnreported es else .ok (some (k, m)) := by
  rw [firstUnreported, Value.get_eq hm]
  show (if !(isReported m) then pure _ else _ : Except Exn (Option (String × Value))) = _
  cases isReported m <;> rfl

theorem firstUnreported_ok_iff {es : List (String × Value)} :
    (∃ r, firstUnreported es = .ok r) ↔ Scannable (es.map Prod.snd) := by
  induction es with
  | nil => exact ⟨fun _ => trivial, fun _ => ⟨none, rfl⟩⟩
  | cons e es ih =>
      obtain ⟨k, m⟩ := e
      rw [List.map_cons, Scannable]
      by_cases hm : m.isNullish = true
      · constructor
        · rintro ⟨r, h⟩
          rw [firstUnreported, Value.get, if_pos hm] at h
          cases h
        · intro h
          exact absurd (hm.symm.trans h.1) (by simp)
      · have hm' : m.isNullish = false := by simpa using hm
        rw [firstUnreported_cons hm']
        cases hr : isReported m with
        -- the search ends at an unreported element, whatever follows
        | false => exact ⟨fun _ => ⟨hm', fun h => absurd h (by simp)⟩, fun _ => ⟨_, rfl⟩⟩
        | true => exact ih.trans ⟨fun h => ⟨hm', fun _ => h⟩, fun h => h.2 rfl⟩

/-! ## Which inputs the handlers survive -/

theorem loadDatabase_eq (s : Server) :
    loadDatabase {} s = match s.database with
      | some (.json v) => if v.truthy then v else .undefined
      | _ => .undefined := by
  unfold loadDatabase readFileSync
  cases s.database with
  | none => rfl
  | some text => cases text <;> rfl

theorem mergeable_truthy {db : Value} (h : Mergeable db) : db.truthy = true := by
  have hm := h.markers
  cases db with
  | obj ps => rfl
  | arr es => rfl
  | str s =>
      by_cases hs : s = ""
      · subst hs; exact absurd hm (by decide)
      · simp [Value.truthy, hs]
  | _ => exact absurd hm (by simp [Value.prop, Value.own, Value.isNullish])

theorem mergeable_loadDatabase_iff {s : Server} :
    Mergeable (loadDatabase {} s)
      ↔ ∃ local_db, s.database = some (.json local_db) ∧ Mergeable local_db := by
  rw [loadDatabase_eq]
  constructor
  · intro h
    split at h
    · rename_i v hv
      split at h
      · exact ⟨v, hv, h⟩
      · exact absurd h.not_nullish (by decide)
    · exact absurd h.not_nullish (by decide)
  · rintro ⟨v, hv, h⟩
    rw [hv]
    simp only [mergeable_truthy h, if_true]
    exact h

theorem mergedFor_ok_iff {io : Outcomes} {s : Server} {data : Text} :
    (∃ db, mergedFor io s data = .ok db)
      ↔ (∃ remote_db, data = .json remote_db ∧ Mergeable remote_db)
        ∧ Mergeable (loadDatabase io s) := by
  cases data with
  | malformed => exact ⟨fun ⟨_, h⟩ => (by cases h), fun ⟨⟨_, h, _⟩, _⟩ => (by cases h)⟩
  | json v =>
      refine mergeDatabases_ok_iff.trans ⟨fun h => ⟨⟨v, rfl, h.2⟩, h.1⟩, ?_⟩
      rintro ⟨⟨_, hv, hm⟩, hl⟩
      cases hv
      exact ⟨hl, hm⟩

theorem mergedForMqtt_ok_iff {io : Outcomes} {s : Server} {message : Text} :
    (∃ db, mergedForMqtt io s message = .ok db)
      ↔ (∃ remote_db, message = .json remote_db ∧ Mergeable remote_db
          ∧ remote_db.printable = true)
        ∧ Mergeable (loadDatabase io s) := by
  cases message with
  | malformed => exact ⟨fun ⟨_, h⟩ => (by cases h), fun ⟨⟨_, h, _⟩, _⟩ => (by cases h)⟩
  | json v =>
      constructor
      · rintro ⟨db, h⟩
        obtain ⟨_, hv, h⟩ := bind_ok_iff.mp h
        cases hv
        obtain ⟨t, ht, h⟩ := bind_ok_iff.mp h
        have hm := mergeDatabases_ok_iff.mp ⟨db, h⟩
        refine ⟨⟨v, rfl, hm.2, ?_⟩, hm.1⟩
        rw [Value.printable, Value.toText_ok_iff.mp ht]; rfl
      · rintro ⟨⟨_, hv, hm, hp⟩, hl⟩
        cases hv
        obtain ⟨t, ht⟩ := Option.isSome_iff_exists.mp hp
        obtain ⟨db, hdb⟩ := mergeDatabases_ok_iff.mpr ⟨hl, hm⟩
        exact ⟨db, bind_ok_iff.mpr ⟨v, rfl, bind_ok_iff.mpr ⟨t, Value.toText_ok_iff.mpr ht, hdb⟩⟩⟩

theorem completes_clientMessage {s : Server} {data : Text} :
    Completes s (.clientMessage {} data) ↔ ∃ db, mergedFor {} s data = .ok db := by
  rw [Completes, handle, run_clientMessage]
  cases mergedFor {} s data with
  | error e =>
      constructor
      · intro h; cases h
      · rintro ⟨_, h⟩; cases h
  | ok db => exact ⟨fun _ => ⟨db, rfl⟩, fun _ => rfl⟩

theorem completes_mqttMessage {s : Server} {message : Text} :
    Completes s (.mqttMessage {} message) ↔ ∃ db, mergedForMqtt {} s message = .ok db := by
  rw [Completes, handle, run_mqttMessage]
  cases mergedForMqtt {} s message with
  | error e =>
      constructor
      · intro h; cases h
      · rintro ⟨_, h⟩; cases h
  | ok db => exact ⟨fun _ => ⟨db, rfl⟩, fun _ => rfl⟩

theorem pendingMarker_ok_iff {s : Server} :
    (∃ r, pendingMarker {} s = .ok r)
      ↔ ∃ local_db, s.database = some (.json local_db) ∧ local_db.truthy = true
          ∧ Scannable (markersOf local_db) := by
  have hread : ∀ v : Value, v.isNullish = false →
      ((∃ r, (do let ms ← v.get "markers"; firstUnreported ms.entries) = .ok r)
        ↔ Scannable (markersOf v)) := by
    intro v hv
    rw [Value.get_eq hv]
    exact firstUnreported_ok_iff
  -- a file that does not load leaves `undefined`, which has no properties
  have hundef : ¬ ∃ r, (do
      let ms ← Value.undefined.get "markers"
      firstUnreported ms.entries) = .ok r := fun ⟨_, h⟩ => (by cases h)
  rw [pendingMarker, loadDatabase_eq]
  split
  · rename_i v hv
    by_cases ht : v.truthy = true
    · rw [if_pos ht, hread v (Value.not_nullish_of_truthy ht)]
      refine ⟨fun h => ⟨v, hv, ht, h⟩, ?_⟩
      rintro ⟨w, hw, _, h⟩
      rw [hv] at hw
      cases hw
      exact h
    · rw [if_neg ht]
      refine ⟨fun h => absurd h hundef, ?_⟩
      rintro ⟨w, hw, h, _⟩
      rw [hv] at hw
      cases hw
      exact absurd h ht
  · rename_i hv
    refine ⟨fun h => absurd h hundef, ?_⟩
    rintro ⟨w, hw, _, _⟩
    exact absurd hw (hv w)

theorem completes_tick {s : Server} :
    Completes s (.tick {}) ↔ s.txEnabled = false ∨ ∃ r, pendingMarker {} s = .ok r := by
  rw [Completes, handle, run_tick]
  cases s.txEnabled with
  | false => exact ⟨fun _ => Or.inl rfl, fun _ => rfl⟩
  | true =>
      rw [if_pos rfl]
      cases pendingMarker {} s with
      | error e =>
          refine ⟨fun h => (by cases h), fun h => ?_⟩
          rcases h with h | ⟨_, h⟩ <;> cases h
      | ok r => cases r <;> exact ⟨fun _ => Or.inr ⟨_, rfl⟩, fun _ => rfl⟩

/--
**Which inputs the server survives.** A message handler completes exactly when the
payload and the file are both JSON of a database the merge can read; the broker's
payload must also print. A tick completes exactly when it is not enabled, or the
file is JSON of something truthy with no `null` up to its first unreported marker.
-/
theorem handlers_complete_iff (s : Server) (data message : Text) :
    (Completes s (.clientMessage {} data)
        ↔ (∃ remote_db, data = .json remote_db ∧ Mergeable remote_db)
          ∧ ∃ local_db, s.database = some (.json local_db) ∧ Mergeable local_db)
      ∧ (Completes s (.mqttMessage {} message)
        ↔ (∃ remote_db, message = .json remote_db ∧ Mergeable remote_db
            ∧ remote_db.printable = true)
          ∧ ∃ local_db, s.database = some (.json local_db) ∧ Mergeable local_db)
      ∧ (Completes s (.tick {})
        ↔ s.txEnabled = false ∨ ∃ local_db, s.database = some (.json local_db)
            ∧ local_db.truthy = true ∧ Scannable (markersOf local_db)) := by
  refine ⟨?_, ?_, ?_⟩
  · rw [completes_clientMessage, mergedFor_ok_iff, mergeable_loadDatabase_iff]
  · rw [completes_mqttMessage, mergedForMqtt_ok_iff, mergeable_loadDatabase_iff]
  · rw [completes_tick, pendingMarker_ok_iff]

/-- A payload that is not JSON throws out of the handler, whatever the file holds. -/
theorem bad_input_throws :
    ¬ ∀ (s : Server) (data message : Text), Completes s (.clientMessage {} data)
      ∧ Completes s (.mqttMessage {} message) ∧ Completes s (.tick {}) := by
  intro h
  have hc := (h { database := some (.json (.obj [("wus", .arr []), ("markers", .arr []),
    ("waypoints", .arr [])])) } .malformed .malformed).1
  cases hc

end EssApp.WebSocketServer
