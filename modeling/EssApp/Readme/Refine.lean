import EssApp.Lib.Places
import EssApp.Readme.Server
import EssApp.Server.Stored

/-!
# The README-format server is the real one

`MarkerRep v m` says that the JSON object `v` is the event `m`: its properties read
what the fields hold, in any order and with any others beside them. On values that
represent README-format data the handlers of `WebSocketServer` do not throw, and
what they leave represents what the handlers of `Readme` leave (`step_refines`,
`run_refines`). So every theorem about runs of the README-format server is one
about runs of the server on such data.

What makes it go through is the form of the ids. An id `generateID` returns is no
array index, so new markers go to the end of the lookup object; and it is no name
an object answers for on its own, so the lookup finds markers and nothing else.
-/

namespace EssApp.Readme

open Js
open WebSocketServer (Outcomes Delivery markerKey markerKey_ok_iff markersOf_of_own
  own_setReported own_written isReported firstUnreported_cons)

/-! ## Ids as property names -/

theorem EventId.toList_eq (id : EventId) : ∃ ds, id.text.toList = '_' :: ds := by
  obtain ⟨hhead, _⟩ := id.form
  cases hl : id.text.toList with
  | nil => rw [hl] at hhead; cases hhead
  | cons c ds =>
      rw [hl] at hhead
      cases hhead
      exact ⟨ds, rfl⟩

theorem EventId.arrayIndex? (id : EventId) : Js.arrayIndex? id.text = none := by
  obtain ⟨ds, hds⟩ := id.toList_eq
  unfold Js.arrayIndex?
  rw [hds]
  rfl

/-- No object answers for an id by itself. -/
theorem EventId.not_builtin (id : EventId) : id.text ∉ objectPrototype := by
  intro h
  have hform : ∀ s ∈ objectPrototype,
      ¬ (s.toList.head? = some '_' ∧ s.toList.tail.all isBase36 = true) := by decide
  exact hform _ h id.form

theorem EventId.ne_proto (id : EventId) : id.text ≠ "__proto__" :=
  fun h => id.not_builtin (by rw [h]; decide)

theorem EventId.text_inj {id id' : EventId} : id.text = id'.text ↔ id = id' := by
  refine ⟨fun h => ?_, fun h => by rw [h]⟩
  cases id
  cases id'
  cases h
  rfl

/-! ## Values that represent data -/

def LatLngRep (v : Value) (p : LatLng) : Prop :=
  v.own "lat" = some (.num p.lat.1) ∧ v.own "lng" = some (.num p.lng.1)

/-- `v` is the event `m`. -/
structure MarkerRep (v : Value) (m : Marker) : Prop where
  latlng : ∃ p, v.own "latlng" = some p ∧ LatLngRep p m.latlng
  type : v.own "type" = some (.str m.type)
  validated : v.own "validated" = some (.bool m.validated)
  reported : v.own "reported" = some (.bool m.reported)
  id : v.own "id" = some (.str m.id.text)
  timestamp : v.own "timestamp" = some (.num m.timestamp.1)

structure WuRep (v : Value) (w : Wu) : Prop where
  latlng : ∃ p, v.own "latlng" = some p ∧ LatLngRep p w.latlng
  id : v.own "id" = some (.str w.id)
  status : v.own "status" = some (.str w.status)

def WaypointsRep (v : Value) : Option (List LatLng) → Prop
  | none => v = .null
  | some ps => ∃ vs, v = .arr vs ∧ List.Forall₂ LatLngRep vs ps

/-- `v` is the database `db`. -/
structure DatabaseRep (v : Value) (db : Database) : Prop where
  wus : ∃ ws, v.own "wus" = some (.arr ws) ∧ List.Forall₂ WuRep ws db.wus
  markers : ∃ ms, v.own "markers" = some (.arr ms) ∧ List.Forall₂ MarkerRep ms db.markers
  waypoints : ∃ w, v.own "waypoints" = some w ∧ WaypointsRep w db.waypoints

theorem LatLngRep.obj {v : Value} {p : LatLng} (h : LatLngRep v p) : ∃ ps, v = .obj ps :=
  Value.obj_of_own h.1 (by decide) (by decide)

theorem MarkerRep.obj {v : Value} {m : Marker} (h : MarkerRep v m) : ∃ ps, v = .obj ps :=
  Value.obj_of_own h.type (by decide) (by decide)

theorem WuRep.obj {v : Value} {w : Wu} (h : WuRep v w) : ∃ ps, v = .obj ps :=
  Value.obj_of_own h.id (by decide) (by decide)

theorem DatabaseRep.obj {v : Value} {db : Database} (h : DatabaseRep v db) : ∃ ps, v = .obj ps := by
  obtain ⟨ws, hws, _⟩ := h.wus
  exact Value.obj_of_own hws (by decide) (by decide)

theorem MarkerRep.key {v : Value} {m : Marker} (h : MarkerRep v m) : markerKey v = .ok m.id.text :=
  WebSocketServer.HasId.markerKey h.id

theorem MarkerRep.isReported {v : Value} {m : Marker} (h : MarkerRep v m) :
    isReported v = m.reported := by
  rw [WebSocketServer.isReported, Value.prop, h.reported]
  rfl

/-! ## Representations survive what the server does to values -/

/-- Setting the flag `k` to `true`, seen from another property. -/
theorem own_set_true {v : Value} {ps : List (String × Value)} (hv : v = .obj ps) (k k' : String) :
    (v.set k (.bool true)).own k' = if k' = k then some (.bool true) else v.own k' := by
  rw [hv, Value.own_set_obj]

theorem MarkerRep.validate {v : Value} {m : Marker} (h : MarkerRep v m) :
    MarkerRep (v.set "validated" (.bool true)) m.validate := by
  obtain ⟨ps, hv⟩ := h.obj
  refine ⟨?_, ?_, ?_, ?_, ?_, ?_⟩ <;> rw [own_set_true hv]
  · exact h.latlng
  · exact h.type
  · rfl
  · exact h.reported
  · exact h.id
  · exact h.timestamp

theorem MarkerRep.report {v : Value} {m : Marker} (h : MarkerRep v m) :
    MarkerRep (v.set "reported" (.bool true)) m.report := by
  obtain ⟨ps, hv⟩ := h.obj
  refine ⟨?_, ?_, ?_, ?_, ?_, ?_⟩ <;> rw [own_set_true hv]
  · exact h.latlng
  · exact h.type
  · exact h.validated
  · rfl
  · exact h.id
  · exact h.timestamp

/-- A property of an object after a round trip. -/
theorem own_roundTrip {ps : List (String × Value)} {x y : Value} {k : String}
    (h : (Value.obj ps).own k = some x) (hx : x.toJSON = some y) :
    (Value.obj ps).elemJSON.own k = some y := by
  rw [Value.own_elemJSON_obj, h, Option.bind_some, hx]

theorem toJSON_num (n : JsonNumber) : (Value.num n.1).toJSON = some (.num n.1) := by
  rw [Value.toJSON, n.2]
  rfl

theorem LatLngRep.roundTrip {v : Value} {p : LatLng} (h : LatLngRep v p) :
    v.toJSON = some v.elemJSON ∧ LatLngRep v.elemJSON p := by
  obtain ⟨ps, rfl⟩ := h.obj
  exact ⟨rfl, own_roundTrip h.1 (toJSON_num _), own_roundTrip h.2 (toJSON_num _)⟩

theorem MarkerRep.roundTrip {v : Value} {m : Marker} (h : MarkerRep v m) :
    MarkerRep v.elemJSON m := by
  obtain ⟨ps, rfl⟩ := h.obj
  obtain ⟨p, hp, hpm⟩ := h.latlng
  exact {
    latlng := ⟨_, own_roundTrip hp hpm.roundTrip.1, hpm.roundTrip.2⟩
    type := own_roundTrip h.type rfl
    validated := own_roundTrip h.validated rfl
    reported := own_roundTrip h.reported rfl
    id := own_roundTrip h.id rfl
    timestamp := own_roundTrip h.timestamp (toJSON_num _) }

theorem WuRep.roundTrip {v : Value} {w : Wu} (h : WuRep v w) : WuRep v.elemJSON w := by
  obtain ⟨ps, rfl⟩ := h.obj
  obtain ⟨p, hp, hpw⟩ := h.latlng
  exact {
    latlng := ⟨_, own_roundTrip hp hpw.roundTrip.1, hpw.roundTrip.2⟩
    id := own_roundTrip h.id rfl
    status := own_roundTrip h.status rfl }

/-- A list of representations after a round trip. -/
theorem forall₂_roundTrip {α : Type} {R : Value → α → Prop}
    (hR : ∀ {v a}, R v a → R v.elemJSON a) {vs : List Value} {xs : List α}
    (h : List.Forall₂ R vs xs) : List.Forall₂ R (vs.map Value.elemJSON) xs :=
  List.forall₂_map_left_iff.mpr (h.imp fun _ _ hr => hR hr)

theorem toJSON_arr (es : List Value) :
    (Value.arr es).toJSON = some (.arr (es.map Value.elemJSON)) := by
  rw [Value.toJSON, Value.elemsJSON_eq]

theorem WaypointsRep.roundTrip {v : Value} {ps : Option (List LatLng)} (h : WaypointsRep v ps) :
    v.toJSON = some v.elemJSON ∧ WaypointsRep v.elemJSON ps := by
  cases ps with
  | none =>
      cases h
      exact ⟨rfl, rfl⟩
  | some ps =>
      obtain ⟨vs, rfl, hvs⟩ := h
      refine ⟨rfl, vs.map Value.elemJSON, Value.elemJSON_arr vs, ?_⟩
      exact forall₂_roundTrip (fun h => h.roundTrip.2) hvs

/-- **A database in the file represents what was written.** -/
theorem DatabaseRep.roundTrip {v : Value} {db : Database} (h : DatabaseRep v db) :
    DatabaseRep v.elemJSON db := by
  obtain ⟨ps, rfl⟩ := h.obj
  obtain ⟨ws, hws, hwall⟩ := h.wus
  obtain ⟨ms, hms, hmall⟩ := h.markers
  obtain ⟨w, hw, hrep⟩ := h.waypoints
  exact {
    wus := ⟨_, own_roundTrip hws (toJSON_arr ws), forall₂_roundTrip (fun h => h.roundTrip) hwall⟩
    markers := ⟨_, own_roundTrip hms (toJSON_arr ms),
      forall₂_roundTrip (fun h => h.roundTrip) hmall⟩
    waypoints := ⟨_, own_roundTrip hw hrep.roundTrip.1, hrep.roundTrip.2⟩ }

/-! ## The merge -/

/-- A property of the lookup object is a binding of the table. -/
structure BindingRep (p : String × Value) (e : EventId × Marker) : Prop where
  key : p.1 = e.1.text
  value : MarkerRep p.2 e.2

/-- The lookup object's own properties are the table's bindings. -/
def TableRep (ps : List (String × Value)) (t : List (EventId × Marker)) : Prop :=
  List.Forall₂ BindingRep ps t

/-- The lookup object is the table: its prototype is its own, its properties the bindings. -/
structure ObjectRep (o : PlainObject) (t : List (EventId × Marker)) : Prop where
  tame : o.proto = none
  own : TableRep o.own t

theorem objectRep_empty : ObjectRep {} [] := ⟨rfl, .nil⟩

/-- Both have a binding or neither has. -/
theorem TableRep.get {ps : List (String × Value)} {t : List (EventId × Marker)}
    (h : TableRep ps t) (id : EventId) :
    (Table.get ps id.text = none ∧ Table.get t id = none)
      ∨ ∃ v m, Table.get ps id.text = some v ∧ Table.get t id = some m ∧ MarkerRep v m := by
  induction h with
  | nil => exact Or.inl ⟨rfl, rfl⟩
  | @cons p e ps t hpe _ ih =>
      obtain ⟨k, v⟩ := p
      obtain ⟨k', m⟩ := e
      obtain ⟨hk, hrep⟩ := hpe
      dsimp only at hk hrep
      subst hk
      rw [Table.get_cons, Table.get_cons]
      by_cases hid : k' = id
      · rw [if_pos hid, if_pos (by rw [hid])]
        exact Or.inr ⟨v, m, rfl, rfl, hrep⟩
      · rw [if_neg hid, if_neg (fun h => hid (EventId.text_inj.mp h))]
        exact ih

theorem TableRep.replace {ps : List (String × Value)} {t : List (EventId × Marker)}
    (h : TableRep ps t) {id : EventId} {v : Value} {m : Marker} (hv : MarkerRep v m) :
    TableRep (Table.replace ps id.text v) (Table.replace t id m) := by
  induction h with
  | nil => exact .nil
  | @cons p e ps t hpe _ ih =>
      refine .cons ?_ ih
      dsimp only
      by_cases hid : e.1 = id
      · rw [if_pos (by rw [hpe.key, hid]), if_pos hid]
        exact ⟨rfl, hv⟩
      · rw [if_neg (fun h => hid (EventId.text_inj.mp (hpe.key.symm.trans h))), if_neg hid]
        exact hpe

theorem TableRep.set {ps : List (String × Value)} {t : List (EventId × Marker)}
    (h : TableRep ps t) {id : EventId} {v : Value} {m : Marker} (hv : MarkerRep v m) :
    TableRep (putProp ps id.text v) (Table.set t id m) := by
  rw [putProp_eq_set id.arrayIndex?, Table.set, Table.set]
  have hsome : (Table.get ps id.text).isSome = (Table.get t id).isSome := by
    rcases h.get id with ⟨h1, h2⟩ | ⟨v, m, h1, h2, _⟩ <;> rw [h1, h2] <;> rfl
  rw [hsome]
  split
  · exact h.replace hv
  · -- an id is no array index, so a new binding goes to the end on both sides
    exact List.rel_append h (.cons ⟨rfl, hv⟩ .nil)

theorem ObjectRep.assign {o : PlainObject} {t : List (EventId × Marker)} (h : ObjectRep o t)
    {v : Value} {m : Marker} (hv : MarkerRep v m) :
    ObjectRep (o.assign m.id.text v) (Table.set t m.id m) := by
  rw [PlainObject.assign_of_ne m.id.ne_proto]
  exact ⟨h.tame, h.own.set hv⟩

/-- **The lookup answers for an id exactly if the table binds it.** -/
theorem ObjectRep.truthy {o : PlainObject} {t : List (EventId × Marker)} (h : ObjectRep o t)
    (id : EventId) : (o.get id.text).truthy = (Table.get t id).isSome := by
  rcases h.own.get id with ⟨h1, h2⟩ | ⟨v, m, h1, h2, hrep⟩
  · rw [PlainObject.Tame.get_of_not_own h.tame h1, if_neg id.not_builtin, h2]
    rfl
  · obtain ⟨ps, rfl⟩ := hrep.obj
    rw [PlainObject.get_of_own h1, h2]
    rfl

theorem addLocal_rep {o : PlainObject} {t : List (EventId × Marker)} {v : Value} {m : Marker}
    (h : ObjectRep o t) (hv : MarkerRep v m) :
    ∃ o', WebSocketServer.addLocal o v = .ok o' ∧ ObjectRep o' (addLocal t m) :=
  ⟨_, bind_ok_iff.mpr ⟨_, hv.key, rfl⟩, h.assign hv⟩

theorem addRemote_rep {o : PlainObject} {t : List (EventId × Marker)} {v : Value} {m : Marker}
    (h : ObjectRep o t) (hv : MarkerRep v m) :
    ∃ o', WebSocketServer.addRemote o v = .ok o' ∧ ObjectRep o' (addRemote t m) := by
  refine ⟨_, WebSocketServer.addRemote_ok hv.key, ?_⟩
  rw [h.truthy, addRemote]
  split
  · exact h
  · exact h.assign hv.validate

/-- A loop whose body represents a function represents the fold. -/
theorem foldlM_rep {α σ τ : Type} {R : Value → α → Prop} {S : σ → τ → Prop}
    {f : σ → Value → Except Exn σ} {g : τ → α → τ}
    (hstep : ∀ o t v a, S o t → R v a → ∃ o', f o v = .ok o' ∧ S o' (g t a))
    {vs : List Value} {xs : List α} (h : List.Forall₂ R vs xs) {o : σ} {t : τ} (ho : S o t) :
    ∃ o', vs.foldlM f o = .ok o' ∧ S o' (xs.foldl g t) := by
  induction h generalizing o t with
  | nil => exact ⟨o, rfl, ho⟩
  | @cons v a vs xs hva _ ih =>
      obtain ⟨o₁, h₁, ho₁⟩ := hstep o t v a ho hva
      obtain ⟨o₂, h₂, ho₂⟩ := ih ho₁
      refine ⟨o₂, ?_, ho₂⟩
      rw [List.foldlM_cons, h₁]
      exact h₂

/-- **The merge of representations** gets through and represents the merge. -/
theorem mergeDatabases_rep {local_db remote_db : Value} {l r : Database}
    (hl : DatabaseRep local_db l) (hr : DatabaseRep remote_db r) :
    ∃ db, WebSocketServer.mergeDatabases local_db remote_db = .ok db
      ∧ DatabaseRep db (mergeDatabases l r) := by
  obtain ⟨lps, rfl⟩ := hl.obj
  obtain ⟨rps, rfl⟩ := hr.obj
  obtain ⟨ws, hws, hwall⟩ := hl.wus
  obtain ⟨lms, hlms, hlall⟩ := hl.markers
  obtain ⟨rms, hrms, hrall⟩ := hr.markers
  obtain ⟨wp, hwp, hwprep⟩ := hl.waypoints
  obtain ⟨o₁, ho₁, hrep₁⟩ := foldlM_rep (R := MarkerRep) (S := ObjectRep)
    (fun _ _ _ _ => addLocal_rep) hlall objectRep_empty
  obtain ⟨o₂, ho₂, hrep₂⟩ := foldlM_rep (R := MarkerRep) (S := ObjectRep)
    (fun _ _ _ _ => addRemote_rep) hrall hrep₁
  have hprint : ∀ ms : List Value,
      WebSocketServer.printLength (.arr ms) = .ok (toString ms.length) := fun _ => rfl
  refine ⟨.obj [("wus", .arr ws), ("markers", .arr o₂.values), ("waypoints", wp)], ?_, ?_⟩
  · refine bind_ok_iff.mpr ⟨_, Value.get_of_own hrms, bind_ok_iff.mpr ⟨_, hprint rms,
      bind_ok_iff.mpr ⟨_, Value.get_of_own hlms, bind_ok_iff.mpr ⟨_, hprint lms, ?_⟩⟩⟩⟩
    rw [Value.values_arr, Value.values_arr]
    exact bind_ok_iff.mpr ⟨o₁, ho₁, bind_ok_iff.mpr ⟨o₂, ho₂, bind_ok_iff.mpr
      ⟨_, Value.get_of_own hws, bind_ok_iff.mpr ⟨_, Value.get_of_own hwp, rfl⟩⟩⟩⟩
  · refine ⟨⟨ws, rfl, hwall⟩, ⟨o₂.values, rfl, ?_⟩, ⟨wp, rfl, hwprep⟩⟩
    rw [PlainObject.Tame.values_eq hrep₂.tame]
    exact List.rel_map (fun _ _ h => h.value) hrep₂.own

/-! ## The timer -/

/-- The timer's search on an array, whatever index its enumeration starts from. -/
theorem firstUnreported_rep {vs : List Value} {ms : List Marker}
    (h : List.Forall₂ MarkerRep vs ms) (n : Nat) :
    (firstUnreported ms = none
        ∧ WebSocketServer.firstUnreported (vs.mapIdx fun i v => (toString (i + n), v)) = .ok none)
      ∨ ∃ k v, firstUnreported ms = some k ∧ vs[k]? = some v
        ∧ WebSocketServer.firstUnreported (vs.mapIdx fun i v => (toString (i + n), v))
          = .ok (some (toString (k + n), v)) := by
  induction h generalizing n with
  | nil => exact Or.inl ⟨rfl, rfl⟩
  | @cons v m vs ms hvm _ ih =>
      have hnull : v.isNullish = false := by
        obtain ⟨ps, rfl⟩ := hvm.obj
        rfl
      rw [List.mapIdx_cons, firstUnreported_cons hnull, hvm.isReported, firstUnreported,
        List.findIdx?_cons]
      cases hr : m.reported with
      | false => exact Or.inr ⟨0, v, rfl, rfl, rfl⟩
      | true =>
          -- the enumeration of the tail starts one index later
          have hshift : (vs.mapIdx fun i v => (toString (i + 1 + n), v))
              = vs.mapIdx fun i v => (toString (i + (n + 1)), v) := by
            congr 1
            funext i v
            rw [Nat.add_assoc, Nat.add_comm 1 n]
          rw [if_pos rfl, if_neg (by simp), hshift]
          rcases ih (n + 1) with ⟨h1, h2⟩ | ⟨k, v', h1, h2, h3⟩
          · exact Or.inl ⟨by rw [firstUnreported] at h1; rw [h1]; rfl, h2⟩
          · refine Or.inr ⟨k + 1, v', ?_, h2, ?_⟩
            · rw [firstUnreported] at h1
              rw [h1]
              rfl
            · rw [h3, Nat.add_assoc, Nat.add_comm 1 n]

/-- Setting a flag in a database. -/
theorem setReported_rep {v : Value} {db : Database} (h : DatabaseRep v db) (k : Nat) :
    DatabaseRep (WebSocketServer.setReported v (toString k)) (setReported db k) := by
  obtain ⟨ps, hobj⟩ := h.obj
  -- only the list of markers is touched
  have hother : ∀ k', k' ≠ "markers" →
      (WebSocketServer.setReported v (toString k)).own k' = v.own k' := by
    intro k' hk'
    subst hobj
    rw [WebSocketServer.setReported, Value.own_modify_obj, if_neg hk']
  refine ⟨?_, ?_, ?_⟩
  · rw [hother _ (by decide)]
    exact h.wus
  · obtain ⟨ms, hms, hall⟩ := h.markers
    exact ⟨_, own_setReported hms k, Places.forall₂_modify (fun _ _ h => h.report) hall k⟩
  · rw [hother _ (by decide)]
    exact h.waypoints

/-! ## The steps -/

/-- A publish, and what it was started with. -/
structure PublishRep (p : WebSocketServer.Publish) (q : Publish) : Prop where
  local_db : DatabaseRep p.local_db q.local_db
  k : p.k = toString q.k
  /-- What was handed to the broker is the marker at `k`. -/
  payload : ∃ v m, p.payload = .json v ∧ q.local_db.markers[q.k]? = some m ∧ MarkerRep v m
  delivery : p.delivery = q.delivery

structure ServerRep (s : WebSocketServer.Server) (u : Server) : Prop where
  database : ∃ v, s.database = some (.json v) ∧ DatabaseRep v u.database
  txEnabled : s.txEnabled = u.txEnabled
  publishes : List.Forall₂ PublishRep s.publishes u.publishes

/-- Events on README-format data, every operation working; the broker's messages print. -/
inductive EventRep : WebSocketServer.Event → Event → Prop where
  | connect : EventRep .connect .connect
  | client {v : Value} {db : Database} : DatabaseRep v db →
      EventRep (.clientMessage {} (.json v)) (.clientMessage db)
  | mqtt {v : Value} {db : Database} : DatabaseRep v db → v.printable = true →
      EventRep (.mqttMessage {} (.json v)) (.mqttMessage db)
  | tick : EventRep (.tick {}) .tick
  | published {i : Nat} {d : Delivery} : EventRep (.published {} i d) (.published i d)

theorem serverRep_boot {v : Value} {db : Database} (h : DatabaseRep v db) :
    ServerRep (WebSocketServer.boot (.json v)) (boot db) := ⟨⟨v, rfl, h⟩, rfl, .nil⟩

/-- The server loads what represents its database. -/
theorem ServerRep.loaded {s : WebSocketServer.Server} {u : Server} (h : ServerRep s u) :
    DatabaseRep (WebSocketServer.loadDatabase {} s) u.database := by
  obtain ⟨v, hv, hrep⟩ := h.database
  obtain ⟨ps, rfl⟩ := hrep.obj
  rw [WebSocketServer.loadDatabase_eq, hv]
  exact hrep

/-- What is written represents what was to be written. -/
theorem stringify_rep {db : Value} {d : Database} (h : DatabaseRep db d) :
    ∃ v, some (JSON.stringify db) = some (.json v) ∧ DatabaseRep v d := ⟨_, rfl, h.roundTrip⟩

/-- **A client's message**: the reply and the file represent the merge. -/
theorem clientMessage_rep {s : WebSocketServer.Server} {u : Server} {v : Value} {db : Database}
    (h : ServerRep s u) (hv : DatabaseRep v db) :
    ServerRep (WebSocketServer.after s (.clientMessage {} (.json v)))
        (handle u (.clientMessage db))
      ∧ ∃ reply, (WebSocketServer.after s (.clientMessage {} (.json v))).sent
          = s.sent ++ [.json reply]
        ∧ DatabaseRep reply (onClientMessage u db).1 := by
  obtain ⟨merged, hm, hrep⟩ := mergeDatabases_rep h.loaded hv
  have hmerged : WebSocketServer.mergedFor {} s (.json v) = .ok merged := hm
  have hafter : WebSocketServer.after s (.clientMessage {} (.json v))
      = { s with sent := s.sent ++ [JSON.stringify merged],
                 database := some (JSON.stringify merged) } := by
    simp only [WebSocketServer.after, WebSocketServer.handle, WebSocketServer.run_clientMessage,
      hmerged]
    rfl
  rw [hafter]
  exact ⟨⟨stringify_rep hrep, h.txEnabled, h.publishes⟩, _, rfl, hrep.roundTrip⟩

theorem mqttMessage_rep {s : WebSocketServer.Server} {u : Server} {v : Value} {db : Database}
    (h : ServerRep s u) (hv : DatabaseRep v db) (hp : v.printable = true) :
    ServerRep (WebSocketServer.after s (.mqttMessage {} (.json v)))
      (handle u (.mqttMessage db)) := by
  obtain ⟨merged, hm, hrep⟩ := mergeDatabases_rep h.loaded hv
  obtain ⟨t, ht⟩ := Option.isSome_iff_exists.mp hp
  have hmerged : WebSocketServer.mergedForMqtt {} s (.json v) = .ok merged :=
    bind_ok_iff.mpr ⟨v, rfl, bind_ok_iff.mpr ⟨t, Value.toText_ok_iff.mpr ht, hm⟩⟩
  have hafter : WebSocketServer.after s (.mqttMessage {} (.json v))
      = { s with database := some (JSON.stringify merged) } := by
    simp only [WebSocketServer.after, WebSocketServer.handle, WebSocketServer.run_mqttMessage,
      hmerged]
    rfl
  rw [hafter]
  exact ⟨stringify_rep hrep, h.txEnabled, h.publishes⟩

/-- What a tick finds, on both sides. -/
theorem pendingMarker_rep {s : WebSocketServer.Server} {u : Server} (h : ServerRep s u) :
    (firstUnreported u.database.markers = none
        ∧ WebSocketServer.pendingMarker {} s = .ok none)
      ∨ ∃ k v m, firstUnreported u.database.markers = some k
        ∧ u.database.markers[k]? = some m ∧ MarkerRep v m
        ∧ WebSocketServer.pendingMarker {} s = .ok (some (toString k, v)) := by
  have hl := h.loaded
  obtain ⟨ps, hobj⟩ := hl.obj
  obtain ⟨vs, hvs, hall⟩ := hl.markers
  have hpending : WebSocketServer.pendingMarker {} s
      = WebSocketServer.firstUnreported (vs.mapIdx fun i v => (toString (i + 0), v)) := by
    rw [hobj] at hvs
    rw [WebSocketServer.pendingMarker, hobj, Value.get_of_own hvs]
    rfl
  rw [hpending]
  rcases firstUnreported_rep hall 0 with h' | ⟨k, v, hk, hkv, hf⟩
  · exact Or.inl h'
  · rcases Places.forall₂_getElem? hall k with ⟨hnone, _⟩ | ⟨v', m, hv', hm, hrep⟩
    · rw [hkv] at hnone
      cases hnone
    · rw [hkv] at hv'
      cases hv'
      exact Or.inr ⟨k, v, m, hk, hm, hrep, hf⟩

theorem tick_rep {s : WebSocketServer.Server} {u : Server} (h : ServerRep s u) :
    ServerRep (WebSocketServer.after s (.tick {})) (handle u .tick) := by
  have htx := h.txEnabled
  simp only [WebSocketServer.after, WebSocketServer.handle, WebSocketServer.run_tick, handle,
    onTimer, htx]
  by_cases ht : u.txEnabled = true
  · rw [if_pos ht, if_pos ht]
    rcases pendingMarker_rep h with ⟨hf, hp⟩ | ⟨k, v, m, hf, hkm, hrep, hp⟩
    · rw [hf, hp]
      exact h
    · rw [hf, hp]
      dsimp only
      refine ⟨h.database, rfl, List.rel_append h.publishes (.cons ?_ .nil)⟩
      refine ⟨setReported_rep h.loaded k, rfl, ⟨_, m.report, rfl, ?_, hrep.report.roundTrip⟩, rfl⟩
      rw [getElem?_setReported, hkm, Option.map_some, if_pos rfl]
  · rw [if_neg ht, if_neg ht]
    exact h

/-- **One step of the server on README-format data** is one step of the README-format server. -/
theorem step_refines {s t : WebSocketServer.Server} {u : Server} {e : WebSocketServer.Event}
    {f : Event} (h : ServerRep s u) (he : EventRep e f) (hs : WebSocketServer.Step s e t) :
    ∃ u', Step u f u' ∧ ServerRep t u' := by
  obtain ⟨hen, rfl⟩ := hs
  cases he with
  | connect => exact ⟨_, ⟨trivial, rfl⟩, h.database, rfl, h.publishes⟩
  | client hv => exact ⟨_, ⟨trivial, rfl⟩, (clientMessage_rep h hv).1⟩
  | mqtt hv hp => exact ⟨_, ⟨trivial, rfl⟩, mqttMessage_rep h hv hp⟩
  | tick => exact ⟨_, ⟨trivial, rfl⟩, tick_rep h⟩
  | @published i d =>
      obtain ⟨p, hp, hd⟩ := hen
      rcases Places.forall₂_getElem? h.publishes i with ⟨hnone, _⟩ | ⟨p', q, hp', hq, hpq⟩
      · rw [hp] at hnone
        cases hnone
      · rw [hp] at hp'
        cases hp'
        refine ⟨_, ⟨⟨q, hq, hpq.delivery.symm.trans hd⟩, rfl⟩, ?_⟩
        simp only [WebSocketServer.after, WebSocketServer.handle,
          WebSocketServer.run_published hp, handle, onPublished, hq, hpq.k]
        exact ⟨stringify_rep (setReported_rep hpq.local_db q.k), h.txEnabled,
          Places.forall₂_set h.publishes i ⟨hpq.local_db, rfl, hpq.payload, rfl⟩⟩

/-- **Runs of the server on README-format data are runs of the README-format server.** -/
theorem run_refines {v : Value} {db : Database} (h : DatabaseRep v db)
    {es : List WebSocketServer.Event} {fs : List Event} (he : List.Forall₂ EventRep es fs)
    {t : WebSocketServer.Server} (hrun : Lts.Run WebSocketServer.Step
      (WebSocketServer.boot (.json v)) es t) :
    ∃ u, Lts.Run Step (boot db) fs u ∧ ServerRep t u := by
  -- induct on the related labels, from any pair of related states
  have go : ∀ {es : List WebSocketServer.Event} {fs : List Event},
      List.Forall₂ EventRep es fs → ∀ {s t : WebSocketServer.Server} {u : Server},
      ServerRep s u → Lts.Run WebSocketServer.Step s es t →
      ∃ u', Lts.Run Step u fs u' ∧ ServerRep t u' := by
    intro es fs he
    induction he with
    | nil =>
        intro s t u hsu hrun
        cases hrun
        exact ⟨u, .nil, hsu⟩
    | cons hef _ ih =>
        intro s t u hsu hrun
        cases hrun with
        | cons hs hrest =>
            obtain ⟨u₁, h₁, hsu₁⟩ := step_refines hsu hef hs
            obtain ⟨u₂, h₂, hsu₂⟩ := ih hsu₁ hrest
            exact ⟨u₂, .cons h₁ h₂, hsu₂⟩
  exact go he (serverRep_boot h) hrun

end EssApp.Readme
