import EssApp.Server.Route

/-!
# What the file holds, marker by marker

The results about single events need to know more of `database.json` than its
route. A marker goes by the text of its id, whatever JSON the id is: the merge files
`{"id": 5}` and `{"id": "5"}` under one name, and a marker without an id under
`undefined`. Payloads are arbitrary, so it is no matter of a format that a name has one
marker in the file; `Tidy` says that it does, and `FileInv` that the file and every
snapshot are tidy in every reachable state.

Only one thing can spoil that. A number that JSON has no notation for is written as
`null`, so an id such as `1e999` comes back under another name, which may be taken;
`Unambiguous` excludes a message that brings this about.

Only objects are events here. A number or a text in the list has no flag to set, and is
carried along.
-/

namespace EssApp.WebSocketServer

open Js

/-! ## The README's format -/

/-- A position: `{ "lat": …, "lng": … }`. -/
def IsLatLng (v : Value) : Prop :=
  ∃ lat lng : Number, v.own "lat" = some (.num lat) ∧ v.own "lng" = some (.num lng)

/-- An entry of `markers`, as the README shows it. -/
structure IsMarker (m : Value) (id : String) : Prop where
  latlng : ∃ p, m.own "latlng" = some p ∧ IsLatLng p
  type : ∃ t : String, m.own "type" = some (.str t)
  validated : ∃ b : Bool, m.own "validated" = some (.bool b)
  reported : ∃ b : Bool, m.own "reported" = some (.bool b)
  id : m.own "id" = some (.str id)
  timestamp : ∃ n : Number, m.own "timestamp" = some (.num n)

/-- An entry of `wus`. -/
structure IsWu (w : Value) : Prop where
  latlng : ∃ p, w.own "latlng" = some p ∧ IsLatLng p
  id : ∃ t : String, w.own "id" = some (.str t)
  status : ∃ t : String, w.own "status" = some (.str t)

/-- A database in the README's format, its markers having distinct ids. -/
structure IsDatabase (db : Value) : Prop where
  wus : ∃ ws, db.own "wus" = some (.arr ws) ∧ ∀ w ∈ ws, IsWu w
  markers : ∃ (ms : List Value) (ids : List String), db.own "markers" = some (.arr ms)
    ∧ List.Forall₂ IsMarker ms ids ∧ ids.Nodup
  waypoints : ∃ ps, db.own "waypoints" = some (.arr ps) ∧ ∀ p ∈ ps, IsLatLng p

theorem isLatLng_latLng (lat lng : String) : IsLatLng (latLng lat lng) := ⟨_, _, rfl, rfl⟩

theorem isMarker_readme : IsMarker readmeMarker "a8uhn7eHUJnheUJ3n9In" where
  latlng := ⟨_, rfl, isLatLng_latLng _ _⟩
  type := ⟨_, rfl⟩
  validated := ⟨_, rfl⟩
  reported := ⟨_, rfl⟩
  id := rfl
  timestamp := ⟨_, rfl⟩

theorem isDatabase_readme : IsDatabase readmeDatabase where
  wus := by
    refine ⟨_, rfl, fun w hw => ?_⟩
    rw [List.mem_singleton.mp hw]
    exact ⟨⟨_, rfl, isLatLng_latLng _ _⟩, ⟨_, rfl⟩, ⟨_, rfl⟩⟩
  markers := ⟨_, _, rfl, .cons isMarker_readme .nil, List.nodup_singleton _⟩
  waypoints := by
    refine ⟨_, rfl, fun p hp => ?_⟩
    rw [List.mem_singleton.mp hp]
    exact isLatLng_latLng _ _

/-! ## String ids -/

/-- `m` is a marker with the string `X` for an id. -/
def HasId (m : Value) (X : String) : Prop := m.own "id" = some (.str X)

/-- Only objects have an `id`. -/
theorem HasId.obj {m : Value} {X : String} (h : HasId m X) : ∃ ps, m = .obj ps :=
  Value.obj_of_own h (by decide) (by decide)

theorem HasId.isObject {m : Value} {X : String} (h : HasId m X) : m.isObject = true := by
  obtain ⟨ps, rfl⟩ := h.obj
  rfl

theorem HasId.unique {m : Value} {X Y : String} (h : HasId m X) (h' : HasId m Y) : X = Y := by
  rw [HasId, h] at h'
  cases h'
  rfl

/-- A string id is the name the marker is filed under. -/
theorem HasId.markerKey {m : Value} {X : String} (h : HasId m X) : markerKey m = .ok X := by
  obtain ⟨ps, rfl⟩ := h.obj
  refine markerKey_ok_iff.mpr ⟨rfl, ?_⟩
  rw [Value.prop, h]
  rfl

theorem hasId_set {m x : Value} {k X : String} (hk : "id" ≠ k) :
    HasId (m.set k x) X ↔ HasId m X := by
  rw [HasId, Value.own_set_ne m x hk]
  rfl

/-! ## What a round trip through the file does to a marker -/

theorem isObject_elemJSON (m : Value) : m.elemJSON.isObject = m.isObject := by
  cases m with
  | num n =>
      -- it stays a number or becomes `null`
      show (Value.elemJSON (.num n)).isObject = false
      unfold Value.elemJSON Value.toJSON
      cases n.finite <;> rfl
  | _ => rfl

theorem toJSON_eq_str {v : Value} {X : String} (h : v.toJSON = some (.str X)) : v = .str X := by
  cases v with
  | num n =>
      unfold Value.toJSON at h
      cases hn : n.finite <;> simp [hn] at h
  | _ => simp_all [Value.toJSON]

/-- A round trip neither makes nor loses a string id. -/
theorem hasId_elemJSON {m : Value} {X : String} : HasId m.elemJSON X ↔ HasId m X := by
  constructor
  · intro h
    cases m with
    | obj ps =>
        rw [HasId, Value.own_elemJSON_obj, Option.bind_eq_some_iff] at h
        obtain ⟨x, hx, hs⟩ := h
        rw [HasId, hx, toJSON_eq_str hs]
    | arr es => exact absurd h.obj (by simp)
    | num n => exact absurd h.isObject (by rw [isObject_elemJSON]; simp [Value.isObject])
    | _ => exact absurd h.isObject (by rw [isObject_elemJSON]; simp [Value.isObject])
  · intro h
    obtain ⟨ps, rfl⟩ := h.obj
    rw [HasId, Value.own_elemJSON_obj, h]
    rfl

/-- The name of a marker after a round trip does not depend on its other properties. -/
theorem markerKey_elemJSON_set {m x : Value} {k : String} (hk : "id" ≠ k) :
    markerKey (m.set k x).elemJSON = markerKey m.elemJSON := by
  cases m with
  | obj ps =>
      have hset : (Value.obj ps).set k x = .obj (putProp ps k x) := rfl
      have hown : (Value.obj (putProp ps k x)).own "id" = (Value.obj ps).own "id" := by
        rw [← hset, Value.own_set_obj, if_neg hk]
      have hprop : (Value.obj (putProp ps k x)).elemJSON.prop "id"
          = (Value.obj ps).elemJSON.prop "id" := by
        rw [Value.prop, Value.own_elemJSON_obj, hown, ← Value.own_elemJSON_obj]
        rfl
      rw [hset, markerKey, markerKey, Value.elemJSON_obj, Value.elemJSON_obj, Value.get_obj,
        Value.get_obj, ← Value.elemJSON_obj, ← Value.elemJSON_obj, hprop]
  | _ => rfl

/-! ## Names -/

/-- `m` is an object that the merge files under `X`: the text of its id, whatever that is. -/
def Named (m : Value) (X : String) : Prop := (∃ ps, m = .obj ps) ∧ markerKey m = .ok X

theorem Named.truthy {m : Value} {X : String} (h : Named m X) : m.truthy = true := by
  obtain ⟨⟨ps, rfl⟩, _⟩ := h
  rfl

/-- A string id is a name. -/
theorem HasId.named {m : Value} {X : String} (h : HasId m X) : Named m X := ⟨h.obj, h.markerKey⟩

theorem markerKey_set {m x : Value} {k : String} (hk : "id" ≠ k) :
    markerKey (m.set k x) = markerKey m := by
  rw [markerKey, markerKey, Value.get_set_ne m x hk]

theorem obj_set_iff {m x : Value} {k : String} :
    (∃ ps, m.set k x = .obj ps) ↔ ∃ ps, m = .obj ps := by
  cases m <;> simp [Value.set]

theorem named_set {m x : Value} {k X : String} (hk : "id" ≠ k) :
    Named (m.set k x) X ↔ Named m X := by
  rw [Named, Named, markerKey_set hk, obj_set_iff]

/-- What is an object in the file was one when it was written. -/
theorem obj_elemJSON_iff {m : Value} : (∃ ps, m.elemJSON = .obj ps) ↔ ∃ ps, m = .obj ps := by
  constructor
  · intro hex
    obtain ⟨ps, hps⟩ := hex
    cases m with
    | obj qs => exact ⟨qs, rfl⟩
    | arr es =>
        rw [Value.elemJSON_arr] at hps
        cases hps
    | num n =>
        unfold Value.elemJSON Value.toJSON at hps
        cases hn : n.finite <;> rw [hn] at hps <;> cases hps
    | _ => cases hps
  · intro hex
    obtain ⟨ps, rfl⟩ := hex
    exact ⟨_, Value.elemJSON_obj ps⟩

/-! ## Tidy lists -/

/-- As far as the name `X` goes, the list could be that of a file. -/
structure Tidy (X : String) (ms : List Value) : Prop where
  /-- The name has one marker at most, -/
  unique : ∀ (i j : Nat) (m m' : Value), ms[i]? = some m → ms[j]? = some m' →
    markerKey m = .ok X → markerKey m' = .ok X → i = j
  /-- and a round trip through the file neither gives it nor takes it. -/
  stable : ∀ m ∈ ms, markerKey m.elemJSON = .ok X ↔ markerKey m = .ok X

theorem Tidy.eq_of_key {X : String} {ms : List Value} (h : Tidy X ms) {m m' : Value}
    (hm : m ∈ ms) (hm' : m' ∈ ms) (hX : markerKey m = .ok X) (hX' : markerKey m' = .ok X) :
    m = m' := by
  obtain ⟨i, hi⟩ := List.mem_iff_getElem?.mp hm
  obtain ⟨j, hj⟩ := List.mem_iff_getElem?.mp hm'
  have hij := h.unique i j m m' hi hj hX hX'
  rw [hij, hj] at hi
  exact (Option.some.inj hi).symm

/-- The name of a stored event is held against every remote marker. -/
theorem Tidy.held {X : String} {ms : List Value} (h : Tidy X ms) {m : Value} (hm : m ∈ ms)
    (hX : Named m X) : Held ms X := by
  refine ⟨⟨m, hm, hX.2⟩, ?_⟩
  intro m' hm' hk
  rw [h.eq_of_key hm' hm hk hX.2]
  exact hX.truthy

theorem Tidy.named_elemJSON {X : String} {ms : List Value} (h : Tidy X ms) {m : Value}
    (hm : m ∈ ms) : Named m.elemJSON X ↔ Named m X :=
  and_congr obj_elemJSON_iff (h.stable m hm)

/-- `m'` is `m` as far as the name `X` goes. -/
structure Alike (X : String) (m m' : Value) : Prop where
  key : markerKey m' = .ok X ↔ markerKey m = .ok X
  written : markerKey m'.elemJSON = .ok X ↔ markerKey m.elemJSON = .ok X
  obj : (∃ ps, m' = .obj ps) ↔ ∃ ps, m = .obj ps

theorem Alike.named_elemJSON {X : String} {m m' : Value} (h : Alike X m m') :
    Named m'.elemJSON X ↔ Named m.elemJSON X :=
  and_congr (obj_elemJSON_iff.trans (h.obj.trans obj_elemJSON_iff.symm)) h.written

theorem alike_refl (X : String) (m : Value) : Alike X m m := ⟨Iff.rfl, Iff.rfl, Iff.rfl⟩

/-- Setting the flag changes nothing else. -/
theorem alike_reported (X : String) (m : Value) :
    Alike X m (m.set "reported" (.bool true)) where
  key := by rw [markerKey_set (by decide)]
  written := by rw [markerKey_elemJSON_set (by decide)]
  obj := obj_set_iff

theorem alike_elemJSON {X : String} {m : Value}
    (h : markerKey m.elemJSON = .ok X ↔ markerKey m = .ok X) : Alike X m m.elemJSON where
  key := h
  written := by rw [Value.elemJSON_elemJSON]
  obj := obj_elemJSON_iff

/-- The two lists are alike, place by place. -/
def AlikeLists (X : String) (ms ms' : List Value) : Prop :=
  ∀ (i : Nat) (m' : Value), ms'[i]? = some m' → ∃ m, ms[i]? = some m ∧ Alike X m m'

theorem AlikeLists.mem {X : String} {ms ms' : List Value} (h : AlikeLists X ms ms') {m' : Value}
    (hm' : m' ∈ ms') : ∃ m ∈ ms, Alike X m m' := by
  obtain ⟨i, hi⟩ := List.mem_iff_getElem?.mp hm'
  obtain ⟨m, hm, ha⟩ := h i m' hi
  exact ⟨m, List.mem_of_getElem? hm, ha⟩

theorem Tidy.alike {X : String} {ms ms' : List Value} (ht : Tidy X ms)
    (h : AlikeLists X ms ms') : Tidy X ms' where
  unique i j m m' hi hj hX hX' := by
    obtain ⟨n, hn, ha⟩ := h i m hi
    obtain ⟨n', hn', ha'⟩ := h j m' hj
    exact ht.unique i j n n' hn hn' (ha.key.mp hX) (ha'.key.mp hX')
  stable m hm := by
    obtain ⟨n, hn, ha⟩ := h.mem hm
    rw [ha.written, ha.key]
    exact ht.stable n hn

/-- A list with one marker's flag set. -/
def reportedAt (ms : List Value) (i : Nat) : List Value :=
  ms.modify i fun m => m.set "reported" (.bool true)

/-- A list as the file holds it after a write. -/
def written (ms : List Value) : List Value := ms.map Value.elemJSON

theorem alike_reportedAt (X : String) (ms : List Value) (i : Nat) :
    AlikeLists X ms (reportedAt ms i) := by
  intro j m' hj
  rw [reportedAt, List.getElem?_modify] at hj
  obtain ⟨m, hm, heq⟩ := Option.map_eq_some_iff.mp hj
  refine ⟨m, hm, ?_⟩
  split at heq
  · exact heq ▸ alike_reported X m
  · exact heq ▸ alike_refl X m

theorem alike_written {X : String} {ms : List Value} (h : Tidy X ms) :
    AlikeLists X ms (written ms) := by
  intro j m' hj
  rw [written, List.getElem?_map] at hj
  obtain ⟨m, hm, rfl⟩ := Option.map_eq_some_iff.mp hj
  exact ⟨m, hm, alike_elemJSON (h.stable m (List.mem_of_getElem? hm))⟩

/-- Of the markers of both lists, those that are called `X` in writing had one name before. -/
def OneName (X : String) (ms : List Value) : Prop :=
  ∀ m ∈ ms, ∀ m' ∈ ms, markerKey m.elemJSON = .ok X → markerKey m'.elemJSON = .ok X →
    markerKey m = markerKey m'

/-- What a merge lists has the name of something it was given, before and after a write. -/
theorem exists_origin {local_db remote_db db : Value}
    (h : mergeDatabases local_db remote_db = .ok db) (hp : NoProto (markersOf local_db)) {n : Value}
    (hn : n ∈ markersOf db) :
    ∃ n₀ ∈ markersOf local_db ++ markersOf remote_db, markerKey n₀ = markerKey n
      ∧ markerKey n₀.elemJSON = markerKey n.elemJSON := by
  obtain ⟨_, horigin, _⟩ := mergeDatabases_markers h hp
  rcases horigin n hn with hl | ⟨r, hr, _, _, rfl, _⟩
  · exact ⟨n, List.mem_append_left _ hl, rfl, rfl⟩
  · exact ⟨r, List.mem_append_right _ hr, (markerKey_set_validated r _).symm,
      (markerKey_elemJSON_set (by decide)).symm⟩

/-- **What a merge returns** is tidy once it is in the file, if the name stays unambiguous. -/
theorem tidy_of_merge {X : String} {local_db remote_db db : Value}
    (h : mergeDatabases local_db remote_db = .ok db) (hp : NoProto (markersOf local_db))
    (hone : OneName X (markersOf local_db ++ markersOf remote_db)) :
    Tidy X (written (markersOf db)) where
  unique i j m m' hi hj hX hX' := by
    rw [written, List.getElem?_map] at hi hj
    obtain ⟨n, hn, rfl⟩ := Option.map_eq_some_iff.mp hi
    obtain ⟨n', hn', rfl⟩ := Option.map_eq_some_iff.mp hj
    -- both had one name, and a merge gives a name to one marker only
    obtain ⟨n₀, hn₀, hk, hw⟩ := exists_origin h hp (List.mem_of_getElem? hn)
    obtain ⟨n₀', hn₀', hk', hw'⟩ := exists_origin h hp (List.mem_of_getElem? hn')
    have hkeys : markerKey n = markerKey n' :=
      (hk.symm.trans (hone n₀ hn₀ n₀' hn₀' (hw.trans hX) (hw'.trans hX'))).trans hk'
    have hi' : ((markersOf db).map markerKey)[i]? = some (markerKey n) := by
      rw [List.getElem?_map, hn, Option.map_some]
    have hj' : ((markersOf db).map markerKey)[j]? = some (markerKey n) := by
      rw [List.getElem?_map, hn', Option.map_some, hkeys]
    have hlt : i < ((markersOf db).map markerKey).length :=
      (List.getElem?_eq_some_iff.mp hi').1
    exact (List.getElem?_inj hlt (mergeDatabases_markers h hp).1).mp (hi'.trans hj'.symm)
  stable m hm := by
    obtain ⟨n, _, rfl⟩ := List.mem_map.mp hm
    rw [Value.elemJSON_elemJSON]

theorem tidy_of_markers {ms : List Value} {ids : List String} (h : List.Forall₂ IsMarker ms ids)
    (hn : ids.Nodup) (X : String) : Tidy X ms := by
  have hget : ∀ (i : Nat) (m : Value), ms[i]? = some m →
      ∃ Y, ids[i]? = some Y ∧ IsMarker m Y := by
    intro i m hi
    obtain ⟨hlt, rfl⟩ := List.getElem?_eq_some_iff.mp hi
    have hlt' : i < ids.length := h.length_eq ▸ hlt
    exact ⟨ids[i], List.getElem?_eq_getElem hlt', h.get hlt hlt'⟩
  -- the name of a marker in the format is its id
  have hkey : ∀ {m : Value} {Y : String}, IsMarker m Y → markerKey m = .ok X → Y = X := by
    intro m Y hm hX
    have hmY : HasId m Y := hm.id
    exact Except.ok.inj (hmY.markerKey.symm.trans hX)
  refine ⟨?_, ?_⟩
  · intro i j m m' hi hj hX hX'
    obtain ⟨Y, hY, hmY⟩ := hget i m hi
    obtain ⟨Z, hZ, hmZ⟩ := hget j m' hj
    have hYZ : Y = Z := (hkey hmY hX).trans (hkey hmZ hX').symm
    have hlt : i < ids.length := (List.getElem?_eq_some_iff.mp hY).1
    exact (List.getElem?_inj hlt hn).mp (hY.trans (hYZ ▸ hZ.symm))
  · intro m hm
    obtain ⟨i, hi⟩ := List.mem_iff_getElem?.mp hm
    obtain ⟨Y, _, hmY⟩ := hget i m hi
    have hid : HasId m Y := hmY.id
    rw [hid.markerKey, (hasId_elemJSON.mpr hid).markerKey]

/-! ## The stored list, step by step -/

/-- The markers `database.json` holds. -/
def storedMarkers (s : Server) : List Value :=
  match s.database with
  | some (.json db) => markersOf db
  | _ => []

/-- The event called `X` is stored, reported or not. -/
def Stored (s : Server) (X : String) (reported : Bool) : Prop :=
  ∃ m ∈ storedMarkers s, Named m X ∧ isReported m = reported

/-- The marker a publish hands to the broker is called `X`. -/
def Publish.Sends (p : Publish) (X : String) : Prop :=
  ∃ m, p.payload = .json m ∧ Named m X

/-- The steps that merge a message. -/
def Event.IsMessage : Event → Prop
  | .clientMessage _ _ => True
  | .mqttMessage _ _ => True
  | _ => False

/-- The markers a message brings. -/
def Event.brings : Event → List Value
  | .clientMessage _ (.json remote_db) => markersOf remote_db
  | .mqttMessage _ (.json remote_db) => markersOf remote_db
  | _ => []

/--
A message leaves the name `X` to one marker: no stored marker is called `__proto__`, and no two
markers, of the file and the message together, that go by different names are both called
`X` once they are written.
-/
def Unambiguous (X : String) (s : Server) (e : Event) : Prop :=
  NoProto (storedMarkers s) ∧ OneName X (storedMarkers s ++ e.brings)

/-- What a pending publish will work on. -/
structure Snapshot (X : String) (p : Publish) : Prop where
  list : ∃ ms, p.local_db.own "markers" = some (.arr ms)
  tidy : Tidy X (markersOf p.local_db)
  /-- It publishes a marker of its own snapshot, the flag already set. -/
  own : ∃ (i : Nat) (m : Value), p.k = toString i
    ∧ (markersOf p.local_db)[i]? = some (m.set "reported" (.bool true))
    ∧ p.payload = JSON.stringify (m.set "reported" (.bool true))

/-- The file and every snapshot hold a tidy list. -/
structure FileInv (X : String) (s : Server) : Prop where
  file : ∃ v ms, s.database = some (.json v) ∧ v.own "markers" = some (.arr ms)
  tidy : Tidy X (storedMarkers s)
  snapshots : ∀ p ∈ s.publishes, Snapshot X p

theorem markersOf_of_own {db : Value} {ms : List Value} (h : db.own "markers" = some (.arr ms)) :
    markersOf db = ms := by
  rw [markersOf, Value.prop, h, Option.getD_some, Value.values_arr]

theorem storedMarkers_of_file {s : Server} {v : Value} (h : s.database = some (.json v)) :
    storedMarkers s = markersOf v := by
  rw [storedMarkers, h]

/-- Setting a flag in a database sets it in its list. -/
theorem own_setReported {db : Value} {ms : List Value} (h : db.own "markers" = some (.arr ms))
    (i : Nat) : (setReported db (toString i)).own "markers" = some (.arr (reportedAt ms i)) := by
  obtain ⟨ps, rfl⟩ := Value.obj_of_own h (by decide) (by decide)
  rw [setReported, Value.own_modify_obj, if_pos rfl, h, Option.map_some, Value.modify_arr]
  rfl

/-- A database with a list, written and read back. -/
theorem own_written {db : Value} {ms : List Value} (h : db.own "markers" = some (.arr ms)) :
    db.elemJSON.own "markers" = some (.arr (written ms)) := by
  obtain ⟨ps, rfl⟩ := Value.obj_of_own h (by decide) (by decide)
  rw [Value.own_elemJSON_obj, h, Option.bind_some, Value.toJSON, Value.elemsJSON_eq]
  rfl

/-- What a merge returns has a list. -/
theorem own_merged {local_db remote_db db : Value}
    (h : mergeDatabases local_db remote_db = .ok db) :
    db.own "markers" = some (.arr (markersOf db)) := by
  obtain ⟨ms, rfl⟩ := mergeDatabases_shape h
  have hown : (Value.obj [("wus", local_db.prop "wus"), ("markers", .arr ms),
      ("waypoints", local_db.prop "waypoints")]).own "markers" = some (.arr ms) := rfl
  rw [hown, markersOf_of_own hown]

/--
**What a step can do to the stored list.** It keeps it, replaces it by what a merge
with it returned, or replaces it by the snapshot of the publish whose callback runs.
-/
inductive Written (s : Server) : Event → List Value → Prop where
  | kept {e : Event} : Written s e (storedMarkers s)
  | merged {e : Event} {local_db remote_db db : Value} : e.IsMessage →
      markersOf local_db = storedMarkers s → markersOf remote_db = e.brings →
      mergeDatabases local_db remote_db = .ok db → Written s e (written (markersOf db))
  | snapshot {io : Outcomes} {i j : Nat} {d : Delivery} {p : Publish} :
      s.publishes[i]? = some p → p.delivery = none → io.writeOk = true → p.k = toString j →
      Written s (.published io i d) (written (reportedAt (markersOf p.local_db) j))

/-- A write leaves the file with a list, the one before it or the one written. -/
theorem fileAfter_list {X : String} {io : Outcomes} {s t : Server} {db : Value}
    {ms : List Value} (h : FileInv X s) (ht : t.database = fileAfter io s db)
    (hdb : db.own "markers" = some (.arr ms)) :
    (∃ v ms', t.database = some (.json v) ∧ v.own "markers" = some (.arr ms'))
      ∧ (io.writeOk = true ∧ storedMarkers t = written ms
        ∨ io.writeOk = false ∧ storedMarkers t = storedMarkers s) := by
  rw [fileAfter] at ht
  by_cases hw : io.writeOk = true
  · rw [if_pos hw] at ht
    have hown := own_written hdb
    refine ⟨⟨_, _, ht, hown⟩, Or.inl ⟨hw, ?_⟩⟩
    rw [storedMarkers_of_file ht, markersOf_of_own hown]
  · rw [if_neg hw] at ht
    refine ⟨ht ▸ h.file, Or.inr ⟨by simpa using hw, ?_⟩⟩
    rw [storedMarkers, ht, ← storedMarkers]

/-- A callback that can write replaces the file's list by its snapshot's. -/
theorem storedMarkers_callback {X : String} (io : Outcomes) {s t : Server} {p : Publish} {j : Nat}
    (h : FileInv X s) (hp : Snapshot X p) (hk : p.k = toString j)
    (ht : t.database = fileAfter io s (setReported p.local_db p.k)) :
    (∃ v ms, t.database = some (.json v) ∧ v.own "markers" = some (.arr ms))
      ∧ (io.writeOk = true ∧ storedMarkers t = written (reportedAt (markersOf p.local_db) j)
        ∨ io.writeOk = false ∧ storedMarkers t = storedMarkers s) := by
  obtain ⟨ms, hms⟩ := hp.list
  refine fileAfter_list h ht ?_
  rw [hk, own_setReported hms, markersOf_of_own hms]

/-- What a message brings is what it parses to. -/
theorem brings_of_parse {io : Outcomes} {data : Text} {remote_db : Value}
    (h : JSON.parse data = .ok remote_db) :
    markersOf remote_db = (Event.clientMessage io data).brings
      ∧ markersOf remote_db = (Event.mqttMessage io data).brings := by
  cases data with
  | malformed => cases h
  | json v =>
      obtain rfl := Except.ok.inj h
      exact ⟨rfl, rfl⟩

/-- The stored list after a step, and that there is one. -/
theorem written_of_step {X : String} {s t : Server} {e : Event} (h : FileInv X s)
    (hs : Step s e t) :
    (∃ v ms, t.database = some (.json v) ∧ v.own "markers" = some (.arr ms))
      ∧ Written s e (storedMarkers t) := by
  -- both messages write what a merge with the file's database returned
  have hmerge : ∀ (io : Outcomes) (remote_db db : Value), e.IsMessage →
      markersOf remote_db = e.brings → mergeDatabases (loadDatabase io s) remote_db = .ok db →
      t.database = fileAfter io s db →
      (∃ v ms, t.database = some (.json v) ∧ v.own "markers" = some (.arr ms))
        ∧ Written s e (storedMarkers t) := by
    intro io remote_db db he hr hm ht
    have hl := loaded_of_mergeable (mergeDatabases_ok_iff.mp ⟨db, hm⟩).1
    obtain ⟨hf, ⟨_, hw⟩ | ⟨_, hw⟩⟩ := fileAfter_list h ht (own_merged hm)
    · exact ⟨hf, hw ▸ .merged he (storedMarkers_of_file hl).symm hr hm⟩
    · exact ⟨hf, hw ▸ .kept⟩
  cases step_effect hs with
  | connect => exact ⟨h.file, .kept⟩
  | idle => exact ⟨h.file, .kept⟩
  | @replied io data db hm hsend =>
      obtain ⟨remote_db, hd, hm⟩ := bind_ok_iff.mp hm
      exact hmerge io remote_db db trivial (brings_of_parse hd).1 hm rfl
  | @received io message db hm =>
      obtain ⟨remote_db, hd, hm⟩ := bind_ok_iff.mp hm
      obtain ⟨_, _, hm⟩ := bind_ok_iff.mp hm
      exact hmerge io remote_db db trivial (brings_of_parse hd).2 hm rfl
  | started => exact ⟨h.file, .kept⟩
  | @published io i d p hget hd =>
      have hp := h.snapshots p (List.mem_of_getElem? hget)
      obtain ⟨j, m, hk, _, _⟩ := hp.own
      obtain ⟨hf, ⟨hio, hw⟩ | ⟨_, hw⟩⟩ := storedMarkers_callback io h hp hk
        (t := { s with publishes := s.publishes.set i { p with delivery := some d },
                       database := fileAfter io s (setReported p.local_db p.k) }) rfl
      · exact ⟨hf, hw ▸ .snapshot hget hd hio hk⟩
      · exact ⟨hf, hw ▸ .kept⟩

/-- The list a tick searches, and where it finds what it publishes. -/
theorem firstUnreported_found {es : List (String × Value)} {k : String} {m : Value}
    (h : firstUnreported es = .ok (some (k, m))) : (k, m) ∈ es ∧ isReported m = false := by
  induction es with
  | nil => cases h
  | cons e es ih =>
      obtain ⟨k', m'⟩ := e
      by_cases hn : m'.isNullish = true
      · rw [firstUnreported, Value.get, if_pos hn] at h
        cases h
      · rw [firstUnreported_cons (by simpa using hn)] at h
        cases hr : isReported m' with
        | true =>
            rw [hr] at h
            exact ⟨List.mem_cons_of_mem _ (ih h).1, (ih h).2⟩
        | false =>
            rw [hr] at h
            cases h
            exact ⟨List.mem_cons_self, hr⟩

/-- **What a tick publishes** is an unreported marker of the stored list. -/
theorem pending_spec {X : String} {io : Outcomes} {s : Server} {k : String} {m : Value}
    (h : FileInv X s) (hm : pendingMarker io s = .ok (some (k, m))) :
    ∃ i, k = toString i ∧ (storedMarkers s)[i]? = some m ∧ isReported m = false
      ∧ (setReported (loadDatabase io s) k).own "markers"
        = some (.arr (reportedAt (storedMarkers s) i)) := by
  obtain ⟨hl, _⟩ := loaded_of_pending hm
  obtain ⟨v, ms, hv, hms⟩ := h.file
  have hlv : loadDatabase io s = v := by
    rw [hv] at hl
    cases hl
    rfl
  have hst : storedMarkers s = ms := by rw [storedMarkers_of_file hv, markersOf_of_own hms]
  obtain ⟨markers, hget, hf⟩ := bind_ok_iff.mp hm
  obtain ⟨_, hprop⟩ := Value.get_ok_iff.mp hget
  rw [hlv, Value.prop, hms, Option.getD_some] at hprop
  rw [← hprop] at hf
  obtain ⟨hmem, hr⟩ := firstUnreported_found hf
  -- an array enumerates its elements under their indices
  obtain ⟨i, hi, heq⟩ := List.mem_mapIdx.mp hmem
  cases heq
  refine ⟨i, rfl, ?_, hr, ?_⟩
  · rw [hst, List.getElem?_eq_getElem hi]
  · rw [hlv, hst]
    exact own_setReported hms i

/-- A tick's publish starts out with a tidy snapshot. -/
theorem snapshot_of_pending {X : String} {io : Outcomes} {s : Server} {k : String} {m : Value}
    (h : FileInv X s) (hm : pendingMarker io s = .ok (some (k, m))) :
    Snapshot X (publishOf (loadDatabase io s) k m) := by
  obtain ⟨i, rfl, hi, _, hown⟩ := pending_spec h hm
  have hms : markersOf (publishOf (loadDatabase io s) (toString i) m).local_db
      = reportedAt (storedMarkers s) i := markersOf_of_own hown
  refine ⟨⟨_, hown⟩, ?_, i, m, rfl, ?_, rfl⟩
  · rw [hms]
    exact h.tidy.alike (alike_reportedAt X _ i)
  · rw [hms, reportedAt, List.getElem?_modify, hi, Option.map_eq_map, Option.map_some, if_pos rfl]

theorem Snapshot.withDelivery {X : String} {p : Publish} (h : Snapshot X p) (d : Delivery) :
    Snapshot X { p with delivery := some d } := ⟨h.list, h.tidy, h.own⟩

/-- **The file stays tidy**, as long as messages leave the name to one marker. -/
theorem fileInv_step {X : String} {s t : Server} {e : Event} (h : FileInv X s) (hs : Step s e t)
    (hp : e.IsMessage → Unambiguous X s e) : FileInv X t := by
  obtain ⟨hfile, hw⟩ := written_of_step h hs
  refine ⟨hfile, ?_, ?_⟩
  · generalize storedMarkers t = ms at hw
    cases hw with
    | kept => exact h.tidy
    -- a merge leaves a list that is tidy by itself, the others one alike
    | @merged _ local_db remote_db db he hl hr hm =>
        obtain ⟨hproto, hone⟩ := hp he
        rw [← hl] at hproto
        rw [← hl, ← hr] at hone
        exact tidy_of_merge hm hproto hone
    | @snapshot io i j d p hget _ _ _ =>
        have ht := (h.snapshots p (List.mem_of_getElem? hget)).tidy.alike (alike_reportedAt X _ j)
        exact ht.alike (alike_written ht)
  · cases step_effect hs with
    | connect => exact h.snapshots
    | idle => exact h.snapshots
    | replied _ _ => exact h.snapshots
    | received _ => exact h.snapshots
    | started _ hm => exact Places.forall_mem_concat h.snapshots (snapshot_of_pending h hm)
    | @published io i d p hget _ =>
        -- a callback that has run leaves the snapshot it was given
        have hsnap := (h.snapshots p (List.mem_of_getElem? hget)).withDelivery d
        exact Places.forall_mem_set h.snapshots hsnap i

theorem fileInv_init {v₀ : Value} (h : IsDatabase v₀) (X : String) :
    FileInv X (boot (.json v₀)) := by
  obtain ⟨ms, ids, hms, hall, hn⟩ := h.markers
  refine ⟨⟨v₀, ms, rfl, hms⟩, ?_, fun p hp => absurd hp (by simp [boot])⟩
  rw [storedMarkers_of_file rfl, markersOf_of_own hms]
  exact tidy_of_markers hall hn X

end EssApp.WebSocketServer
