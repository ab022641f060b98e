import EssApp.Server.Stored

/-!
# Merging under arbitrary names

Ids come from outside and the server never looks at them, so an id can be any
string: also a name every object answers for, and also `__proto__`. The lookup
object is a plain `{}`, and this file says what that costs, on databases that are
otherwise in the README's format.

A remote event whose id is a built-in name is taken for known and dropped, unless
a local event has that id. A local event with the id `__proto__` becomes the
object's prototype: it is never listed itself, and its fields are enumerated as if
they were events. Nothing else goes wrong (`keepsAll_iff`).
-/

namespace EssApp.WebSocketServer

open Js

/-- The fields of an event, as the README lists them. -/
def markerFields : List String := ["latlng", "type", "validated", "reported", "id", "timestamp"]

/-- An event exactly as the README shows it, with no other field. -/
structure IsReadmeMarker (m : Value) (X : String) : Prop where
  marker : IsMarker m X
  fields : ∀ e ∈ m.entries, e.1 ∈ markerFields
  distinct : (m.entries.map Prod.fst).Nodup
  latlng : ∀ p, m.own "latlng" = some p → ∀ e ∈ p.entries, e.1 ∈ ["lat", "lng"]

/-- The merge keeps every event, each once, and makes none up. -/
structure KeepsAll (lms rms ms : List Value) : Prop where
  /-- The ids are those of both databases, -/
  union : ∀ X, (∃ m ∈ ms, HasId m X) ↔ (∃ m ∈ lms, HasId m X) ∨ ∃ m ∈ rms, HasId m X
  /-- each once, -/
  once : (ms.map fun m => m.own "id").Nodup
  /-- and every marker is a local one, or a remote one marked validated. -/
  origin : ∀ m ∈ ms, m ∈ lms ∨ ∃ r ∈ rms, m = r.set "validated" (.bool true)

/-! ## A README marker as a prototype -/

theorem IsReadmeMarker.hasId {m : Value} {X : String} (h : IsReadmeMarker m X) : HasId m X :=
  h.marker.id

/-- None of its fields is an event. -/
theorem IsReadmeMarker.values {m : Value} {X : String} (h : IsReadmeMarker m X) :
    ∀ v ∈ m.values, v.own "id" = none := by
  obtain ⟨ps, rfl⟩ := h.hasId.obj
  intro v hv
  obtain ⟨⟨k, v⟩, he, rfl⟩ := List.mem_map.mp hv
  have hown : (Value.obj ps).own k = some v := Table.get_of_mem h.distinct he
  have hnum : ∀ n : Number, (Value.num n).own "id" = none := fun _ => rfl
  have hbool : ∀ b : Bool, (Value.bool b).own "id" = none := fun _ => rfl
  have hstr : ∀ s : String, (Value.str s).own "id" = none := by
    intro s
    rw [Value.own, if_neg (by decide)]
    rfl
  have hfield := h.fields _ he
  simp only [markerFields, List.mem_cons, List.not_mem_nil, or_false] at hfield
  rcases hfield with rfl | rfl | rfl | rfl | rfl | rfl
  · -- the position has no field but its two coordinates
    obtain ⟨p, hp, lat, _, hlat, _⟩ := h.marker.latlng
    obtain rfl := Option.some.inj (hp.symm.trans hown)
    obtain ⟨qs, rfl⟩ := Value.obj_of_own hlat (by decide) (by decide)
    refine Table.get_eq_none_iff.mpr ?_
    intro e heq hid
    have := h.latlng _ hown e heq
    rw [hid] at this
    exact absurd this (by decide)
  · obtain ⟨t, ht⟩ := h.marker.type
    rw [Option.some.inj (hown.symm.trans ht)]
    exact hstr t
  · obtain ⟨b, hb⟩ := h.marker.validated
    rw [Option.some.inj (hown.symm.trans hb)]
    exact hbool b
  · obtain ⟨b, hb⟩ := h.marker.reported
    rw [Option.some.inj (hown.symm.trans hb)]
    exact hbool b
  · rw [Option.some.inj (hown.symm.trans h.marker.id)]
    exact hstr X
  · obtain ⟨n, hn⟩ := h.marker.timestamp
    rw [Option.some.inj (hown.symm.trans hn)]
    exact hnum n

/-- It does not hide the setter. -/
theorem IsReadmeMarker.noProto {m : Value} {X : String} (h : IsReadmeMarker m X) :
    m.own "__proto__" = none := by
  obtain ⟨ps, rfl⟩ := h.hasId.obj
  refine Table.get_eq_none_iff.mpr ?_
  intro e he hk
  have := h.fields e he
  rw [hk] at this
  exact absurd this (by decide)

/-- The lookup object, whatever its prototype has been replaced by. -/
structure Usurped (o : PlainObject) : Prop where
  /-- The prototype is `Object.prototype`, or an event. -/
  proto : ∀ p, o.proto = some p → ∃ X, IsReadmeMarker p X
  /-- A marker's name is its id. -/
  keyed : ∀ e ∈ o.own, markerKey e.2 = .ok e.1
  /-- The setter is never shadowed. -/
  noProto : Table.get o.own "__proto__" = none

theorem usurped_empty : Usurped {} := ⟨by rintro p ⟨⟩, by simp, rfl⟩

/-- The name `__proto__` always answers. -/
theorem Usurped.get_proto {o : PlainObject} (h : Usurped o) : o.get "__proto__" = .builtin := by
  simp only [PlainObject.get, h.noProto, PlainObject.inherited]
  cases hp : o.proto with
  | none => rw [if_pos (by decide)]
  | some p =>
      obtain ⟨X, hX⟩ := h.proto p hp
      obtain ⟨ps, rfl⟩ := hX.hasId.obj
      simp only [hX.noProto]
      exact if_pos (show "__proto__" ∈ objectPrototype by decide)

theorem Usurped.assign {o : PlainObject} (h : Usurped o) {k : String} {v : Value}
    (hk : markerKey v = .ok k) (hv : k = "__proto__" → ∃ X, IsReadmeMarker v X) :
    Usurped (o.assign k v) := by
  by_cases hp : k = "__proto__"
  · -- the setter runs, and the marker is the new prototype
    obtain ⟨X, hX⟩ := hv hp
    obtain ⟨ps, rfl⟩ := hX.hasId.obj
    have hset : o.assign k (.obj ps) = { o with proto := some (.obj ps) } := by
      rw [PlainObject.assign, PlainObject.hasProtoSetter, h.get_proto, hp]
      rfl
    rw [hset]
    refine ⟨?_, h.keyed, h.noProto⟩
    intro p he
    exact ⟨X, Option.some.inj he ▸ hX⟩
  · rw [PlainObject.assign_of_ne hp]
    have hput := put_putProp o.own k v
    refine ⟨h.proto, ?_, (hput.get_ne (Ne.symm hp)).trans h.noProto⟩
    intro e he
    rcases hput.mem he with rfl | ⟨he', _⟩
    · exact hk
    · exact h.keyed e he'

theorem usurped_addLocal {ms : List Value} {o o' : PlainObject}
    (h : ms.foldlM addLocal o = .ok o') (hms : ∀ m ∈ ms, ∃ X, IsReadmeMarker m X)
    (ho : Usurped o) : Usurped o' := by
  induction ms generalizing o with
  | nil => exact Except.ok.inj h ▸ ho
  | cons m ms ih =>
      rw [List.foldlM_cons] at h
      obtain ⟨o₁, h1, h⟩ := bind_ok_iff.mp h
      obtain ⟨k, hk, h1⟩ := bind_ok_iff.mp h1
      have ho₁ : Usurped o₁ := by
        rw [← Except.ok.inj h1]
        exact ho.assign hk (fun _ => hms m List.mem_cons_self)
      exact ih h (fun x hx => hms x (List.mem_cons_of_mem _ hx)) ho₁

theorem usurped_addRemote {ms : List Value} {o o' : PlainObject}
    (h : ms.foldlM addRemote o = .ok o') (ho : Usurped o) : Usurped o' := by
  induction ms generalizing o with
  | nil => exact Except.ok.inj h ▸ ho
  | cons m ms ih =>
      rw [List.foldlM_cons] at h
      obtain ⟨o₁, h1, h⟩ := bind_ok_iff.mp h
      obtain ⟨k, hk, _⟩ := bind_ok_iff.mp h1
      rw [addRemote_ok hk] at h1
      refine ih h ?_
      rw [← Except.ok.inj h1]
      split
      · exact ho
      · rename_i ht
        refine ho.assign ((markerKey_set_validated m _).trans hk) ?_
        -- `__proto__` answers, so nothing remote is written to it
        rintro rfl
        exact absurd (by rw [ho.get_proto]; rfl) ht

/-- **No event under `__proto__` is ever listed.** -/
theorem Usurped.values {o : PlainObject} (h : Usurped o) :
    ∀ m ∈ o.values, ¬ HasId m "__proto__" := by
  intro m hm hid
  obtain ⟨e, he, rfl⟩ := List.mem_map.mp hm
  rcases List.mem_append.mp he with he | he
  · -- an own property is filed under its id, and none is filed under this one
    have hkey := (h.keyed e he).symm.trans hid.markerKey
    exact Table.get_eq_none_iff.mp h.noProto e he (Except.ok.inj hkey)
  · -- a property of the prototype is a field of an event
    have he := List.mem_of_mem_filter he
    cases hp : o.proto with
    | none =>
        rw [hp] at he
        cases he
    | some p =>
        rw [hp] at he
        obtain ⟨X, hX⟩ := h.proto p hp
        have hnone := hX.values e.2 (List.mem_map_of_mem he)
        rw [HasId, hnone] at hid
        cases hid

/-! ## Which remote events get in -/

/-- A name that a tame object answers falsely for is no built-in one. -/
theorem not_builtin_of_falsy {o : PlainObject} (ho : o.Tame)
    (htruthy : ∀ e ∈ o.own, e.2.truthy = true) {k : String} (hf : (o.get k).truthy = false) :
    k ∉ objectPrototype := by
  intro hk
  cases hg : Table.get o.own k with
  | none =>
      rw [ho.get_of_not_own hg, if_pos hk] at hf
      cases hf
  | some v =>
      rw [PlainObject.get_of_own hg] at hf
      exact absurd ((htruthy _ (Table.mem_of_get hg)).symm.trans hf) (by decide)

theorem isObject_set {m : Value} (h : m.isObject = true) (k : String) (v : Value) :
    (m.set k v).isObject = true := by
  cases m with
  | obj ps => rfl
  | arr es => rfl
  | _ => cases h

/-- Behind a remote event its name answers. -/
theorem addRemote_self {o o₁ : PlainObject} {m : Value} {k : String} (ho : Filed o)
    (hm : m.isObject = true) (hk : markerKey m = .ok k) (h : addRemote o m = .ok o₁) :
    (o₁.get k).truthy = true := by
  rw [addRemote_ok hk] at h
  rw [← Except.ok.inj h]
  by_cases ht : (o.get k).truthy = true
  · rw [if_pos ht]
    exact ht
  · have hne : k ≠ "__proto__" := ho.tame.ne_proto_of_falsy ho.noProto (by simpa using ht)
    rw [if_neg ht, PlainObject.assign_of_ne hne,
      PlainObject.get_of_own (put_putProp o.own k _).get_self]
    exact Value.truthy_of_isObject (isObject_set hm _ _)

/-- After the second loop every remote name answers, and every name that did before. -/
theorem addRemote_answers {ms : List Value} {o o' : PlainObject}
    (h : ms.foldlM addRemote o = .ok o') (ho : Filed o) (hms : ∀ m ∈ ms, m.isObject = true) :
    (∀ k, (o.get k).truthy = true → (o'.get k).truthy = true)
      ∧ ∀ m ∈ ms, ∀ k, markerKey m = .ok k → (o'.get k).truthy = true := by
  induction ms generalizing o with
  | nil =>
      obtain rfl := Except.ok.inj h
      exact ⟨fun _ hk => hk, fun m hm => absurd hm List.not_mem_nil⟩
  | cons m ms ih =>
      rw [List.foldlM_cons] at h
      obtain ⟨o₁, h1, h⟩ := bind_ok_iff.mp h
      obtain ⟨k, hk, _⟩ := bind_ok_iff.mp h1
      have hself := addRemote_self ho (hms m List.mem_cons_self) hk h1
      obtain ⟨hfiled, _, _, hfalsy⟩ := addRemote_step ho hk h1
      obtain ⟨g1, g2⟩ := ih h hfiled (fun x hx => hms x (List.mem_cons_of_mem _ hx))
      refine ⟨fun j hj => g1 j ?_, ?_⟩
      · by_contra hc
        rw [hfalsy j (by simpa using hc)] at hj
        cases hj
      intro x hx j hj
      rcases List.mem_cons.mp hx with rfl | hx
      · obtain rfl := Except.ok.inj (hk.symm.trans hj)
        exact g1 _ hself
      · exact g2 x hx j hj

section

variable {local_db remote_db db : Value}

/-- What has a string id and the name `X` has the id `X`. -/
theorem hasId_of_markerKey {m : Value} {X Y : String} (h : HasId m Y) (hk : markerKey m = .ok X) :
    HasId m X := by
  obtain rfl := Except.ok.inj (h.markerKey.symm.trans hk)
  exact h

/-- What a merge returns carries a string id, if all it was given does. -/
theorem exists_hasId_mergeDatabases (h : mergeDatabases local_db remote_db = .ok db)
    (hl : ∀ m ∈ markersOf local_db, ∃ X, HasId m X)
    (hr : ∀ m ∈ markersOf remote_db, ∃ X, HasId m X) (hp : NoProto (markersOf local_db)) :
    ∀ m ∈ markersOf db, ∃ X, HasId m X := by
  obtain ⟨_, hfrom, _⟩ := mergeDatabases_markers h hp
  intro m hm
  rcases hfrom m hm with hm | ⟨r, hr', _, _, rfl, _⟩
  · exact hl m hm
  · obtain ⟨X, hX⟩ := hr r hr'
    exact ⟨X, (hasId_set (by decide)).mpr hX⟩

section Ids

variable {o₁ o₂ : PlainObject} (t : Loops local_db remote_db db o₁ o₂)
  (hr : ∀ m ∈ markersOf remote_db, ∃ X, HasId m X)
include t hr

/-- **What a merge lists** is local, or remote under a name that is not built in. -/
theorem Loops.not_builtin (hl : ∀ m ∈ markersOf local_db, ∃ X, HasId m X) {m : Value}
    {X : String} (hm : m ∈ markersOf db) (hid : HasId m X) :
    m ∈ markersOf local_db ∨ X ∉ objectPrototype ∧ ∃ r ∈ markersOf remote_db, HasId r X := by
  -- the first loop files events, and an event is an object
  have htruthy : ∀ e ∈ o₁.own, e.2.truthy = true := by
    intro e he
    obtain ⟨Y, hY⟩ := hl e.2 (t.locals e he)
    exact Value.truthy_of_isObject hY.isObject
  refine (t.origin hm).imp_right ?_
  rintro ⟨r, hr', k, hrk, rfl, hf⟩
  obtain ⟨Y, hY⟩ := hr r hr'
  have hrid : HasId r X := (hasId_set (by decide)).mp hid
  obtain rfl : X = k := Except.ok.inj (hrid.markerKey.symm.trans hrk)
  exact ⟨not_builtin_of_falsy t.filed₁.tame htruthy hf, r, hr', hrid⟩

/-- **A remote event is listed**, unless its id is a built-in name. -/
theorem Loops.lists {r : Value} {X : String} (hr' : r ∈ markersOf remote_db) (hid : HasId r X)
    (hX : X ∉ objectPrototype) : ∃ v ∈ markersOf db, markerKey v = .ok X := by
  have hobj : ∀ m ∈ markersOf remote_db, m.isObject = true := by
    intro m hm
    obtain ⟨Y, hY⟩ := hr m hm
    exact hY.isObject
  have hanswer := (addRemote_answers t.loop₂ t.filed₁ hobj).2 r hr' X hid.markerKey
  -- it is no built-in name, so it answers because it is filed
  cases hg : Table.get o₂.own X with
  | none =>
      rw [t.filed₂.tame.get_of_not_own hg, if_neg hX] at hanswer
      cases hanswer
  | some v =>
      have hv := Table.mem_of_get hg
      refine ⟨v, ?_, t.filed₂.keyed _ hv⟩
      rw [t.result]
      exact List.mem_map_of_mem (f := Prod.snd) hv

end Ids

/--
**The ids of a merge**, when no local event has the id `__proto__`: the local ones, and
the remote ones that are no built-in names.
-/
theorem mem_ids_mergeDatabases (h : mergeDatabases local_db remote_db = .ok db)
    (hl : ∀ m ∈ markersOf local_db, ∃ X, HasId m X)
    (hr : ∀ m ∈ markersOf remote_db, ∃ X, HasId m X) (hp : NoProto (markersOf local_db))
    (X : String) :
    (∃ m ∈ markersOf db, HasId m X) ↔ (∃ m ∈ markersOf local_db, HasId m X)
      ∨ X ∉ objectPrototype ∧ ∃ m ∈ markersOf remote_db, HasId m X := by
  obtain ⟨_, _, hheld⟩ := mergeDatabases_markers h hp
  obtain ⟨o₁, o₂, t⟩ := exists_loops h hp
  constructor
  · rintro ⟨m, hm, hid⟩
    exact (t.not_builtin hr hl hm hid).imp_left fun hm => ⟨m, hm, hid⟩
  · rintro (⟨m, hm, hid⟩ | ⟨hX, r, hr', hid⟩)
    · have hheld' : Held (markersOf local_db) X := by
        refine ⟨⟨m, hm, hid.markerKey⟩, ?_⟩
        intro x hx _
        obtain ⟨Y, hY⟩ := hl x hx
        exact Value.truthy_of_isObject hY.isObject
      obtain ⟨x, hx, hxl, hxk⟩ := hheld X hheld'
      obtain ⟨Y, hY⟩ := hl x hxl
      exact ⟨x, hx, hasId_of_markerKey hY hxk⟩
    · obtain ⟨v, hv, hvk⟩ := t.lists hr hr' hid hX
      obtain ⟨Y, hY⟩ := exists_hasId_mergeDatabases h hl hr hp v hv
      exact ⟨v, hv, hasId_of_markerKey hY hvk⟩

/-- **The merge drops the remote built-in names** that no local event has, and nothing else. -/
theorem keepsAll_iff_of_noProto (h : mergeDatabases local_db remote_db = .ok db)
    (hl : ∀ m ∈ markersOf local_db, ∃ X, HasId m X)
    (hr : ∀ m ∈ markersOf remote_db, ∃ X, HasId m X) (hp : NoProto (markersOf local_db)) :
    KeepsAll (markersOf local_db) (markersOf remote_db) (markersOf db)
      ↔ ∀ r ∈ markersOf remote_db, ∀ X ∈ objectPrototype, HasId r X →
        ∃ m ∈ markersOf local_db, HasId m X := by
  have hids := mem_ids_mergeDatabases h hl hr hp
  obtain ⟨hnodup, hfrom, _⟩ := mergeDatabases_markers h hp
  constructor
  · intro hf r hr' X hX hid
    rcases (hids X).mp ((hf.union X).mpr (Or.inr ⟨r, hr', hid⟩)) with hlocal | ⟨hnot, _⟩
    · exact hlocal
    · exact absurd hX hnot
  · intro hcond
    refine ⟨?_, ?_, ?_⟩
    · intro X
      rw [hids X]
      constructor
      · exact Or.imp_right And.right
      · rintro (hlocal | ⟨r, hr', hid⟩)
        · exact Or.inl hlocal
        · by_cases hX : X ∈ objectPrototype
          · exact Or.inl (hcond r hr' X hX hid)
          · exact Or.inr ⟨hX, r, hr', hid⟩
    · -- markers with one id would have one name
      rw [List.Nodup, List.pairwise_map] at hnodup ⊢
      refine hnodup.imp_of_mem ?_
      intro a b ha _ hne heq
      obtain ⟨X, hX⟩ := exists_hasId_mergeDatabases h hl hr hp a ha
      have hX' : HasId b X := heq.symm.trans hX
      exact hne (hX.markerKey.trans hX'.markerKey.symm)
    · intro m hm
      refine (hfrom m hm).imp_right ?_
      rintro ⟨r, hr', _, _, he, _⟩
      exact ⟨r, hr', he⟩

/-- **No merge lists an event with the id `__proto__`.** -/
theorem not_hasId_proto (h : mergeDatabases local_db remote_db = .ok db)
    (hl : ∀ m ∈ markersOf local_db, ∃ X, IsReadmeMarker m X) :
    ∀ m ∈ markersOf db, ¬ HasId m "__proto__" := by
  obtain ⟨lm, rm, wus, waypoints, o₁, o₂, hlm, _, ho₁, ho₂, _, _, hdb⟩ := mergeDatabases_eq_ok h
  rw [markersOf_of_get hlm] at hl
  have husurped := usurped_addRemote ho₂ (usurped_addLocal ho₁ hl usurped_empty)
  rw [hdb]
  show ∀ m ∈ (Value.arr o₂.values).values, _
  rw [Value.values_arr]
  exact husurped.values

end

theorem mergeable_of_own {db : Value} {ms : List Value} (h : db.own "markers" = some (.arr ms))
    (hms : ∀ m ∈ ms, ∃ X, HasId m X) : Mergeable db := by
  have hprop : db.prop "markers" = .arr ms := by
    rw [Value.prop, h]
    rfl
  refine ⟨by rw [hprop]; rfl, by rw [hprop]; rfl, ?_⟩
  rw [markersOf_of_own h]
  intro m hm
  obtain ⟨X, hX⟩ := hms m hm
  obtain ⟨hnull, htext⟩ := markerKey_ok_iff.mp hX.markerKey
  exact ⟨hnull, by rw [Value.printable, htext]; rfl⟩

/--
**Merging under arbitrary names.** On README-format databases with any string ids the
merge gets through, and it keeps every event, each once, and makes none up, exactly if
no local event has the id `__proto__` and every remote event with a built-in name for an
id is already there.
-/
theorem keepsAll_iff {local_db remote_db : Value} {lms rms : List Value}
    (hl : local_db.own "markers" = some (.arr lms))
    (hr : remote_db.own "markers" = some (.arr rms))
    (hlms : ∀ m ∈ lms, ∃ X, IsReadmeMarker m X) (hrms : ∀ m ∈ rms, ∃ X, IsReadmeMarker m X) :
    ∃ ms, mergeDatabases local_db remote_db = .ok (.obj [("wus", local_db.prop "wus"),
          ("markers", .arr ms), ("waypoints", local_db.prop "waypoints")])
      ∧ (KeepsAll lms rms ms ↔ (∀ m ∈ lms, ¬ HasId m "__proto__")
        ∧ ∀ r ∈ rms, ∀ X ∈ objectPrototype, HasId r X → ∃ m ∈ lms, HasId m X) := by
  have hlids : ∀ m ∈ lms, ∃ X, HasId m X := fun m hm => (hlms m hm).imp fun _ h => h.hasId
  have hrids : ∀ m ∈ rms, ∃ X, HasId m X := fun m hm => (hrms m hm).imp fun _ h => h.hasId
  obtain ⟨db, hmerge⟩ := mergeDatabases_ok_iff.mpr
    ⟨mergeable_of_own hl hlids, mergeable_of_own hr hrids⟩
  obtain ⟨ms, rfl⟩ := mergeDatabases_shape hmerge
  refine ⟨ms, hmerge, ?_⟩
  have hms : markersOf (.obj [("wus", local_db.prop "wus"), ("markers", .arr ms),
      ("waypoints", local_db.prop "waypoints")]) = ms := markersOf_of_own rfl
  by_cases hp : ∀ m ∈ lms, ¬ HasId m "__proto__"
  · rw [and_iff_right hp]
    have hnoproto : NoProto (markersOf local_db) := by
      rw [markersOf_of_own hl]
      intro m hm hk
      obtain ⟨X, hX⟩ := hlids m hm
      exact hp m hm (hasId_of_markerKey hX hk)
    have hiff := keepsAll_iff_of_noProto hmerge (by rwa [markersOf_of_own hl])
      (by rwa [markersOf_of_own hr]) hnoproto
    rwa [markersOf_of_own hl, markersOf_of_own hr, hms] at hiff
  · refine iff_of_false ?_ (fun h => hp h.1)
    intro hf
    refine hp ?_
    intro m hm hid
    -- it should be listed, and is not
    obtain ⟨x, hx, hxid⟩ := (hf.union "__proto__").mpr (Or.inl ⟨m, hm, hid⟩)
    refine not_hasId_proto hmerge (by rwa [markersOf_of_own hl]) x ?_ hxid
    rwa [hms]

/-- The README's event under another id. -/
def eventNamed (X : String) : Value := readmeMarker.set "id" (.str X)

theorem keys_eventNamed (X : String) : (eventNamed X).entries.map Prod.fst
    = ["latlng", "id", "timestamp", "validated", "reported", "type"] := rfl

theorem isReadmeMarker_eventNamed (X : String) : IsReadmeMarker (eventNamed X) X where
  marker :=
    { latlng := ⟨_, rfl, isLatLng_latLng _ _⟩, type := ⟨_, rfl⟩, validated := ⟨_, rfl⟩,
      reported := ⟨_, rfl⟩, id := rfl, timestamp := ⟨_, rfl⟩ }
  fields := by
    have hkeys : ∀ k ∈ (eventNamed X).entries.map Prod.fst, k ∈ markerFields := by
      rw [keys_eventNamed]
      decide
    exact fun e he => hkeys e.1 (List.mem_map_of_mem he)
  distinct := by
    rw [keys_eventNamed]
    decide
  latlng := by
    intro p hp
    obtain rfl := Option.some.inj hp
    have hkeys : ∀ k ∈ (latLng "-38.689217299999996" "-62.2506036").entries.map Prod.fst,
        k ∈ ["lat", "lng"] := fun _ hk => hk
    exact fun e he => hkeys e.1 (List.mem_map_of_mem he)

/-- The README's database with other events. -/
def databaseOf (ms : List Value) : Value := readmeDatabase.set "markers" (.arr ms)

/-- An id that is no name of anything. -/
theorem keepsAll_iff_of_new :
    ∃ ms, mergeDatabases (databaseOf [eventNamed "1"]) (databaseOf [eventNamed "a b"])
        = .ok (.obj [("wus", (databaseOf [eventNamed "1"]).prop "wus"), ("markers", .arr ms),
          ("waypoints", (databaseOf [eventNamed "1"]).prop "waypoints")])
      ∧ (KeepsAll [eventNamed "1"] [eventNamed "a b"] ms
        ↔ (∀ m ∈ [eventNamed "1"], ¬ HasId m "__proto__")
          ∧ ∀ r ∈ [eventNamed "a b"], ∀ X ∈ objectPrototype, HasId r X →
            ∃ m ∈ [eventNamed "1"], HasId m X) :=
  keepsAll_iff rfl rfl (List.forall_mem_singleton.mpr ⟨_, isReadmeMarker_eventNamed _⟩)
    (List.forall_mem_singleton.mpr ⟨_, isReadmeMarker_eventNamed _⟩)

/-- **The code drops an event**: one whose id is a name every object answers for. -/
theorem constructor_is_dropped :
    mergeDatabases (databaseOf []) (databaseOf [eventNamed "constructor"]) = .ok (databaseOf [])
      ∧ ¬ KeepsAll [] [eventNamed "constructor"] [] := by
  refine ⟨rfl, ?_⟩
  intro h
  obtain ⟨m, hm, _⟩ := (h.union "constructor").mpr (Or.inr ⟨_, List.mem_cons_self, rfl⟩)
  cases hm

end EssApp.WebSocketServer
