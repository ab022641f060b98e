import EssApp.Js.Object

/-!
# `mergeDatabases`

The merge of the server, over whatever `JSON.parse` returned. Nothing is assumed
of the two databases: a missing list, a list that is not a list, elements that
are not objects and ids that are not strings all go where the source sends them,
into an exception or into the result.

`mergeDatabases_ok_iff` says which databases get through. `Filed` is the
invariant of the lookup object when no local marker is filed under `__proto__`:
every marker sits under its own id, each id once. From it come the two facts the
rest of the development uses: what is local stays, and a remote marker gets in
only where nothing was.
-/

namespace EssApp.WebSocketServer

open Js

/-- The name a marker is filed under: `m.id`, as a property name. -/
def markerKey (m : Value) : Except Exn String := do
  (← m.get "id").toText

/-- The text of `db.markers.length`, which the debug lines print. -/
def printLength (markers : Value) : Except Exn String := do
  (← markers.get "length").toText

/-- First loop: file a local marker. -/
def addLocal (newMarkerList : PlainObject) (m : Value) : Except Exn PlainObject := do
  let id ← markerKey m
  return newMarkerList.assign id m

/-- Second loop: file a remote marker if its name answers falsely, and mark it validated. -/
def addRemote (newMarkerList : PlainObject) (m : Value) : Except Exn PlainObject := do
  let id ← markerKey m
  -- the lookup answers for own, inherited and built-in names alike
  if !(newMarkerList.get id).truthy then
    return newMarkerList.assign id (m.set "validated" (.bool true))
  else
    return newMarkerList

def mergeDatabases (local_db remote_db : Value) : Except Exn Value := do
  -- the debug lines read both lengths, the remote one first
  let remote_markers ← remote_db.get "markers"
  let _ ← printLength remote_markers
  let local_markers ← local_db.get "markers"
  let _ ← printLength local_markers
  let newMarkerList ← local_markers.values.foldlM addLocal {}
  let newMarkerList ← remote_markers.values.foldlM addRemote newMarkerList
  let wus ← local_db.get "wus"
  let waypoints ← local_db.get "waypoints"
  return .obj [("wus", wus), ("markers", .arr newMarkerList.values), ("waypoints", waypoints)]

/-! ## Which databases get through -/

theorem markerKey_ok_iff {m : Value} {k : String} :
    markerKey m = .ok k ↔ m.isNullish = false ∧ (m.prop "id").toStr = some k :=
  Value.getText_ok_iff

theorem printLength_ok_iff {ms : Value} {n : String} :
    printLength ms = .ok n ↔ ms.isNullish = false ∧ (ms.prop "length").toStr = some n :=
  Value.getText_ok_iff

/-- The elements `for (k in db.markers)` visits. -/
def markersOf (db : Value) : List Value := (db.prop "markers").values

/-- No element is `null`, and every id can be turned into text. -/
def Fileable (ms : List Value) : Prop :=
  ∀ m ∈ ms, m.isNullish = false ∧ (m.prop "id").printable = true

/--
The merge can read `db`: it has a `markers` property other than `null`, the
`length` of which can be printed, and whose elements are fileable.
-/
structure Mergeable (db : Value) : Prop where
  markers : (db.prop "markers").isNullish = false
  length : ((db.prop "markers").prop "length").printable = true
  elements : Fileable (markersOf db)

theorem fileable_cons {m : Value} {ms : List Value} :
    Fileable (m :: ms) ↔ (∃ k, markerKey m = .ok k) ∧ Fileable ms := by
  rw [Fileable, List.forall_mem_cons]
  refine and_congr_left fun _ => ?_
  simp only [markerKey_ok_iff, Value.printable, Option.isSome_iff_exists, exists_and_left]

theorem fileable_nil : Fileable [] := fun _ h => absurd h (by simp)

/-- A loop that only needs its elements' names gets through a list exactly if it is fileable. -/
theorem foldlM_ok_iff {f : PlainObject → Value → Except Exn PlainObject}
    (hf : ∀ o m, (∃ o', f o m = .ok o') ↔ ∃ k, markerKey m = .ok k)
    {ms : List Value} {o : PlainObject} :
    (∃ o', ms.foldlM f o = .ok o') ↔ Fileable ms := by
  induction ms generalizing o with
  | nil => exact ⟨fun _ => fileable_nil, fun _ => ⟨o, rfl⟩⟩
  | cons m ms ih =>
      rw [List.foldlM_cons, fileable_cons]
      constructor
      · rintro ⟨o', h⟩
        obtain ⟨o₁, h₁, hrest⟩ := bind_ok_iff.mp h
        exact ⟨(hf o m).mp ⟨o₁, h₁⟩, ih.mp ⟨o', hrest⟩⟩
      · rintro ⟨hk, hms⟩
        obtain ⟨o₁, h₁⟩ := (hf o m).mpr hk
        obtain ⟨o', hrest⟩ := ih.mpr hms
        exact ⟨o', bind_ok_iff.mpr ⟨o₁, h₁, hrest⟩⟩

theorem addLocal_ok_iff (o : PlainObject) (m : Value) :
    (∃ o', addLocal o m = .ok o') ↔ ∃ k, markerKey m = .ok k := by
  constructor
  · rintro ⟨o', h⟩
    obtain ⟨k, hk, _⟩ := bind_ok_iff.mp h
    exact ⟨k, hk⟩
  · rintro ⟨k, hk⟩
    exact ⟨_, bind_ok_iff.mpr ⟨k, hk, rfl⟩⟩

theorem addRemote_ok {o : PlainObject} {m : Value} {k : String} (hk : markerKey m = .ok k) :
    addRemote o m = .ok (if (o.get k).truthy then o
      else o.assign k (m.set "validated" (.bool true))) := by
  rw [addRemote, hk]
  show (if !(o.get k).truthy then pure _ else pure o : Except Exn PlainObject) = _
  cases (o.get k).truthy <;> rfl

theorem addRemote_ok_iff (o : PlainObject) (m : Value) :
    (∃ o', addRemote o m = .ok o') ↔ ∃ k, markerKey m = .ok k := by
  constructor
  · rintro ⟨o', h⟩
    obtain ⟨k, hk, _⟩ := bind_ok_iff.mp h
    exact ⟨k, hk⟩
  · rintro ⟨k, hk⟩
    exact ⟨_, addRemote_ok hk⟩

/-- What has a `markers` property can be read. -/
theorem Mergeable.not_nullish {db : Value} (h : Mergeable db) : db.isNullish = false := by
  cases db with
  | undefined => exact absurd h.markers (by decide)
  | null => exact absurd h.markers (by decide)
  | _ => rfl

/-- The parts a merge that gets through went through. -/
theorem mergeDatabases_eq_ok {local_db remote_db db : Value}
    (h : mergeDatabases local_db remote_db = .ok db) :
    ∃ (lm rm wus waypoints : Value) (o₁ o₂ : PlainObject),
      local_db.get "markers" = .ok lm ∧ remote_db.get "markers" = .ok rm
        ∧ lm.values.foldlM addLocal {} = .ok o₁ ∧ rm.values.foldlM addRemote o₁ = .ok o₂
        ∧ local_db.get "wus" = .ok wus ∧ local_db.get "waypoints" = .ok waypoints
        ∧ db = .obj [("wus", wus), ("markers", .arr o₂.values), ("waypoints", waypoints)] := by
  unfold mergeDatabases at h
  obtain ⟨rm, hrm, h⟩ := bind_ok_iff.mp h
  obtain ⟨_, _, h⟩ := bind_ok_iff.mp h
  obtain ⟨lm, hlm, h⟩ := bind_ok_iff.mp h
  obtain ⟨_, _, h⟩ := bind_ok_iff.mp h
  obtain ⟨o₁, ho₁, h⟩ := bind_ok_iff.mp h
  obtain ⟨o₂, ho₂, h⟩ := bind_ok_iff.mp h
  obtain ⟨wus, hw, h⟩ := bind_ok_iff.mp h
  obtain ⟨waypoints, hp, h⟩ := bind_ok_iff.mp h
  exact ⟨lm, rm, wus, waypoints, o₁, o₂, hlm, hrm, ho₁, ho₂, hw, hp, (Except.ok.inj h).symm⟩

/-- **The merge completes exactly on two databases it can read.** -/
theorem mergeDatabases_ok_iff {local_db remote_db : Value} :
    (∃ db, mergeDatabases local_db remote_db = .ok db)
      ↔ Mergeable local_db ∧ Mergeable remote_db := by
  constructor
  · rintro ⟨db, h⟩
    unfold mergeDatabases at h
    obtain ⟨rm, hrm, h⟩ := bind_ok_iff.mp h
    obtain ⟨nr, hnr, h⟩ := bind_ok_iff.mp h
    obtain ⟨lm, hlm, h⟩ := bind_ok_iff.mp h
    obtain ⟨nl, hnl, h⟩ := bind_ok_iff.mp h
    obtain ⟨o₁, ho₁, h⟩ := bind_ok_iff.mp h
    obtain ⟨o₂, ho₂, _⟩ := bind_ok_iff.mp h
    obtain ⟨_, rfl⟩ := Value.get_ok_iff.mp hrm
    obtain ⟨_, rfl⟩ := Value.get_ok_iff.mp hlm
    obtain ⟨hl1, hl2⟩ := printLength_ok_iff.mp hnl
    obtain ⟨hr1, hr2⟩ := printLength_ok_iff.mp hnr
    exact ⟨⟨hl1, by rw [Value.printable, hl2]; rfl, (foldlM_ok_iff addLocal_ok_iff).mp ⟨o₁, ho₁⟩⟩,
      ⟨hr1, by rw [Value.printable, hr2]; rfl, (foldlM_ok_iff addRemote_ok_iff).mp ⟨o₂, ho₂⟩⟩⟩
  · rintro ⟨hl, hr⟩
    obtain ⟨nl, hnl⟩ := Option.isSome_iff_exists.mp hl.length
    obtain ⟨nr, hnr⟩ := Option.isSome_iff_exists.mp hr.length
    obtain ⟨o₁, ho₁⟩ := (foldlM_ok_iff addLocal_ok_iff (o := {})).mpr hl.elements
    obtain ⟨o₂, ho₂⟩ := (foldlM_ok_iff addRemote_ok_iff (o := o₁)).mpr hr.elements
    have hlocal := Value.get_eq hl.not_nullish
    have hremote := Value.get_eq hr.not_nullish
    refine ⟨_, bind_ok_iff.mpr ⟨_, hremote _, bind_ok_iff.mpr ⟨nr,
      printLength_ok_iff.mpr ⟨hr.markers, hnr⟩, bind_ok_iff.mpr ⟨_, hlocal _,
      bind_ok_iff.mpr ⟨nl, printLength_ok_iff.mpr ⟨hl.markers, hnl⟩, bind_ok_iff.mpr ⟨o₁, ho₁,
      bind_ok_iff.mpr ⟨o₂, ho₂, bind_ok_iff.mpr ⟨_, hlocal _,
      bind_ok_iff.mpr ⟨_, hlocal _, rfl⟩⟩⟩⟩⟩⟩⟩⟩⟩

/-! ## The lookup object, when nothing is filed under `__proto__` -/

/-- Every marker sits under its own id, each id once, on an object with its own prototype. -/
structure Filed (o : PlainObject) : Prop where
  /-- The prototype was never replaced. -/
  tame : o.Tame
  /-- A marker's name is its id. -/
  keyed : ∀ e ∈ o.own, markerKey e.2 = .ok e.1
  /-- No name twice. -/
  nodup : (o.own.map Prod.fst).Nodup
  /-- The setter is never shadowed. -/
  noProto : Table.get o.own "__proto__" = none

theorem filed_empty : Filed {} := ⟨PlainObject.tame_empty, by simp, by simp, rfl⟩

theorem Filed.assign {o : PlainObject} (h : Filed o) {k : String} {m : Value}
    (hk : markerKey m = .ok k) (hne : k ≠ "__proto__") : Filed (o.assign k m) := by
  rw [PlainObject.assign_of_ne hne]
  have hput := put_putProp o.own k m
  refine ⟨h.tame, fun e he => ?_, hput.nodup h.nodup, (hput.get_ne (Ne.symm hne)).trans h.noProto⟩
  rcases hput.mem he with rfl | ⟨he', _⟩
  · exact hk
  · exact h.keyed e he'

theorem markerKey_set_validated (m x : Value) :
    markerKey (m.set "validated" x) = markerKey m := by
  simp only [markerKey, Value.get_set_ne m x (show "id" ≠ "validated" by decide)]

/-- **One local marker** is filed under its name, and no other name is lost. -/
theorem addLocal_step {o o' : PlainObject} {m : Value} {k : String} (ho : Filed o)
    (hk : markerKey m = .ok k) (hne : k ≠ "__proto__") (h : addLocal o m = .ok o') :
    Filed o' ∧ (∀ e ∈ o'.own, e ∈ o.own ∨ e = (k, m)) ∧ (Table.get o'.own k).isSome
      ∧ ∀ j, (Table.get o.own j).isSome → (Table.get o'.own j).isSome := by
  obtain ⟨_, hk', h⟩ := bind_ok_iff.mp h
  obtain rfl := Except.ok.inj (hk.symm.trans hk')
  obtain rfl := Except.ok.inj h
  have hput := put_putProp o.own k m
  have hown : (o.assign k m).own = putProp o.own k m := by rw [PlainObject.assign_of_ne hne]
  have hself : (Table.get (o.assign k m).own k).isSome := by
    rw [hown, hput.get_self]
    rfl
  refine ⟨ho.assign hk hne, ?_, hself, ?_⟩
  · intro e he
    rw [hown] at he
    rcases hput.mem he with rfl | ⟨he, _⟩
    · exact Or.inr rfl
    · exact Or.inl he
  · intro j hj
    by_cases hjk : j = k
    · exact hjk ▸ hself
    · rwa [hown, hput.get_ne hjk]

/-- **First loop.** The table holds local markers only, one under every local name. -/
theorem addLocal_spec {ms : List Value} {o o' : PlainObject} (h : ms.foldlM addLocal o = .ok o')
    (hp : ∀ m ∈ ms, markerKey m ≠ .ok "__proto__") (ho : Filed o) :
    Filed o' ∧ (∀ e ∈ o'.own, e ∈ o.own ∨ e.2 ∈ ms)
      ∧ (∀ k, (Table.get o.own k).isSome → (Table.get o'.own k).isSome)
      ∧ ∀ m ∈ ms, ∀ k, markerKey m = .ok k → (Table.get o'.own k).isSome := by
  induction ms generalizing o with
  | nil =>
      have : o = o' := Except.ok.inj h
      subst this
      exact ⟨ho, fun e he => Or.inl he, fun k hk => hk, fun m hm => absurd hm (by simp)⟩
  | cons m ms ih =>
      rw [List.foldlM_cons] at h
      obtain ⟨o₁, h1, h⟩ := bind_ok_iff.mp h
      obtain ⟨k, hk, _⟩ := bind_ok_iff.mp h1
      have hne : k ≠ "__proto__" := fun he => hp m List.mem_cons_self (he ▸ hk)
      obtain ⟨hfiled, hown, hself, hkeep⟩ := addLocal_step ho hk hne h1
      obtain ⟨g1, g2, g3, g4⟩ := ih h (fun x hx => hp x (List.mem_cons_of_mem _ hx)) hfiled
      refine ⟨g1, ?_, fun j hj => g3 j (hkeep j hj), ?_⟩
      · intro e he
        rcases g2 e he with h' | h'
        · rcases hown e h' with h' | rfl
          · exact Or.inl h'
          · exact Or.inr List.mem_cons_self
        · exact Or.inr (List.mem_cons_of_mem _ h')
      · intro x hx k' hk'
        rcases List.mem_cons.mp hx with rfl | hx'
        · rw [hk] at hk'
          exact Except.ok.inj hk' ▸ g3 k hself
        · exact g4 x hx' k' hk'

/--
**One remote marker.** If its name answers nothing changes, and otherwise the marker,
marked validated, is filed under it; no other name answers differently.
-/
theorem addRemote_step {o o' : PlainObject} {m : Value} {k : String} (ho : Filed o)
    (hk : markerKey m = .ok k) (h : addRemote o m = .ok o') :
    Filed o' ∧ (∀ e ∈ o'.own, e ∈ o.own
          ∨ ((o.get k).truthy = false ∧ e = (k, m.set "validated" (.bool true))))
      ∧ (∀ j x, Table.get o.own j = some x → x.truthy = true → Table.get o'.own j = some x)
      ∧ ∀ j, (o'.get j).truthy = false → (o.get j).truthy = false := by
  rw [addRemote_ok hk] at h
  obtain rfl := Except.ok.inj h
  by_cases ht : (o.get k).truthy = true
  · rw [if_pos ht]
    exact ⟨ho, fun e he => Or.inl he, fun j x hj _ => hj, fun j hj => hj⟩
  · rw [if_neg ht]
    have hf : (o.get k).truthy = false := by simpa using ht
    have hne : k ≠ "__proto__" := ho.tame.ne_proto_of_falsy ho.noProto hf
    have hput := put_putProp o.own k (m.set "validated" (.bool true))
    have hown : (o.assign k (m.set "validated" (.bool true))).own
        = putProp o.own k (m.set "validated" (.bool true)) := by
      rw [PlainObject.assign_of_ne hne]
    refine ⟨ho.assign ((markerKey_set_validated m _).trans hk) hne, ?_, ?_, ?_⟩
    · intro e he
      rw [hown] at he
      rcases hput.mem he with rfl | ⟨he, _⟩
      · exact Or.inr ⟨hf, rfl⟩
      · exact Or.inl he
    · intro j x hj hx
      -- the name written to was not one that answered
      have hjk : j ≠ k := by
        intro he
        subst he
        rw [PlainObject.get_of_own hj] at hf
        exact absurd (hx.symm.trans hf) (by simp)
      rw [hown, hput.get_ne hjk]
      exact hj
    · intro j hj
      by_cases hjk : j = k
      · exact hjk ▸ hf
      · rwa [PlainObject.get_assign_ne hne hjk] at hj

/--
**Second loop.** What was filed truthily stays as it is; whatever else the table
holds is a remote marker, marked validated, filed where the first table answered
falsely.
-/
theorem addRemote_spec {ms : List Value} {o o' : PlainObject} (h : ms.foldlM addRemote o = .ok o')
    (ho : Filed o) :
    Filed o' ∧ (∀ e ∈ o'.own, e ∈ o.own ∨ ((o.get e.1).truthy = false
          ∧ ∃ m ∈ ms, markerKey m = .ok e.1 ∧ e.2 = m.set "validated" (.bool true)))
      ∧ (∀ k x, Table.get o.own k = some x → x.truthy = true → Table.get o'.own k = some x) := by
  induction ms generalizing o with
  | nil =>
      have : o = o' := Except.ok.inj h
      subst this
      exact ⟨ho, fun e he => Or.inl he, fun k x hk _ => hk⟩
  | cons m ms ih =>
      rw [List.foldlM_cons] at h
      obtain ⟨o₁, h1, h⟩ := bind_ok_iff.mp h
      obtain ⟨k, hk, _⟩ := bind_ok_iff.mp h1
      obtain ⟨hfiled, hown, hkeep, hfalsy⟩ := addRemote_step ho hk h1
      obtain ⟨g1, g2, g3⟩ := ih h hfiled
      refine ⟨g1, ?_, fun j x hj hx => g3 j x (hkeep j x hj hx) hx⟩
      intro e he
      rcases g2 e he with h' | ⟨hf, x, hx, hxk, hxe⟩
      · rcases hown e h' with h' | ⟨hf, rfl⟩
        · exact Or.inl h'
        · exact Or.inr ⟨hf, m, List.mem_cons_self, hk, rfl⟩
      · -- a name that answers falsely after the write answered falsely before it
        exact Or.inr ⟨hfalsy _ hf, x, List.mem_cons_of_mem _ hx, hxk, hxe⟩

/-! ## What a merge returns, as far as its markers go -/

/-- Some marker of the list is filed under `k`, and every one that is makes the name answer. -/
def Held (ms : List Value) (k : String) : Prop :=
  (∃ m ∈ ms, markerKey m = .ok k) ∧ ∀ m ∈ ms, markerKey m = .ok k → m.truthy = true

/-- No marker of the list is filed under `__proto__`. -/
def NoProto (ms : List Value) : Prop := ∀ m ∈ ms, markerKey m ≠ .ok "__proto__"

theorem markersOf_of_get {db ms : Value} (h : db.get "markers" = .ok ms) :
    markersOf db = ms.values := by
  rw [markersOf, (Value.get_ok_iff.mp h).2]

/-- What `mergeDatabases` returns holds the lists `wus` and `waypoints` of the local database. -/
theorem mergeDatabases_shape {local_db remote_db db : Value}
    (h : mergeDatabases local_db remote_db = .ok db) :
    ∃ ms : List Value, db = .obj [("wus", local_db.prop "wus"), ("markers", .arr ms),
      ("waypoints", local_db.prop "waypoints")] := by
  obtain ⟨_, _, wus, waypoints, _, o₂, _, _, _, _, hw, hp, hdb⟩ := mergeDatabases_eq_ok h
  refine ⟨o₂.values, ?_⟩
  rw [hdb, (Value.get_ok_iff.mp hw).2, (Value.get_ok_iff.mp hp).2]

section Loops

variable {local_db remote_db db : Value}

/-- The lookup object between the two loops of a merge, and behind them. -/
structure Loops (local_db remote_db db : Value) (o₁ o₂ : PlainObject) : Prop where
  loop₁ : (markersOf local_db).foldlM addLocal {} = .ok o₁
  filed₁ : Filed o₁
  /-- The first loop files local markers only, -/
  locals : ∀ e ∈ o₁.own, e.2 ∈ markersOf local_db
  /-- and one under each name. -/
  named : ∀ m ∈ markersOf local_db, ∀ k, markerKey m = .ok k → (Table.get o₁.own k).isSome
  loop₂ : (markersOf remote_db).foldlM addRemote o₁ = .ok o₂
  filed₂ : Filed o₂
  result : markersOf db = o₂.own.map Prod.snd

theorem exists_loops (h : mergeDatabases local_db remote_db = .ok db)
    (hp : NoProto (markersOf local_db)) : ∃ o₁ o₂, Loops local_db remote_db db o₁ o₂ := by
  obtain ⟨lm, rm, wus, waypoints, o₁, o₂, hlm, hrm, ho₁, ho₂, _, _, hdb⟩ := mergeDatabases_eq_ok h
  rw [← markersOf_of_get hlm] at ho₁
  rw [← markersOf_of_get hrm] at ho₂
  obtain ⟨f1, f2, _, f4⟩ := addLocal_spec ho₁ hp filed_empty
  obtain ⟨g1, _, _⟩ := addRemote_spec ho₂ f1
  refine ⟨o₁, o₂, ho₁, f1, ?_, f4, ho₂, g1, ?_⟩
  · intro e he
    exact (f2 e he).resolve_left List.not_mem_nil
  · rw [hdb]
    show (Value.arr o₂.values).values = _
    rw [Value.values_arr, g1.tame.values_eq]

namespace Loops

variable {o₁ o₂ : PlainObject} (t : Loops local_db remote_db db o₁ o₂)
include t

/-- What is held is filed, truthily, by the first loop. -/
theorem filed_of_held {k : String} (hk : Held (markersOf local_db) k) :
    ∃ x, Table.get o₁.own k = some x ∧ x.truthy = true ∧ x ∈ markersOf local_db
      ∧ markerKey x = .ok k := by
  obtain ⟨⟨m, hm, hmk⟩, hall⟩ := hk
  obtain ⟨x, hx⟩ := Option.isSome_iff_exists.mp (t.named m hm k hmk)
  have he := Table.mem_of_get hx
  have hxl : x ∈ markersOf local_db := t.locals _ he
  have hxk : markerKey x = .ok k := t.filed₁.keyed _ he
  exact ⟨x, hx, hall x hxl hxk, hxl, hxk⟩

/-- Each marker has a name of its own. -/
theorem nodup : ((markersOf db).map markerKey).Nodup := by
  have hkeys : (o₂.own.map Prod.snd).map markerKey = (o₂.own.map Prod.fst).map Except.ok := by
    rw [List.map_map, List.map_map]
    exact List.map_congr_left (fun e he => t.filed₂.keyed e he)
  rw [t.result, hkeys]
  exact t.filed₂.nodup.map (fun a b hab => Except.ok.inj hab)

/-- Where a marker of the result is from, and what its name answered between the loops. -/
theorem origin {m : Value} (hm : m ∈ markersOf db) :
    m ∈ markersOf local_db ∨ ∃ r ∈ markersOf remote_db, ∃ k, markerKey r = .ok k
      ∧ m = r.set "validated" (.bool true) ∧ (o₁.get k).truthy = false := by
  obtain ⟨_, g2, _⟩ := addRemote_spec t.loop₂ t.filed₁
  rw [t.result] at hm
  obtain ⟨e, he, rfl⟩ := List.mem_map.mp hm
  rcases g2 e he with h' | ⟨hf, r, hr, hrk, hre⟩
  · exact Or.inl (t.locals e h')
  · exact Or.inr ⟨r, hr, e.1, hrk, hre, hf⟩

end Loops

/--
**The merge, marker by marker.** With no local marker under `__proto__`, the
result files each marker under a name of its own; each is a local marker, or a
remote one marked validated whose name was not held; and every name that was
held still is, by a local marker.
-/
theorem mergeDatabases_markers (h : mergeDatabases local_db remote_db = .ok db)
    (hp : NoProto (markersOf local_db)) :
    ((markersOf db).map markerKey).Nodup
      ∧ (∀ m ∈ markersOf db, m ∈ markersOf local_db ∨ ∃ r ∈ markersOf remote_db, ∃ k,
          markerKey r = .ok k ∧ m = r.set "validated" (.bool true)
            ∧ ¬ Held (markersOf local_db) k)
      ∧ ∀ k, Held (markersOf local_db) k →
          ∃ m ∈ markersOf db, m ∈ markersOf local_db ∧ markerKey m = .ok k := by
  obtain ⟨o₁, o₂, t⟩ := exists_loops h hp
  refine ⟨t.nodup, ?_, ?_⟩
  · intro m hm
    refine (t.origin hm).imp_right ?_
    rintro ⟨r, hr, k, hrk, hre, hf⟩
    refine ⟨r, hr, k, hrk, hre, ?_⟩
    -- a held name answers, so it let no remote marker in
    intro hk
    obtain ⟨x, hx, hxt, _, _⟩ := t.filed_of_held hk
    rw [PlainObject.get_of_own hx] at hf
    exact absurd (hxt.symm.trans hf) (by simp)
  · intro k hk
    obtain ⟨x, hx, hxt, hxl, hxk⟩ := t.filed_of_held hk
    obtain ⟨_, _, g3⟩ := addRemote_spec t.loop₂ t.filed₁
    refine ⟨x, ?_, hxl, hxk⟩
    rw [t.result]
    exact List.mem_map_of_mem (f := Prod.snd) (Table.mem_of_get (g3 k x hx hxt))

end Loops

end EssApp.WebSocketServer
