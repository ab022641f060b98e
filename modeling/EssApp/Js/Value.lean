import EssApp.Lib.Table

/-!
# JavaScript values, as far as JSON can carry them

The values a program can hold when all its data came out of `JSON.parse`, and the
operations it can apply to one without knowing its shape: a truth test, a
conversion to a property name, a property read, a property write, a `for…in`.

Three conventions keep this exact.

* A number is the text `Number.prototype.toString` gives it. No arithmetic is
  modelled; numbers are copied, tested for truth and turned into text, and the
  text determines all three.
* An object is the list of its own properties in the order an enumeration visits
  them: array indices first, ascending, then the other names as they were created.
* A string is indexed and enumerated by its characters, so one outside the basic plane
  counts once here and twice in JavaScript. It shows where a program enumerates a text
  as if it were a list, or asks for its length.

Reading a property of `undefined` or `null` throws; so does turning an object
into text when an own `toString` property, which cannot be a function, hides the
inherited one.
-/

namespace Js

/-- What a failing operation throws. -/
inductive Exn where
  | syntaxError
  | typeError
  | systemError
  deriving DecidableEq, Repr

theorem bind_ok_iff {α β : Type} {x : Except Exn α} {f : α → Except Exn β} {r : β} :
    (x >>= f) = .ok r ↔ ∃ a, x = .ok a ∧ f a = .ok r := by
  cases x with
  | error e => exact ⟨fun h => (by cases h), fun ⟨_, h, _⟩ => (by cases h)⟩
  | ok a => exact ⟨fun h => ⟨a, rfl, h⟩, fun ⟨b, hb, h⟩ => Except.ok.inj hb ▸ h⟩

/-- A number, named by the text `Number.prototype.toString` gives it. -/
structure Number where
  text : String
  deriving DecidableEq, Repr

namespace Number

def ofNat (n : Nat) : Number := ⟨toString n⟩

/-- Whether JSON has a notation for it. -/
def finite (n : Number) : Bool := n.text ∉ ["Infinity", "-Infinity", "NaN"]

def truthy (n : Number) : Bool := n.text ∉ ["0", "NaN"]

end Number

inductive Value where
  | undefined
  | null
  | bool (b : Bool)
  | num (n : Number)
  | str (s : String)
  | arr (elems : List Value)
  | obj (props : List (String × Value))

/-- The array index a property name denotes, if it is one. -/
def arrayIndex? (k : String) : Option Nat :=
  match k.toList with
  | [] => none
  | ['0'] => some 0
  -- no other index is written with a leading zero
  | '0' :: _ => none
  | cs =>
      -- 2^32 - 1 itself is a length, not an index
      if cs.all Char.isDigit then
        let n := cs.foldl (fun n c => 10 * n + (c.toNat - '0'.toNat)) 0
        if n < UInt32.size - 1 then some n else none
      else none

/-- Where a new property goes among the own properties. -/
def insertProp {ν : Type} (k : String) (v : ν) (ps : List (String × ν)) : List (String × ν) :=
  match arrayIndex? k with
  | none => ps ++ [(k, v)]
  | some n =>
      -- indices stand before all other names, in ascending order
      let before : String × ν → Bool := fun p =>
        match arrayIndex? p.1 with
        | some m => m < n
        | none => false
      ps.takeWhile before ++ (k, v) :: ps.dropWhile before

/-- Bind a property: in place if it is there, else where its name puts it. -/
def putProp {ν : Type} (ps : List (String × ν)) (k : String) (v : ν) : List (String × ν) :=
  if (Table.get ps k).isSome then Table.replace ps k v else insertProp k v ps

namespace Value

def isNullish : Value → Bool
  | .undefined => true
  | .null => true
  | _ => false

/-- Whether the value has an identity: `typeof v === 'object' && v !== null`. -/
def isObject : Value → Bool
  | .arr _ => true
  | .obj _ => true
  | _ => false

def truthy : Value → Bool
  | .undefined => false
  | .null => false
  | .bool b => b
  | .num n => n.truthy
  | .str s => s ≠ ""
  | .arr _ => true
  | .obj _ => true

mutual

/-- The value as text; `none` when the conversion throws. -/
def toStr : Value → Option String
  | .undefined => some "undefined"
  | .null => some "null"
  | .bool b => some (if b then "true" else "false")
  | .num n => some n.text
  | .str s => some s
  | .arr es => (joinParts es).map (String.intercalate ",")
  | .obj ps => if (Table.get ps "toString").isSome then none else some "[object Object]"

/-- The parts `Array.prototype.join` puts together: a missing element counts as empty. -/
def joinParts : List Value → Option (List String)
  | [] => some []
  | e :: es =>
      (if e.isNullish then some "" else e.toStr).bind fun s =>
        (joinParts es).map (s :: ·)

end

/-- The value as text, which is also the property name it is used as. -/
def toText (v : Value) : Except Exn String :=
  match v.toStr with
  | some s => .ok s
  | none => .error .typeError

/-- An own property. -/
def own : Value → String → Option Value
  | .obj ps, k => Table.get ps k
  | .arr es, k =>
      if k = "length" then some (.num (.ofNat es.length)) else (arrayIndex? k).bind (es[·]?)
  | .str s, k =>
      if k = "length" then some (.num (.ofNat s.length))
      else (arrayIndex? k).bind fun i => (s.toList[i]?).map fun c => .str (String.singleton c)
  | _, _ => none

/-- What `v.k` is when reading it does not throw, for a `k` no built-in prototype has. -/
def prop (v : Value) (k : String) : Value := (v.own k).getD .undefined

/-- `v.k`, which throws on `undefined` and `null`. -/
def get (v : Value) (k : String) : Except Exn Value :=
  if v.isNullish then .error .typeError else .ok (v.prop k)

/-- Whether the value can be turned into text. -/
def printable (v : Value) : Bool := v.toStr.isSome

/-- What `for (k in v)` visits, each name with `v[k]`; a string's characters one by one. -/
def entries : Value → List (String × Value)
  | .obj ps => ps
  | .arr es => es.mapIdx fun i e => (toString i, e)
  | .str s => s.toList.mapIdx fun i c => (toString i, .str (String.singleton c))
  | _ => []

/-- The values `v[k]` a `for (k in v)` meets, in order. -/
def values (v : Value) : List Value := v.entries.map Prod.snd

/--
`v.k = x` in sloppy mode, for a `k` that is no array index. A primitive ignores
it, and an array takes it as a named property, which JSON does not see.
-/
def set : Value → String → Value → Value
  | .obj ps, k, x => .obj (putProp ps k x)
  | v, _, _ => v

/-- `v` with the object at `v[k]` changed by `f`. -/
def modify : Value → String → (Value → Value) → Value
  | .obj ps, k, f => .obj (ps.map fun p => if p.1 = k then (p.1, f p.2) else p)
  | .arr es, k, f => .arr (es.mapIdx fun i e => if toString i = k then f e else e)
  | v, _, _ => v

end Value

/-! ## Property writes are table writes -/

theorem put_putProp {ν : Type} (ps : List (String × ν)) (k : String) (v : ν) :
    Table.Put k v ps (putProp ps k v) := by
  unfold putProp
  split
  · exact .replace ‹_›
  · rename_i hn
    have hg : Table.get ps k = none := by simpa using hn
    unfold insertProp
    split
    · have := Table.Put.insert (a := ps) (b := []) (v := v) (by rw [List.append_nil]; exact hg)
      rwa [List.append_nil] at this
    · rename_i n _
      dsimp only
      generalize hb : (fun p : String × ν => match arrayIndex? p.1 with
        | some m => decide (m < n)
        | none => false) = before
      -- wherever the index puts it, the two parts around it are the old list
      have happ := List.takeWhile_append_dropWhile (p := before) (l := ps)
      have := Table.Put.insert (a := ps.takeWhile before) (b := ps.dropWhile before) (v := v)
        (by rw [happ]; exact hg)
      rwa [happ] at this

/-- A name that is no array index goes to the end. -/
theorem putProp_eq_set {ν : Type} {ps : List (String × ν)} {k : String} {v : ν}
    (hk : arrayIndex? k = none) : putProp ps k v = Table.set ps k v := by
  simp only [putProp, Table.set, insertProp, hk]

/-- Where a write goes depends on the names alone. -/
theorem map_putProp {ν μ : Type} (f : ν → μ) (ps : List (String × ν)) (k : String) (v : ν) :
    (putProp ps k v).map (Prod.map id f) = putProp (ps.map (Prod.map id f)) k (f v) := by
  have hget : ∀ ps : List (String × ν),
      Table.get (ps.map (Prod.map id f)) k = (Table.get ps k).map f := by
    intro ps
    induction ps with
    | nil => rfl
    | cons p ps ih =>
        obtain ⟨x, y⟩ := p
        rw [List.map_cons, Prod.map_apply, id_eq, Table.get_cons, Table.get_cons, ih]
        split <;> rfl
  have hreplace : (Table.replace ps k v).map (Prod.map id f)
      = Table.replace (ps.map (Prod.map id f)) k (f v) := by
    rw [Table.replace, Table.replace, List.map_map, List.map_map]
    refine List.map_congr_left ?_
    intro p _
    simp only [Function.comp_apply, Prod.map_apply, id_eq, apply_ite (Prod.map id f), Prod.map_fst]
  have hinsert : (insertProp k v ps).map (Prod.map id f)
      = insertProp k (f v) (ps.map (Prod.map id f)) := by
    unfold insertProp
    cases arrayIndex? k with
    | none => rw [List.map_append]; rfl
    | some n =>
        simp only [List.map_append, List.map_cons, List.takeWhile_map, List.dropWhile_map]
        rfl
  unfold putProp
  rw [hget, Option.isSome_map, apply_ite (List.map (Prod.map id f)), hreplace, hinsert]

/-- An object that is given these names in this order visits them in this order, each once. -/
def Enumerated (ks : List String) : Prop :=
  (ks.foldl (fun ps k => putProp ps k ()) []).map Prod.fst = ks

namespace Value

@[simp] theorem get_obj (ps : List (String × Value)) (k : String) :
    (Value.obj ps).get k = .ok ((Value.obj ps).prop k) := rfl

@[simp] theorem values_arr (es : List Value) : (Value.arr es).values = es :=
  List.ext_getElem (by simp [values, entries]) (by simp [values, entries])

theorem get_ok_iff {v x : Value} {k : String} :
    v.get k = .ok x ↔ v.isNullish = false ∧ v.prop k = x := by
  unfold Value.get
  split
  · rename_i h; simp [h]
  · rename_i h; simp [h]

/-- What is neither `undefined` nor `null` can be read. -/
theorem get_eq {v : Value} (h : v.isNullish = false) (k : String) : v.get k = .ok (v.prop k) :=
  get_ok_iff.mpr ⟨h, rfl⟩

/-- A property write changes that property and no other. -/
theorem own_set_obj (ps : List (String × Value)) (k k' : String) (x : Value) :
    ((Value.obj ps).set k x).own k' = if k' = k then some x else (Value.obj ps).own k' := by
  by_cases hk : k' = k
  · rw [if_pos hk, hk]
    exact (put_putProp ps k x).get_self
  · rw [if_neg hk]
    exact (put_putProp ps k x).get_ne hk

/-- Writing one property leaves the others of any value as they were. -/
theorem own_set_ne (v : Value) {k k' : String} (x : Value) (hk : k' ≠ k) :
    (v.set k x).own k' = v.own k' := by
  cases v with
  | obj ps => rw [own_set_obj, if_neg hk]
  | _ => rfl

theorem toText_ok_iff {v : Value} {t : String} : v.toText = .ok t ↔ v.toStr = some t := by
  unfold toText
  cases v.toStr with
  | none => simp
  | some s => simp

/-- Reading a property and turning it into text. -/
theorem getText_ok_iff {v : Value} {k t : String} :
    (do (← v.get k).toText) = .ok t ↔ v.isNullish = false ∧ (v.prop k).toStr = some t := by
  rw [bind_ok_iff]
  constructor
  · rintro ⟨x, h1, h2⟩
    obtain ⟨hn, rfl⟩ := get_ok_iff.mp h1
    exact ⟨hn, toText_ok_iff.mp h2⟩
  · rintro ⟨hn, hk⟩
    exact ⟨_, get_eq hn k, toText_ok_iff.mpr hk⟩

/-- A property that is neither an index nor a length belongs to an object. -/
theorem obj_of_own {v x : Value} {k : String} (h : v.own k = some x)
    (hk : arrayIndex? k = none) (hl : k ≠ "length") : ∃ ps, v = .obj ps := by
  cases v with
  | obj ps => exact ⟨ps, rfl⟩
  | arr es => simp [own, hk, hl] at h
  | str s => simp [own, hk, hl] at h
  | _ => cases h

/-- Reading a property an object has. -/
theorem get_of_own {ps : List (String × Value)} {k : String} {x : Value}
    (h : (Value.obj ps).own k = some x) : (Value.obj ps).get k = .ok x := by
  rw [get_obj, prop, h]
  rfl

theorem prop_set_ne (v : Value) {k k' : String} (x : Value) (hk : k' ≠ k) :
    (v.set k x).prop k' = v.prop k' := by
  rw [prop, own_set_ne v x hk]; rfl

theorem isNullish_set (v : Value) (k : String) (x : Value) :
    (v.set k x).isNullish = v.isNullish := by
  cases v <;> rfl

theorem get_set_ne (v : Value) {k k' : String} (x : Value) (hk : k' ≠ k) :
    (v.set k x).get k' = v.get k' := by
  unfold Value.get
  rw [isNullish_set, prop_set_ne v x hk]

/-- Changing the object at one property leaves the other properties as they were. -/
theorem own_modify_obj (ps : List (String × Value)) (k k' : String) (f : Value → Value) :
    ((Value.obj ps).modify k f).own k' =
      if k' = k then ((Value.obj ps).own k').map f else (Value.obj ps).own k' := by
  show Table.get (ps.map _) k' = if k' = k then (Table.get ps k').map f else Table.get ps k'
  induction ps with
  | nil => simp
  | cons p ps ih =>
      obtain ⟨x, y⟩ := p
      rw [List.map_cons]
      by_cases hx : x = k
      · rw [if_pos hx, Table.get_cons, Table.get_cons, ih]
        by_cases hk : x = k'
        · rw [if_pos hk, if_pos hk, if_pos (hk ▸ hx)]; rfl
        · rw [if_neg hk, if_neg hk]
      · rw [if_neg hx, Table.get_cons, Table.get_cons, ih]
        by_cases hk : x = k'
        · rw [if_pos hk, if_pos hk, if_neg (hk ▸ hx)]
        · rw [if_neg hk, if_neg hk]

theorem toString_injective {i j : Nat} (h : toString i = toString j) : i = j := by
  have h' : (Nat.repr i).toList = (Nat.repr j).toList := congrArg String.toList h
  rw [Nat.toList_repr, Nat.toList_repr] at h'
  have := congrArg (fun cs => Nat.ofDigitChars 10 cs 0) h'
  simpa using this

/-- An array element is changed where it stands. -/
theorem modify_arr (es : List Value) (i : Nat) (f : Value → Value) :
    (Value.arr es).modify (toString i) f = .arr (es.modify i f) := by
  show Value.arr (es.mapIdx _) = _
  congr 1
  refine List.ext_getElem (by simp) (fun j h1 h2 => ?_)
  rw [List.getElem_mapIdx, List.getElem_modify]
  by_cases hj : i = j
  · rw [if_pos hj, if_pos (by rw [hj])]
  · rw [if_neg hj, if_neg (fun h => hj (toString_injective h).symm)]

theorem truthy_of_isObject {v : Value} (h : v.isObject = true) : v.truthy = true := by
  cases v <;> first | rfl | exact absurd h (by simp [isObject])

theorem not_nullish_of_truthy {v : Value} (h : v.truthy = true) : v.isNullish = false := by
  cases v <;> first | rfl | exact absurd h (by simp [truthy])

end Value

example : (Value.obj [("1", .null), ("b", .null)]).set "07" .undefined
    = .obj [("1", .null), ("b", .null), ("07", .undefined)] := rfl

end Js
