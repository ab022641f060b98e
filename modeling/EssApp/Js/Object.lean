import EssApp.Js.Json

/-!
# A plain object used as a lookup table

`{}` is not an empty table. It answers for every name `Object.prototype` has, and
the name `__proto__` does not reach it at all: assigning to `o["__proto__"]` runs
a setter that replaces the object's prototype, whose properties the object then
answers for and enumerates as if they were its own.

`PlainObject` keeps the two things such an object consists of, its own properties
and its prototype, and `get`, `assign` and `entries` follow `OrdinaryGet`,
`OrdinarySet` and `for…in`. `Tame` is the condition under which it *is* a table:
the prototype has never been replaced.
-/

namespace Js

/-- The names every object answers for. -/
def objectPrototype : List String :=
  ["constructor", "__defineGetter__", "__defineSetter__", "hasOwnProperty", "__lookupGetter__",
   "__lookupSetter__", "isPrototypeOf", "propertyIsEnumerable", "toString", "valueOf",
   "__proto__", "toLocaleString"]

/-- The names every array answers for, besides those. -/
def arrayPrototype : List String :=
  ["at", "concat", "copyWithin", "entries", "every", "fill", "filter", "find", "findIndex",
   "findLast", "findLastIndex", "flat", "flatMap", "forEach", "includes", "indexOf", "join",
   "keys", "lastIndexOf", "map", "pop", "push", "reduce", "reduceRight", "reverse", "shift",
   "slice", "some", "sort", "splice", "toReversed", "toSorted", "toSpliced", "unshift",
   "values", "with"]

/-- The names a value answers for when it serves as a prototype, its own properties aside. -/
def Value.builtins : Value → List String
  | .obj _ => objectPrototype
  | .arr _ => arrayPrototype ++ objectPrototype
  | _ => []

/-- What a property lookup comes up with. -/
inductive Found where
  | value (v : Value)
  | builtin
  | missing

/-- Every built-in property is a function or an object. -/
def Found.truthy : Found → Bool
  | .value v => v.truthy
  | .builtin => true
  | .missing => false

/-- An object made with `{}`; `proto` is `none` as long as it is `Object.prototype`. -/
structure PlainObject where
  own : List (String × Value) := []
  proto : Option Value := none

namespace PlainObject

/-- What the prototype chain answers for `k`. -/
def inherited (o : PlainObject) (k : String) : Found :=
  match o.proto with
  | none => if k ∈ objectPrototype then .builtin else .missing
  | some p =>
      match p.own k with
      | some v => .value v
      | none => if k ∈ p.builtins then .builtin else .missing

/-- `o[k]`. -/
def get (o : PlainObject) (k : String) : Found :=
  match Table.get o.own k with
  | some v => .value v
  | none => o.inherited k

/-- Whether `o["__proto__"] = …` finds the setter of `Object.prototype`. -/
def hasProtoSetter (o : PlainObject) : Bool :=
  match o.get "__proto__" with
  | .builtin => true
  | _ => false

/-- `o[k] = v`. -/
def assign (o : PlainObject) (k : String) (v : Value) : PlainObject :=
  if k = "__proto__" && o.hasProtoSetter then
    match v with
    | .obj _ | .arr _ | .null => { o with proto := some v }
    -- the setter ignores what cannot be a prototype
    | _ => o
  else { o with own := putProp o.own k v }

/-- What `for (k in o)` visits, each name with `o[k]`: own properties first. -/
def entries (o : PlainObject) : List (String × Value) :=
  o.own ++ ((o.proto.map Value.entries).getD []).filter (fun p => (Table.get o.own p.1).isNone)

def values (o : PlainObject) : List Value := o.entries.map Prod.snd

/-- The prototype is the one the object was made with. -/
def Tame (o : PlainObject) : Prop := o.proto = none

theorem tame_empty : Tame {} := rfl

variable {o : PlainObject} {k : String} {v : Value}

theorem assign_of_ne (hk : k ≠ "__proto__") :
    o.assign k v = { o with own := putProp o.own k v } := by
  simp [assign, hk]

/-- Binding one name changes what no other name answers. -/
theorem get_assign_ne (hk : k ≠ "__proto__") {j : String} (hj : j ≠ k) :
    (o.assign k v).get j = o.get j := by
  rw [assign_of_ne hk]
  simp only [get, inherited, (put_putProp o.own k v).get_ne hj]

theorem Tame.assign (h : o.Tame) (hk : k ≠ "__proto__") (v : Value) : (o.assign k v).Tame := by
  rw [assign_of_ne hk]; exact h

/-- A tame object enumerates its own properties and no others. -/
theorem Tame.entries_eq (h : o.Tame) : o.entries = o.own := by
  simp [entries, show o.proto = none from h]

theorem Tame.values_eq (h : o.Tame) : o.values = o.own.map Prod.snd := by
  rw [values, h.entries_eq]

theorem get_of_own {x : Value} (hx : Table.get o.own k = some x) : o.get k = .value x := by
  simp only [get, hx]

/-- A tame object that does not own a name answers for it exactly if it is built in. -/
theorem Tame.get_of_not_own (h : o.Tame) (hx : Table.get o.own k = none) :
    o.get k = if k ∈ objectPrototype then .builtin else .missing := by
  have hp : o.proto = none := h
  simp only [get, hx, inherited, hp]

/-- A name a tame object answers falsely for is neither owned nor built in, or owned falsely. -/
theorem Tame.ne_proto_of_falsy (h : o.Tame) (hn : Table.get o.own "__proto__" = none)
    (hf : (o.get k).truthy = false) : k ≠ "__proto__" := by
  intro hk
  subst hk
  rw [h.get_of_not_own hn] at hf
  simp [objectPrototype, Found.truthy] at hf

end PlainObject

end Js
