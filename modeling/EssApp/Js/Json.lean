import EssApp.Js.Value

/-!
# JSON texts

A program that only ever hands its texts to `JSON.parse` can tell two texts apart
by what they parse to and by nothing else, so that is what a `Text` is here:
something `JSON.parse` rejects, or the JSON of a value.

Writing a value out and reading it back is `toJSON`. It is not the identity: a
property holding `undefined` disappears, an `undefined` array element and a
number JSON has no notation for come back as `null`. `toJSON_stable` is the part
that makes files settle: what has been through it once comes through unchanged.
-/

namespace Js

namespace Value

mutual

/-- What is left of a value after `JSON.stringify` and `JSON.parse`; nothing of `undefined`. -/
def toJSON : Value → Option Value
  | .undefined => none
  | .null => some .null
  | .bool b => some (.bool b)
  | .num n => some (if n.finite then .num n else .null)
  | .str s => some (.str s)
  | .arr es => some (.arr (elemsJSON es))
  | .obj ps => some (.obj (propsJSON ps))

def elemsJSON : List Value → List Value
  | [] => []
  | e :: es => e.toJSON.getD .null :: elemsJSON es

/-- A later binding of a name is dead, so it goes together with the first. -/
def propsJSON : List (String × Value) → List (String × Value)
  | [] => []
  | (k, v) :: ps =>
      match v.toJSON with
      | none => (propsJSON ps).filter (fun p => p.1 ≠ k)
      | some v' => (k, v') :: propsJSON ps

end

/-- An array element after a round trip. -/
def elemJSON (v : Value) : Value := v.toJSON.getD .null

theorem elemsJSON_eq (es : List Value) : elemsJSON es = es.map elemJSON := by
  induction es with
  | nil => rfl
  | cons e es ih => rw [elemsJSON, ih]; rfl

end Value

/-- A text, up to what `JSON.parse` can see of it. -/
inductive Text where
  | malformed
  | json (v : Value)

namespace JSON

def parse : Text → Except Exn Value
  | .malformed => .error .syntaxError
  | .json v => .ok v

/-- `JSON.stringify v`, for a `v` that is not `undefined`; there is no limit on the nesting. -/
def stringify (v : Value) : Text := .json v.elemJSON

end JSON

/-! ## Properties survive, one by one -/

theorem get_filter_ne (ps : List (String × Value)) (k k' : String) :
    Table.get (ps.filter (fun p => p.1 ≠ k)) k' = if k' = k then none else Table.get ps k' := by
  induction ps with
  | nil => simp
  | cons p ps ih =>
      obtain ⟨x, y⟩ := p
      rw [List.filter_cons]
      by_cases hx : x = k
      · rw [if_neg (by simp [hx]), ih]
        split
        · rfl
        · rename_i hk
          rw [Table.get_cons, if_neg (fun h : x = k' => hk (h.symm.trans hx))]
      · rw [if_pos (by simp [hx]), Table.get_cons, ih, Table.get_cons]
        by_cases hk : k' = k
        · rw [if_pos hk, if_pos hk, if_neg (hk ▸ hx)]
        · rw [if_neg hk, if_neg hk]

namespace Value

theorem get_propsJSON (ps : List (String × Value)) (k : String) :
    Table.get (propsJSON ps) k = (Table.get ps k).bind toJSON := by
  induction ps with
  | nil => rfl
  | cons p ps ih =>
      obtain ⟨x, y⟩ := p
      rw [propsJSON, Table.get_cons]
      cases hy : y.toJSON with
      | none =>
          -- the binding is dropped, and a dead one behind it must not come back
          dsimp only
          rw [get_filter_ne, ih]
          by_cases hk : k = x
          · rw [if_pos hk, if_pos hk.symm, Option.bind_some, hy]
          · rw [if_neg hk, if_neg (Ne.symm hk)]
      | some y' =>
          dsimp only
          rw [Table.get_cons, ih]
          by_cases hk : x = k
          · rw [if_pos hk, if_pos hk, Option.bind_some, hy]
          · rw [if_neg hk, if_neg hk]

@[simp] theorem elemJSON_obj (ps : List (String × Value)) :
    (Value.obj ps).elemJSON = .obj (propsJSON ps) := rfl

@[simp] theorem elemJSON_arr (es : List Value) :
    (Value.arr es).elemJSON = .arr (es.map elemJSON) := by
  rw [elemJSON, toJSON, Option.getD_some, elemsJSON_eq]

/-- The properties of an object after a round trip. -/
theorem own_elemJSON_obj (ps : List (String × Value)) (k : String) :
    (Value.obj ps).elemJSON.own k = ((Value.obj ps).own k).bind toJSON :=
  get_propsJSON ps k

/-! ## A second round trip changes nothing -/

theorem propsJSON_of_stable {ps : List (String × Value)} (h : ∀ p ∈ ps, p.2.toJSON = some p.2) :
    propsJSON ps = ps := by
  induction ps with
  | nil => rfl
  | cons p ps ih =>
      obtain ⟨x, y⟩ := p
      have hy : y.toJSON = some y := h (x, y) List.mem_cons_self
      rw [propsJSON, hy]
      dsimp only
      rw [ih (fun q hq => h q (List.mem_cons_of_mem _ hq))]

theorem elemsJSON_of_stable {es : List Value} (h : ∀ e ∈ es, e.toJSON = some e) :
    elemsJSON es = es := by
  induction es with
  | nil => rfl
  | cons e es ih =>
      rw [elemsJSON, h e List.mem_cons_self, ih (fun x hx => h x (List.mem_cons_of_mem _ hx))]
      rfl

mutual

theorem toJSON_stable : ∀ (v : Value) {w : Value}, v.toJSON = some w → w.toJSON = some w
  | .undefined, _, h => by simp [toJSON] at h
  | .null, _, h => by rw [toJSON] at h; rw [← Option.some.inj h]; rfl
  | .bool b, _, h => by rw [toJSON] at h; rw [← Option.some.inj h]; rfl
  | .num n, _, h => by
      rw [toJSON] at h
      rw [← Option.some.inj h]
      cases hn : n.finite <;> simp [toJSON, hn]
  | .str s, _, h => by rw [toJSON] at h; rw [← Option.some.inj h]; rfl
  | .arr es, _, h => by
      rw [toJSON] at h
      rw [← Option.some.inj h, toJSON, elemsJSON_of_stable (elemsJSON_stable es)]
  | .obj ps, _, h => by
      rw [toJSON] at h
      rw [← Option.some.inj h, toJSON, propsJSON_of_stable (propsJSON_stable ps)]

theorem elemsJSON_stable : ∀ (es : List Value), ∀ e ∈ elemsJSON es, e.toJSON = some e
  | [], _, h => by simp [elemsJSON] at h
  | x :: es, e, h => by
      rw [elemsJSON] at h
      rcases List.mem_cons.mp h with he | he
      · cases hx : x.toJSON with
        | none => rw [he, hx]; rfl
        | some y => rw [he, hx, Option.getD_some]; exact toJSON_stable x hx
      · exact elemsJSON_stable es e he

theorem propsJSON_stable : ∀ (ps : List (String × Value)), ∀ p ∈ propsJSON ps,
    p.2.toJSON = some p.2
  | [], _, h => by simp [propsJSON] at h
  | (k, v) :: ps, p, h => by
      rw [propsJSON] at h
      cases hv : v.toJSON with
      | none =>
          rw [hv] at h
          exact propsJSON_stable ps p (List.mem_of_mem_filter h)
      | some y =>
          rw [hv] at h
          rcases List.mem_cons.mp h with he | he
          · rw [he]; exact toJSON_stable v hv
          · exact propsJSON_stable ps p he

end

theorem toJSON_elemJSON (v : Value) : v.elemJSON.toJSON = some v.elemJSON := by
  unfold elemJSON
  cases hv : v.toJSON with
  | none => rfl
  | some w => exact toJSON_stable v hv

/-- **What has been written and read once is a fixed point.** -/
theorem elemJSON_elemJSON (v : Value) : v.elemJSON.elemJSON = v.elemJSON := by
  rw [elemJSON, toJSON_elemJSON]; rfl

end Value

example : (Value.obj [("wus", .undefined), ("n", .arr [.num ⟨"Infinity"⟩])]).elemJSON
    = .obj [("n", .arr [.null])] := rfl

end Js
