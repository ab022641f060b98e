import Mathlib.Data.List.Nodup

/-!
# Tables kept as lists of bindings

A table is a list of `(key, value)` pairs in the order an enumeration visits
them. Writing a key that is bound replaces its value where it stands; writing a
new key inserts the binding somewhere, and *where* is the business of whoever
owns the table. `Put` is that contract, and every fact below that does not
mention a position is proved from `Put` alone.

The second half is about lists of records that carry their own key: `absorb l r`
extends `l` by those records of `r` whose key is new, and is the merge of two
keyed collections in which the left one always wins.
-/

namespace Table

variable {κ ν : Type} [DecidableEq κ]

/-- The value bound to `k`. -/
def get : List (κ × ν) → κ → Option ν
  | [], _ => none
  | (k', v) :: t, k => if k' = k then some v else get t k

/-- Rebind `k` where it stands. -/
def replace (t : List (κ × ν)) (k : κ) (v : ν) : List (κ × ν) :=
  t.map (fun e => if e.1 = k then (k, v) else e)

/-- Bind `k`, a new key going to the end. -/
def set (t : List (κ × ν)) (k : κ) (v : ν) : List (κ × ν) :=
  if (get t k).isSome then replace t k v else t ++ [(k, v)]

/-- `Put k v t t'`: `t'` is `t` with `k` bound to `v`, in place or inserted somewhere. -/
inductive Put (k : κ) (v : ν) : List (κ × ν) → List (κ × ν) → Prop where
  | replace {t : List (κ × ν)} : (get t k).isSome → Put k v t (replace t k v)
  | insert {a b : List (κ × ν)} : get (a ++ b) k = none → Put k v (a ++ b) (a ++ (k, v) :: b)

@[simp] theorem get_nil (k : κ) : get ([] : List (κ × ν)) k = none := rfl

theorem get_cons (k' k : κ) (v : ν) (t : List (κ × ν)) :
    get ((k', v) :: t) k = if k' = k then some v else get t k := rfl

theorem get_append (a b : List (κ × ν)) (k : κ) :
    get (a ++ b) k = (get a k).or (get b k) := by
  induction a with
  | nil => rfl
  | cons e a ih =>
      rw [List.cons_append, get_cons, get_cons]
      split
      · rfl
      · exact ih

theorem mem_of_get {t : List (κ × ν)} {k : κ} {v : ν} (h : get t k = some v) : (k, v) ∈ t := by
  induction t with
  | nil => simp at h
  | cons e t ih =>
      rw [get_cons] at h
      split at h
      · rename_i he
        rw [← he, ← Option.some.inj h]
        exact List.mem_cons_self
      · exact List.mem_cons_of_mem _ (ih h)

theorem get_eq_none_iff {t : List (κ × ν)} {k : κ} :
    get t k = none ↔ ∀ e ∈ t, e.1 ≠ k := by
  induction t with
  | nil => simp
  | cons e t ih =>
      rw [get_cons, List.forall_mem_cons]
      split
      · rename_i he; simp [he]
      · rename_i he; rw [ih]; simp [he]

theorem get_isSome_of_mem {t : List (κ × ν)} {k : κ} {v : ν} (h : (k, v) ∈ t) :
    (get t k).isSome := by
  cases hg : get t k with
  | none => exact absurd rfl (get_eq_none_iff.mp hg _ h)
  | some _ => rfl

/-- With every key once, a binding that is there is the one that is found. -/
theorem get_of_mem {t : List (κ × ν)} {k : κ} {v : ν} (hn : (t.map Prod.fst).Nodup)
    (h : (k, v) ∈ t) : get t k = some v := by
  induction t with
  | nil => cases h
  | cons e t ih =>
      obtain ⟨hne, hn⟩ := List.nodup_cons.mp hn
      rw [get_cons]
      rcases List.mem_cons.mp h with rfl | h
      · rw [if_pos rfl]
      · rw [if_neg, ih hn h]
        intro he
        exact hne (he ▸ List.mem_map_of_mem (f := Prod.fst) h)

/-! ## What a write does, wherever it lands -/

theorem get_replace (t : List (κ × ν)) (k k' : κ) (v : ν) :
    get (replace t k v) k' = if k' = k then (get t k).map (fun _ => v) else get t k' := by
  induction t with
  | nil => simp [replace]
  | cons e t ih =>
      obtain ⟨x, y⟩ := e
      simp only [replace, List.map_cons] at ih ⊢
      -- the head is the key that is rebound, or it is not
      by_cases hx : x = k
      · rw [if_pos hx, get_cons, get_cons, get_cons, if_pos hx, ih, hx]
        by_cases hk : k' = k
        · rw [if_pos hk.symm, if_pos hk]; rfl
        · rw [if_neg (Ne.symm hk), if_neg hk, if_neg hk, if_neg (Ne.symm hk)]
      · rw [if_neg hx, get_cons, get_cons, get_cons, if_neg hx, ih]
        by_cases hk : k' = k
        · rw [if_pos hk, if_pos hk, hk, if_neg hx]
        · rw [if_neg hk, if_neg hk]

theorem replace_keys (t : List (κ × ν)) (k : κ) (v : ν) :
    (replace t k v).map Prod.fst = t.map Prod.fst := by
  rw [replace, List.map_map]
  refine List.map_congr_left (fun e _ => ?_)
  simp only [Function.comp_apply]
  split <;> simp_all

namespace Put

variable {k : κ} {v : ν} {t t' : List (κ × ν)}

theorem get_self (h : Put k v t t') : get t' k = some v := by
  cases h with
  | replace hs =>
      rw [get_replace, if_pos rfl]
      obtain ⟨x, hx⟩ := Option.isSome_iff_exists.mp hs
      rw [hx]; rfl
  | insert hn =>
      rw [get_append, Option.or_eq_none_iff] at hn
      rw [get_append, hn.1, get_cons, if_pos rfl]; rfl

theorem get_ne (h : Put k v t t') {k' : κ} (hk : k' ≠ k) : get t' k' = get t k' := by
  cases h with
  | replace _ => rw [get_replace, if_neg hk]
  | insert _ => rw [get_append, get_append, get_cons, if_neg (Ne.symm hk)]

theorem nodup (h : Put k v t t') (hn : (t.map Prod.fst).Nodup) : (t'.map Prod.fst).Nodup := by
  cases h with
  | replace _ => rwa [replace_keys]
  | @insert a b hg =>
      -- a key that is not bound is not among the keys
      have hk : k ∉ (a ++ b).map Prod.fst := by
        intro hm
        obtain ⟨e, he, hek⟩ := List.mem_map.mp hm
        exact get_eq_none_iff.mp hg e he hek
      rw [List.map_append, List.map_cons]
      rw [List.map_append] at hn hk
      exact List.nodup_middle.mpr (List.nodup_cons.mpr ⟨hk, hn⟩)

/-- What a written table holds: the new binding, and the old ones of other keys. -/
theorem mem (h : Put k v t t') {e : κ × ν} (he : e ∈ t') : e = (k, v) ∨ (e ∈ t ∧ e.1 ≠ k) := by
  cases h with
  | replace _ =>
      obtain ⟨d, hd, heq⟩ := List.mem_map.mp he
      by_cases hk : d.1 = k
      · rw [if_pos hk] at heq; exact Or.inl heq.symm
      · rw [if_neg hk] at heq; exact Or.inr (heq ▸ ⟨hd, hk⟩)
  | @insert a b hg =>
      rcases List.mem_append.mp he with h' | h'
      · have := List.mem_append_left b h'
        exact Or.inr ⟨this, get_eq_none_iff.mp hg e this⟩
      · rcases List.mem_cons.mp h' with h'' | h''
        · exact Or.inl h''
        · have := List.mem_append_right a h''
          exact Or.inr ⟨this, get_eq_none_iff.mp hg e this⟩

end Put

theorem put_set (t : List (κ × ν)) (k : κ) (v : ν) : Put k v t (set t k v) := by
  unfold set
  split
  · exact .replace ‹_›
  · rename_i hn
    have hg : get (t ++ []) k = none := by
      rw [List.append_nil]
      simpa using hn
    have := Put.insert (v := v) hg
    rwa [List.append_nil] at this

end Table
