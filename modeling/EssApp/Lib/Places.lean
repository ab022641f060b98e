import Mathlib.Data.List.Forall2
import Mathlib.Data.List.Induction
import Mathlib.Order.Lattice

/-!
# Lists, place by place

What is true of every element of a list stays true when one place is overwritten,
and two lists related place by place stay so when the same place of both is
overwritten or changed. Erasing one place removes the element that stands there,
and in an ascending list an element stands behind the smaller ones.
-/

namespace Places

/-- One overwritten place disturbs no property the new element has. -/
theorem forall_mem_set {α : Type} {P : α → Prop} {l : List α} {a : α} (h : ∀ x ∈ l, P x)
    (ha : P a) (i : Nat) : ∀ x ∈ l.set i a, P x := by
  intro x hx
  rcases List.mem_or_eq_of_mem_set hx with hx | rfl
  · exact h x hx
  · exact ha

/-- One more element at the end disturbs no property it has itself. -/
theorem forall_mem_concat {α : Type} {P : α → Prop} {l : List α} {a : α} (h : ∀ x ∈ l, P x)
    (ha : P a) : ∀ x ∈ l ++ [a], P x :=
  List.forall_mem_append.mpr ⟨h, List.forall_mem_singleton.mpr ha⟩

/-- One changed place disturbs no property the change keeps. -/
theorem forall_mem_modify {α : Type} {P : α → Prop} {l : List α} {f : α → α}
    (h : ∀ x ∈ l, P x) (hf : ∀ x, P x → P (f x)) (i : Nat) : ∀ x ∈ l.modify i f, P x := by
  intro x hx
  obtain ⟨j, hj⟩ := List.mem_iff_getElem?.mp hx
  rw [List.getElem?_modify] at hj
  obtain ⟨y, hy, rfl⟩ := Option.map_eq_some_iff.mp hj
  have hP := h y (List.mem_of_getElem? hy)
  split
  · exact hf y hP
  · exact hP

/-- What the change keeps of an element shows in no place. -/
theorem map_modify {α β : Type} {g : α → β} {f : α → α} (hf : ∀ x, g (f x) = g x) (l : List α)
    (i : Nat) : (l.modify i f).map g = l.map g := by
  refine List.ext_getElem? fun j => ?_
  rw [List.getElem?_map, List.getElem?_modify, List.getElem?_map]
  cases l[j]? with
  | none => rfl
  | some x =>
      by_cases hij : i = j
      · simp [hij, hf]
      · simp [hij]

/-! ## Which element a place holds -/

/-- A place of a list that got one element more is an old one, or the last. -/
theorem getElem?_concat {α : Type} {l : List α} {a x : α} {i : Nat}
    (h : (l ++ [a])[i]? = some x) : l[i]? = some x ∨ (i = l.length ∧ x = a) := by
  by_cases hlt : i < l.length
  · rw [List.getElem?_append_left hlt] at h
    exact Or.inl h
  · have hi := (List.getElem?_eq_some_iff.mp h).1
    rw [List.length_append, List.length_singleton] at hi
    have hlast : i = l.length := by omega
    rw [hlast, List.getElem?_concat_length] at h
    exact Or.inr ⟨hlast, (Option.some.inj h).symm⟩

/-- If erasing a place loses an element, the element stood there. -/
theorem getElem?_of_not_mem_eraseIdx {α : Type} {l : List α} {x : α} {p : Nat} (hx : x ∈ l)
    (h : x ∉ l.eraseIdx p) : l[p]? = some x := by
  obtain ⟨j, hj⟩ := List.mem_iff_getElem?.mp hx
  by_cases hp : j = p
  · exact hp ▸ hj
  · exact absurd (List.mem_eraseIdx_iff_getElem?.mpr ⟨j, hp, hj⟩) h

/-- Of a list without duplicates, erasing a place loses the element there and no other. -/
theorem mem_eraseIdx_iff {α : Type} {l : List α} {x y : α} {p : Nat} (hn : l.Nodup)
    (hp : l[p]? = some x) : y ∈ l.eraseIdx p ↔ y ∈ l ∧ y ≠ x := by
  constructor
  · intro hy
    refine ⟨List.mem_of_mem_eraseIdx hy, ?_⟩
    rintro rfl
    obtain ⟨j, hj, hjy⟩ := List.mem_eraseIdx_iff_getElem?.mp hy
    -- the same element at two places
    have hlt := (List.getElem?_eq_some_iff.mp hjy).1
    exact hj ((List.getElem?_inj hlt hn).mp (hjy.trans hp.symm))
  · rintro ⟨hy, hne⟩
    by_contra hc
    exact hne (Option.some.inj ((getElem?_of_not_mem_eraseIdx hy hc).symm.trans hp))

/-- **The place of an element of an ascending list** is the number of smaller ones. -/
theorem getElem?_iff_of_ascending {α : Type} [LinearOrder α] {l : List α} {x : α} {p : Nat}
    (h : l.Pairwise (· < ·)) :
    l[p]? = some x ↔ x ∈ l ∧ (l.filter (· < x)).length = p := by
  induction l generalizing p with
  | nil => simp
  | cons a l ih =>
      obtain ⟨ha, hl⟩ := List.pairwise_cons.mp h
      have hhead : (a :: l).filter (· < a) = [] := by
        refine List.filter_eq_nil_iff.mpr ?_
        intro b hb
        rcases List.mem_cons.mp hb with rfl | hb
        · simp
        · simp [le_of_lt (ha b hb)]
      have htail : ∀ b ∈ l, ((a :: l).filter (· < b)).length = (l.filter (· < b)).length + 1 := by
        intro b hb
        rw [List.filter_cons_of_pos (by simpa using ha b hb), List.length_cons]
      cases p with
      | zero =>
          rw [List.getElem?_cons_zero]
          constructor
          · intro hax
            obtain rfl := Option.some.inj hax
            exact ⟨List.mem_cons_self, by rw [hhead]; rfl⟩
          · rintro ⟨hx, hc⟩
            rcases List.mem_cons.mp hx with rfl | hx
            · rfl
            · rw [htail x hx] at hc
              exact absurd hc (Nat.succ_ne_zero _)
      | succ p =>
          rw [List.getElem?_cons_succ, ih hl]
          constructor
          · rintro ⟨hx, hc⟩
            exact ⟨List.mem_cons_of_mem _ hx, by rw [htail x hx, hc]⟩
          · rintro ⟨hx, hc⟩
            rcases List.mem_cons.mp hx with rfl | hx
            · rw [hhead] at hc
              exact absurd hc.symm (Nat.succ_ne_zero _)
            · rw [htail x hx] at hc
              exact ⟨hx, Nat.succ.inj hc⟩

/-- The last element of an ascending list is its greatest. -/
theorem getLast?_iff_of_ascending {α : Type} [LinearOrder α] {l : List α} {x : α}
    (h : l.Pairwise (· < ·)) : l.getLast? = some x ↔ x ∈ l ∧ ∀ y ∈ l, y ≤ x := by
  induction l using List.reverseRecOn with
  | nil => simp
  | append_singleton l a _ =>
      have ha : ∀ y ∈ l, y < a := by
        intro y hy
        exact (List.pairwise_append.mp h).2.2 y hy a (List.mem_singleton_self a)
      rw [List.getLast?_concat]
      constructor
      · intro hax
        obtain rfl := Option.some.inj hax
        refine ⟨List.mem_append_right l (List.mem_singleton_self a), ?_⟩
        exact forall_mem_concat (fun y hy => le_of_lt (ha y hy)) (le_refl a)
      · rintro ⟨hx, hmax⟩
        have hax : a ≤ x := hmax a (List.mem_append_right l (List.mem_singleton_self a))
        rcases List.mem_append.mp hx with hx | hx
        · exact absurd (ha x hx) (not_lt.mpr hax)
        · rw [List.mem_singleton.mp hx]

/-! ## The first element with a property -/

/-- The search stops at the first element that has the property. -/
theorem findIdx?_append_cons {α : Type} {p : α → Bool} {before after : List α} {x : α}
    (hb : ∀ y ∈ before, p y = false) (hx : p x = true) :
    (before ++ x :: after).findIdx? p = some before.length := by
  induction before with
  | nil => rw [List.nil_append, List.findIdx?_cons, if_pos hx, List.length_nil]
  | cons y before ih =>
      have hy : ¬ p y = true := by
        rw [hb y List.mem_cons_self]
        exact Bool.false_ne_true
      rw [List.cons_append, List.findIdx?_cons, if_neg hy,
        ih (fun z hz => hb z (List.mem_cons_of_mem _ hz))]
      rfl

/-- Changing the place behind `before` changes the element that stands there. -/
theorem modify_append_cons {α : Type} (f : α → α) (before after : List α) (x : α) :
    (before ++ x :: after).modify before.length f = before ++ f x :: after := by
  induction before with
  | nil => rfl
  | cons y before ih => rw [List.cons_append, List.length_cons, List.modify_succ_cons, ih]; rfl

/-- A list with an element of the property has a first one. -/
theorem exists_first {α : Type} {p : α → Bool} {l : List α} (h : ∃ x ∈ l, p x = true) :
    ∃ before x after, l = before ++ x :: after ∧ (∀ y ∈ before, p y = false) ∧ p x = true := by
  obtain ⟨x, hx⟩ := Option.isSome_iff_exists.mp (List.find?_isSome.mpr h)
  obtain ⟨hp, before, after, hl, hb⟩ := List.find?_eq_some_iff_append.mp hx
  exact ⟨before, x, after, hl, fun y hy => by simpa using hb y hy, hp⟩

section Pairs

variable {α β : Type} {R : α → β → Prop} {xs : List α} {ys : List β}

/-- Elements that are related to something make a list that is. -/
theorem exists_forall₂ (h : ∀ x ∈ xs, ∃ y, R x y) : ∃ ys, List.Forall₂ R xs ys := by
  induction xs with
  | nil => exact ⟨[], .nil⟩
  | cons x xs ih =>
      obtain ⟨hx, hxs⟩ := List.forall_mem_cons.mp h
      obtain ⟨y, hxy⟩ := hx
      obtain ⟨ys, hys⟩ := ih hxs
      exact ⟨y :: ys, .cons hxy hys⟩

/-- Both lists have a place, with related elements, or neither has. -/
theorem forall₂_getElem? (h : List.Forall₂ R xs ys) (i : Nat) :
    (xs[i]? = none ∧ ys[i]? = none)
      ∨ ∃ x y, xs[i]? = some x ∧ ys[i]? = some y ∧ R x y := by
  induction h generalizing i with
  | nil => exact Or.inl ⟨rfl, rfl⟩
  | @cons x y xs ys hxy _ ih =>
      cases i with
      | zero => exact Or.inr ⟨x, y, rfl, rfl, hxy⟩
      | succ i => exact ih i

/-- Every element of the first list has a related one in the second. -/
theorem forall₂_exists_mem (h : List.Forall₂ R xs ys) : ∀ x ∈ xs, ∃ y ∈ ys, R x y := by
  induction h with
  | nil => exact fun _ hx => absurd hx List.not_mem_nil
  | @cons a b xs ys hab _ ih =>
      intro x hx
      rcases List.mem_cons.mp hx with rfl | hx
      · exact ⟨b, List.mem_cons_self, hab⟩
      · obtain ⟨y, hy, hxy⟩ := ih x hx
        exact ⟨y, List.mem_cons_of_mem _ hy, hxy⟩

/-- Two tests that agree on related elements find the same place. -/
theorem forall₂_findIdx? {p : α → Bool} {q : β → Bool} (hpq : ∀ x y, R x y → p x = q y)
    (h : List.Forall₂ R xs ys) : xs.findIdx? p = ys.findIdx? q := by
  induction h with
  | nil => rfl
  | cons hab _ ih => rw [List.findIdx?_cons, List.findIdx?_cons, hpq _ _ hab, ih]

/-- Erasing the same place of both lists. -/
theorem forall₂_eraseIdx (h : List.Forall₂ R xs ys) (i : Nat) :
    List.Forall₂ R (xs.eraseIdx i) (ys.eraseIdx i) := by
  rw [List.eraseIdx_eq_take_drop_succ, List.eraseIdx_eq_take_drop_succ]
  exact List.rel_append (List.forall₂_take i h) (List.forall₂_drop (i + 1) h)

/-- Changing one place of both lists alike. -/
theorem forall₂_modify {f : α → α} {g : β → β} (hfg : ∀ x y, R x y → R (f x) (g y))
    (h : List.Forall₂ R xs ys) (i : Nat) : List.Forall₂ R (xs.modify i f) (ys.modify i g) := by
  induction h generalizing i with
  | nil => cases i <;> exact .nil
  | @cons x y xs ys hxy hrest ih =>
      cases i with
      | zero => exact .cons (hfg x y hxy) hrest
      | succ i => exact .cons hxy (ih i)

/-- Overwriting one place of both lists with a related pair. -/
theorem forall₂_set (h : List.Forall₂ R xs ys) (i : Nat) {x : α} {y : β} (hxy : R x y) :
    List.Forall₂ R (xs.set i x) (ys.set i y) := by
  induction h generalizing i with
  | nil => exact .nil
  | @cons a b xs ys hab hrest ih =>
      cases i with
      | zero => exact .cons hxy hrest
      | succ i => exact .cons hab (ih i)

end Pairs

end Places
