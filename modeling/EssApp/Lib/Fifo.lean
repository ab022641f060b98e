import EssApp.Lib.Trace

/-!
# A queue

Several elements may be put in at once, one is taken out at a time, and taking from an
empty queue does nothing. What has been taken out, followed by what is left, is what
was there followed by what was put in (`conservation`); and what was there is out
after as many attempts (`served`).
-/

namespace Fifo

variable {α : Type}

inductive Op (α : Type) where
  | put (xs : List α)
  | take

inductive Step : List α → Op α → List α → Prop where
  | put {q xs : List α} : Step q (.put xs) (q ++ xs)
  | take {x : α} {q : List α} : Step (x :: q) .take q
  | idle : Step [] .take []

/-- What a step takes out. -/
def taken (q : List α) : Op α → List α → List α
  | .put _, _ => []
  | .take, _ => q.head?.toList

/-- Everything that is put in, in order. -/
def puts : List (Op α) → List α
  | [] => []
  | .put xs :: ops => xs ++ puts ops
  | .take :: ops => puts ops

/-- How often something may be taken out. -/
def takes : List (Op α) → Nat
  | [] => 0
  | .put _ :: ops => takes ops
  | .take :: ops => takes ops + 1

/-- **Nothing is lost, added or reordered.** -/
theorem conservation {q q' xs : List α} {ops : List (Op α)}
    (h : Lts.Trace Step taken q ops xs q') : xs ++ q' = q ++ puts ops := by
  induction h with
  | nil => rw [puts, List.nil_append, List.append_nil]
  | cons hs _ ih =>
      cases hs with
      | put =>
          rw [taken, puts, List.nil_append, ih, List.append_assoc]
      | take => exact congrArg (List.cons _) ih
      | idle => exact ih

/-- **The front of the queue is served first**, as soon as there were as many attempts. -/
theorem served {q q' xs : List α} {ops : List (Op α)} (h : Lts.Trace Step taken q ops xs q')
    {p : List α} (hp : p <+: q) (hlen : p.length ≤ takes ops) : p <+: xs := by
  induction h generalizing p with
  | nil =>
      obtain rfl := List.eq_nil_of_length_eq_zero (Nat.le_zero.mp hlen)
      exact List.nil_prefix
  | cons hs _ ih =>
      cases hs with
      | put => exact ih (hp.trans (List.prefix_append _ _)) hlen
      | take =>
          cases p with
          | nil => exact List.nil_prefix
          | cons y p =>
              obtain ⟨rfl, htail⟩ := List.cons_prefix_cons.mp hp
              exact List.cons_prefix_cons.mpr ⟨rfl, ih htail (Nat.le_of_succ_le_succ hlen)⟩
      | idle =>
          obtain rfl := List.prefix_nil.mp hp
          exact List.nil_prefix

end Fifo
