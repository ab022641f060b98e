import EssApp.Lib.Run
import Mathlib.Data.List.Forall2

/-!
# One system in the place of another

Two systems and a relation between their states. If every step of the first can be
matched by the second, from related states to related states, every run can. A step
may be matched by several or by none; which labels stand for a label may be a relation,
or a function of the label.
-/

namespace Lts.Run

variable {σ τ α β : Type} {step : σ → α → σ → Prop} {step' : τ → β → τ → Prop}
  {R : σ → τ → Prop}

/-- **Simulation**: the labels `bs` of the second system stand for one label `a`, as `E a bs`. -/
theorem simulate_runs {E : α → List β → Prop}
    (hR : ∀ {s u a bs t}, R s u → E a bs → step s a t → ∃ v, Run step' u bs v ∧ R t v)
    {s t : σ} {as : List α} {bss : List (List β)} {u : τ} (hE : List.Forall₂ E as bss)
    (h : Run step s as t) (h0 : R s u) : ∃ v, Run step' u bss.flatten v ∧ R t v := by
  induction h generalizing bss u with
  | nil =>
      cases hE
      exact ⟨u, .nil, h0⟩
  | cons hs _ ih =>
      cases hE with
      | cons hab hE =>
          obtain ⟨u', hu, hR'⟩ := hR h0 hab hs
          obtain ⟨v, hv, hRv⟩ := ih hE hR'
          exact ⟨v, hu.append hv, hRv⟩

/-- **Simulation**, the labels `f a` standing for `a`. -/
theorem simulate {f : α → List β}
    (hR : ∀ {s u a t}, R s u → step s a t → ∃ v, Run step' u (f a) v ∧ R t v)
    {s t : σ} {as : List α} {u : τ} (h : Run step s as t) (h0 : R s u) :
    ∃ v, Run step' u (as.flatMap f) v ∧ R t v := by
  have hE : List.Forall₂ (fun a bs => bs = f a) as (as.map f) :=
    List.forall₂_map_right_iff.mpr (List.forall₂_same.mpr fun _ _ => rfl)
  rw [List.flatMap_def]
  refine simulate_runs (R := R) ?_ hE h h0
  intro s u a bs t hsu he hs
  subst he
  exact hR hsu hs

end Lts.Run
