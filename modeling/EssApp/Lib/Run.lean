/-!
# Runs of a labelled transition system

Everything above a single handler is a statement about runs: a property of every
state a sequence of labels can lead to, or of every pair of moments of one run.
This file has the two inductions those statements need, over an arbitrary step
relation, and two rules for runs that are restricted by a condition on each step:
a run whose steps meet the condition is a run of the restricted system, and where
the condition is exactly what one step needs to keep a property, it is exactly what
a run needs to keep it throughout.
-/

namespace Lts

variable {σ α : Type}

/-- `Run step s as t`: the labels `as`, taken in order from `s`, can end in `t`. -/
inductive Run (step : σ → α → σ → Prop) : σ → List α → σ → Prop where
  | nil {s : σ} : Run step s [] s
  | cons {s t u : σ} {a : α} {as : List α} :
      step s a t → Run step t as u → Run step s (a :: as) u

/-- The steps of `step` that are taken where the condition `C` holds. -/
def Guarded (step : σ → α → σ → Prop) (C : σ → α → Prop) : σ → α → σ → Prop :=
  fun s a t => step s a t ∧ C s a

/-- `R` holds between any two moments of the run `as` from `s`, the earlier one first. -/
def Throughout (step : σ → α → σ → Prop) (R : σ → σ → Prop) (s : σ) (as : List α) : Prop :=
  ∀ (pre mid post : List α) (u v : σ), as = pre ++ mid ++ post →
    Run step s pre u → Run step u mid v → R u v

/-- `P` holds in every state the run `as` from `s` passes through. -/
def Always (step : σ → α → σ → Prop) (P : σ → Prop) (s : σ) (as : List α) : Prop :=
  ∀ (pre post : List α) (u : σ), as = pre ++ post → Run step s pre u → P u

variable {step : σ → α → σ → Prop}

namespace Run

theorem append {s t u : σ} {as bs : List α} (h : Run step s as t) (h' : Run step t bs u) :
    Run step s (as ++ bs) u := by
  induction h with
  | nil => exact h'
  | cons hs _ ih => exact .cons hs (ih h')

theorem single {s t : σ} {a : α} (h : step s a t) : Run step s [a] t := .cons h .nil

/-- A run of `as ++ bs` passes through a state between the two parts. -/
theorem split {s u : σ} {as bs : List α} (h : Run step s (as ++ bs) u) :
    ∃ t, Run step s as t ∧ Run step t bs u := by
  induction as generalizing s with
  | nil => exact ⟨s, .nil, h⟩
  | cons a as ih =>
      cases h with
      | cons hs hr =>
          obtain ⟨t, h1, h2⟩ := ih hr
          exact ⟨t, .cons hs h1, h2⟩

/-- **The invariant rule.** What every step preserves, every run preserves. -/
theorem invariant {I : σ → Prop} (hI : ∀ {s a t}, I s → step s a t → I t)
    {s t : σ} {as : List α} (h : Run step s as t) (h0 : I s) : I t := by
  induction h with
  | nil => exact h0
  | cons hs _ ih => exact ih (hI h0 hs)

/--
**The invariant rule, with history.** `I as s` may speak about the labels seen so
far; a step appends one.
-/
theorem history {I : List α → σ → Prop} {s₀ : σ}
    (hI : ∀ {as s a t}, Run step s₀ as s → I as s → step s a t → I (as ++ [a]) t)
    {t : σ} {as : List α} (h : Run step s₀ as t) (h0 : I [] s₀) : I as t := by
  -- induct on the labels still to come, with those already seen as the history
  have go : ∀ (bs : List α) {pre : List α} {s t : σ}, Run step s₀ pre s → I pre s →
      Run step s bs t → I (pre ++ bs) t := by
    intro bs
    induction bs with
    | nil =>
        intro pre s t _ hi hr
        cases hr
        rwa [List.append_nil]
    | cons b bs ih =>
        intro pre s t hp hi hr
        cases hr with
        | cons hs hr =>
            have := ih (hp.append (single hs)) (hI hp hi hs) hr
            rwa [List.append_assoc] at this
  exact go as .nil h0 h

/-- A reflexive and transitive relation that every step respects relates the ends of a run. -/
theorem preorder {R : σ → σ → Prop} {I : σ → Prop} (hrefl : ∀ s, R s s)
    (htrans : ∀ {s t u}, R s t → R t u → R s u)
    (hI : ∀ {s a t}, I s → step s a t → I t)
    (hR : ∀ {s a t}, I s → step s a t → R s t)
    {s t : σ} {as : List α} (h : Run step s as t) (h0 : I s) : R s t := by
  induction h with
  | nil => exact hrefl _
  | cons hs _ ih => exact htrans (hR h0 hs) (ih (hI h0 hs))

/-- Weakening the step relation. -/
theorem mono {step' : σ → α → σ → Prop} (hs : ∀ {s a t}, step s a t → step' s a t)
    {s t : σ} {as : List α} (h : Run step s as t) : Run step' s as t := by
  induction h with
  | nil => exact .nil
  | cons h1 _ ih => exact .cons (hs h1) ih

/-- A run of a guarded system is a run of the system. -/
theorem unguard {C : σ → α → Prop} {s t : σ} {as : List α}
    (h : Run (Guarded step C) s as t) : Run step s as t :=
  h.mono (fun hg => hg.1)

/--
A run is one of the guarded system if every step of it meets `C`; that may be shown from
a run of the guarded system up to the step.
-/
theorem guard_of_guarded {C : σ → α → Prop} {s₀ t : σ} {as : List α} (h : Run step s₀ as t)
    (hC : ∀ (pre : List α) (a : α) (post : List α) (u v : σ), as = pre ++ a :: post →
      Run (Guarded step C) s₀ pre u → step u a v → C u a) :
    Run (Guarded step C) s₀ as t := by
  -- induct on the labels still to come
  have go : ∀ (bs : List α) {pre : List α} {s : σ}, as = pre ++ bs →
      Run (Guarded step C) s₀ pre s → Run step s bs t → Run (Guarded step C) s₀ as t := by
    intro bs
    induction bs with
    | nil =>
        intro pre s he hp hr
        cases hr
        rwa [he, List.append_nil]
    | cons b bs ih =>
        intro pre s he hp hr
        cases hr with
        | cons hs hr =>
            have hc := hC pre b bs _ _ he hp hs
            refine ih ?_ (hp.append (single ⟨hs, hc⟩)) hr
            rw [he, List.append_assoc]
            rfl
  exact go as rfl .nil h

/-- A run whose every step meets `C` is a run of the guarded system. -/
theorem guard {C : σ → α → Prop} {s t : σ} {as : List α} (h : Run step s as t)
    (hC : ∀ (pre : List α) (a : α) (post : List α) (u v : σ), as = pre ++ a :: post →
      Run step s pre u → step u a v → C u a) :
    Run (Guarded step C) s as t :=
  h.guard_of_guarded fun pre a post u v he hp hs => hC pre a post u v he hp.unguard hs

/-- Two runs of a deterministic system with the same labels end in the same state. -/
theorem deterministic (hd : ∀ s a t t', step s a t → step s a t' → t = t')
    {s t t' : σ} {as : List α} (h : Run step s as t) (h' : Run step s as t') : t = t' := by
  induction h with
  | nil => cases h'; rfl
  | cons hs _ ih =>
      cases h' with
      | cons hs' hr' => exact ih (hd _ _ _ _ hs' hs ▸ hr')

/-- One step more is guarded exactly if what was before is and the step is. -/
theorem guarded_concat_iff (hd : ∀ s a t t', step s a t → step s a t' → t = t')
    {C : σ → α → Prop} {s₀ s t : σ} {a : α} {as : List α} (h : Run step s₀ as s)
    (hs : step s a t) :
    Run (Guarded step C) s₀ (as ++ [a]) t ↔ Run (Guarded step C) s₀ as s ∧ C s a := by
  constructor
  · intro hr
    obtain ⟨s', hpre, hlast⟩ := hr.split
    -- the guarded run passes through the same state
    obtain rfl := h.deterministic hd hpre.unguard
    cases hlast with
    | cons hg _ => exact ⟨hpre, hg.2⟩
  · intro hr
    exact hr.1.append (single ⟨hs, hr.2⟩)

end Run

/-- A reflexive and transitive relation that every step respects holds throughout a run. -/
theorem throughout_of_steps {R : σ → σ → Prop} {I : σ → Prop} (hrefl : ∀ s, R s s)
    (htrans : ∀ {s t u}, R s t → R t u → R s u)
    (hI : ∀ {s a t}, I s → step s a t → I t)
    (hR : ∀ {s a t}, I s → step s a t → R s t) {s : σ} (h0 : I s) (as : List α) :
    Throughout step R s as := by
  intro pre mid post u v _ hpre hmid
  have hu : I u := hpre.invariant (I := I) hI h0
  exact hmid.preorder (I := I) (R := R) hrefl htrans hI hR hu

/--
**The exact condition.** Let `C` be the condition under which a step keeps `P`, from
states with the invariant `I`. A run keeps `P` throughout exactly if every step of it
meets `C`.
-/
theorem always_iff_guarded {I P : σ → Prop} {C : σ → α → Prop}
    (hd : ∀ s a t t', step s a t → step s a t' → t = t')
    (hI : ∀ {s a t}, I s → P s → C s a → step s a t → I t)
    (hP : ∀ {s a t}, I s → P s → step s a t → (P t ↔ C s a))
    {s t : σ} {as : List α} (h : Run step s as t) (hs : I s) (hp : P s) :
    Always step P s as ↔ Run (Guarded step C) s as t := by
  constructor
  · intro ha
    induction h with
    | nil => exact .nil
    | @cons s t u a as h1 hr ih =>
        have hpt : P t := ha [a] as t rfl (.single h1)
        have hc : C s a := (hP hs hp h1).mp hpt
        refine .cons ⟨h1, hc⟩ (ih (hI hs hp hc h1) hpt ?_)
        -- a state of the tail is one of the whole run
        intro pre post v he hv
        exact ha (a :: pre) post v (by rw [he]; rfl) (.cons h1 hv)
  · intro hg pre post u he hu
    subst he
    obtain ⟨u', hu', _⟩ := hg.split
    -- the guarded run passes through the same state
    obtain rfl := hu.deterministic hd hu'.unguard
    refine (hu'.invariant (I := fun v => I v ∧ P v) ?_ ⟨hs, hp⟩).2
    rintro s a t ⟨hi, hp⟩ ⟨h1, hc⟩
    exact ⟨hI hi hp hc h1, (hP hi hp h1).mpr hc⟩

end Lts
