import EssApp.Lib.Run
import Mathlib.Data.List.Forall2

/-!
# What a run puts out

Some steps do something that shows in no state: a message leaves, a position is
reported. `Trace step out s as bs t` is a run from `s` to `t` together with all that
its steps put out, in order. The invariant rule carries over, with what has been put
out so far as one more argument, and so does simulation.
-/

namespace Lts

variable {σ α β : Type}

/-- The run `as` from `s` can end in `t` and put out `bs`. -/
inductive Trace (step : σ → α → σ → Prop) (out : σ → α → σ → List β) :
    σ → List α → List β → σ → Prop where
  | nil {s : σ} : Trace step out s [] [] s
  | cons {s t u : σ} {a : α} {as : List α} {bs : List β} :
      step s a t → Trace step out t as bs u → Trace step out s (a :: as) (out s a t ++ bs) u

namespace Trace

variable {step : σ → α → σ → Prop} {out : σ → α → σ → List β}

theorem run {s t : σ} {as : List α} {bs : List β} (h : Trace step out s as bs t) :
    Run step s as t := by
  induction h with
  | nil => exact .nil
  | cons hs _ ih => exact .cons hs ih

/-- One step more in front, with all that is put out known beforehand. -/
theorem cons_eq {s t u : σ} {a : α} {as : List α} {bs bs' : List β} (hs : step s a t)
    (h : Trace step out t as bs u) (hout : out s a t ++ bs = bs') :
    Trace step out s (a :: as) bs' u :=
  hout ▸ .cons hs h

/-- Every run puts something out, if only nothing. -/
theorem exists_of_run {s t : σ} {as : List α} (h : Run step s as t) :
    ∃ bs, Trace step out s as bs t := by
  induction h with
  | nil => exact ⟨[], .nil⟩
  | cons hs _ ih =>
      obtain ⟨bs, hbs⟩ := ih
      exact ⟨_, .cons hs hbs⟩

/-- A trace of a guarded system is a trace of the system. -/
theorem unguard {C : σ → α → Prop} {s t : σ} {as : List α} {bs : List β}
    (h : Trace (Guarded step C) out s as bs t) : Trace step out s as bs t := by
  induction h with
  | nil => exact .nil
  | cons hs _ ih => exact .cons hs.1 ih

/--
**The invariant rule for traces, with history.** `I as bs s` may speak about the labels
seen so far and about what has been put out; a step appends to both.
-/
theorem history {I : List α → List β → σ → Prop}
    (hI : ∀ {as bs s a t}, I as bs s → step s a t → I (as ++ [a]) (bs ++ out s a t) t)
    {s t : σ} {as : List α} {bs : List β} (h : Trace step out s as bs t) (h0 : I [] [] s) :
    I as bs t := by
  -- induct on what is still to come, with what has been as `pre` and `shown`
  have go : ∀ {s t : σ} {as : List α} {bs : List β}, Trace step out s as bs t →
      ∀ pre shown, I pre shown s → I (pre ++ as) (shown ++ bs) t := by
    intro s t as bs h
    induction h with
    | nil =>
        intro pre shown hi
        rwa [List.append_nil, List.append_nil]
    | @cons s t u a as bs hs _ ih =>
        intro pre shown hi
        have hrest := ih _ _ (hI hi hs)
        rwa [List.append_assoc, List.append_assoc] at hrest
  exact go h [] [] h0

/-- **The invariant rule for traces.** `I bs s` may speak about what has been put out. -/
theorem invariant {I : List β → σ → Prop}
    (hI : ∀ {bs s a t}, I bs s → step s a t → I (bs ++ out s a t) t)
    {s t : σ} {as : List α} {bs : List β} (h : Trace step out s as bs t) (h0 : I [] s) :
    I bs t :=
  h.history (I := fun _ bs s => I bs s) hI h0

/--
**What is put out may be what another system goes through.** If that system can match
every step with what the step puts out, it can match every trace.
-/
theorem simulate_run {τ : Type} {step' : τ → β → τ → Prop} {R : σ → τ → Prop}
    (hR : ∀ {s a t u}, R s u → step s a t → ∃ v, Run step' u (out s a t) v ∧ R t v)
    {s t : σ} {as : List α} {bs : List β} (h : Trace step out s as bs t) {u : τ} (h0 : R s u) :
    ∃ v, Run step' u bs v ∧ R t v := by
  induction h generalizing u with
  | nil => exact ⟨u, .nil, h0⟩
  | cons hs _ ih =>
      obtain ⟨u', hu, hR'⟩ := hR h0 hs
      obtain ⟨v, hv, hRv⟩ := ih hR'
      exact ⟨v, hu.append hv, hRv⟩

/--
**Simulation of traces.** If every step is matched by one of another system that puts out
the same, under `g`, so is every trace. What the other step is called, `f`, may depend on the
state in which the step is taken.
-/
theorem simulate {τ α' β' : Type} {step' : τ → α' → τ → Prop} {out' : τ → α' → τ → List β'}
    {R : σ → τ → Prop} {f : σ → α → α'} {g : β' → β}
    (hR : ∀ {s a t u}, R s u → step s a t →
      ∃ v, step' u (f s a) v ∧ R t v ∧ out s a t = (out' u (f s a) v).map g)
    {s t : σ} {as : List α} {bs : List β} (h : Trace step out s as bs t) {u : τ} (h0 : R s u) :
    ∃ as' bs' v, Trace step (fun s a _ => [f s a]) s as as' t ∧ Trace step' out' u as' bs' v
      ∧ R t v ∧ bs = bs'.map g := by
  induction h generalizing u with
  | nil => exact ⟨[], [], u, .nil, .nil, h0, rfl⟩
  | cons hs _ ih =>
      obtain ⟨v, hs', hRv, hout⟩ := hR h0 hs
      obtain ⟨as', bs', v', hnames, htrace, hRv', hbs⟩ := ih hRv
      refine ⟨_ :: as', _, v', .cons hs hnames, .cons hs' htrace, hRv', ?_⟩
      rw [hout, hbs, List.map_append]

end Trace

end Lts
