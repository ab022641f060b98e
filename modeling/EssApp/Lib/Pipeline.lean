import EssApp.Lib.Trace

/-!
# Requests and their replies

Two queues, back to back: requests on their way to a server, and its replies on their
way back. The server answers the oldest request, the client may have sent many by then.
`R a b` says that `b` is an answer to `a`.

What the client sees is what it sends and what it receives. `Paired` says that this is
all it needs to know, since the `n`-th reply answers the `n`-th request (`Paired.answered`).
It holds at the start and every step keeps it. `R` may grow as the run goes on, and so may
speak about what has happened in it.
-/

namespace Pipeline

variable {α β : Type}

structure State (α β : Type) where
  pending : List α := []
  answered : List β := []

inductive Op (α : Type) where
  | send (a : α)
  | answer
  | receive
  /-- Something else happens. -/
  | skip

inductive Step (R : α → β → Prop) : State α β → Op α → State α β → Prop where
  | send {as : List α} {bs : List β} {a : α} : Step R ⟨as, bs⟩ (.send a) ⟨as ++ [a], bs⟩
  | answer {as : List α} {bs : List β} {a : α} {b : β} : R a b →
      Step R ⟨a :: as, bs⟩ .answer ⟨as, bs ++ [b]⟩
  | receive {as : List α} {bs : List β} {b : β} : Step R ⟨as, b :: bs⟩ .receive ⟨as, bs⟩
  | skip {s : State α β} : Step R s .skip s

/-- What the client sees of a step. -/
def seen (s : State α β) (op : Op α) (_ : State α β) : List (α ⊕ β) :=
  match op with
  | .send a => [.inl a]
  | .receive => (s.answered.take 1).map .inr
  | _ => []

def sent (xs : List (α ⊕ β)) : List α := xs.filterMap Sum.getLeft?

def received (xs : List (α ⊕ β)) : List β := xs.filterMap Sum.getRight?

/-- What was sent is answered or pending, and what was answered is received or under way. -/
structure Paired (R : α → β → Prop) (xs : List (α ⊕ β)) (s : State α β) (handled : List α) :
    Prop where
  sent : sent xs = handled ++ s.pending
  answers : List.Forall₂ R handled (received xs ++ s.answered)

theorem sent_append (xs ys : List (α ⊕ β)) : sent (xs ++ ys) = sent xs ++ sent ys :=
  List.filterMap_append

theorem received_append (xs ys : List (α ⊕ β)) :
    received (xs ++ ys) = received xs ++ received ys :=
  List.filterMap_append

theorem paired_step {R : α → β → Prop} {xs : List (α ⊕ β)} {s t : State α β} {op : Op α}
    (h : ∃ handled, Paired R xs s handled) (hs : Step R s op t) :
    ∃ handled, Paired R (xs ++ seen s op t) t handled := by
  obtain ⟨handled, hsent, hanswers⟩ := h
  cases hs with
  | @send as bs a =>
      refine ⟨handled, ?_, ?_⟩
      · rw [sent_append, hsent, List.append_assoc]
        rfl
      · rw [received_append]
        show List.Forall₂ R handled (received xs ++ [] ++ bs)
        rw [List.append_nil]
        exact hanswers
  | @answer as bs a b hab =>
      -- the oldest request is handled now
      refine ⟨handled ++ [a], ?_, ?_⟩
      · rw [sent_append, hsent]
        show handled ++ a :: as ++ [] = handled ++ [a] ++ as
        rw [List.append_nil, List.append_assoc]
        rfl
      · rw [received_append]
        show List.Forall₂ R (handled ++ [a]) (received xs ++ [] ++ (bs ++ [b]))
        rw [List.append_nil, ← List.append_assoc]
        exact List.rel_append hanswers (.cons hab .nil)
  | @receive as bs b =>
      refine ⟨handled, ?_, ?_⟩
      · rw [sent_append, hsent]
        exact List.append_nil _
      · rw [received_append, List.append_assoc]
        exact hanswers
  | skip =>
      refine ⟨handled, ?_, ?_⟩
      · rw [sent_append, hsent]
        exact List.append_nil _
      · rw [received_append]
        show List.Forall₂ R handled (received xs ++ [] ++ s.answered)
        rw [List.append_nil]
        exact hanswers

theorem paired_start (R : α → β → Prop) : Paired R [] {} [] := ⟨rfl, .nil⟩

/-- What was an answer still is one. -/
theorem Paired.mono {R R' : α → β → Prop} {xs : List (α ⊕ β)} {s : State α β} {handled : List α}
    (h : Paired R xs s handled) (hR : ∀ a b, R a b → R' a b) : Paired R' xs s handled :=
  ⟨h.sent, h.answers.imp hR⟩

/-- **The `n`-th reply answers the `n`-th request**, and no reply comes without one. -/
theorem Paired.answered {R : α → β → Prop} {xs : List (α ⊕ β)} {s : State α β} {handled : List α}
    (h : Paired R xs s handled) :
    (received xs).length ≤ (Pipeline.sent xs).length
      ∧ List.Forall₂ R ((Pipeline.sent xs).take (received xs).length) (received xs) := by
  obtain ⟨hsent, hanswers⟩ := h
  have hlen := hanswers.length_eq
  rw [List.length_append] at hlen
  have htake : (Pipeline.sent xs).take (received xs).length
      = handled.take (received xs).length := by
    rw [hsent, List.take_append_of_le_length (by omega)]
  refine ⟨?_, ?_⟩
  · rw [hsent, List.length_append]
    omega
  · have hfront := List.forall₂_take (received xs).length hanswers
    rw [List.take_left] at hfront
    rw [htake]
    exact hfront

end Pipeline
