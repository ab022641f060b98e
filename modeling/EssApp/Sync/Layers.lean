import EssApp.Lib.Simulation
import EssApp.Sync.Net
import EssApp.Sync.Network
import EssApp.Sync.Relay

/-!
# One system, seen three times

`Relay` and `Net` are simpler than `Network`, each in its own way. A whole sync of
`Relay` is three steps of `Network` on a connection with nothing on it
(`relay_in_network`); and a network with one unit that does not fail, on connections
that do not break, is a `Net` (`network_in_net`). So what is shown of any of the three
is shown of the same program.
-/

namespace EssApp.Sync

open Readme

/-! ## Whole syncs -/

/-- The events of `Network` that make up an event of `Relay`, on connection `c`. -/
def Relay.Event.unfold {ι κ γ : Type} (c : γ) : Relay.Event ι κ → List (Network.Event ι κ γ)
  | .create i latlng type id timestamp => [.create i latlng type id timestamp]
  | .sync i k => [.send i k c, .handle i k c, .process i k c]

/-- The same apps and units, and nothing under way. -/
structure Idle {ι κ γ : Type} (w : World ι κ) (n : Network ι κ γ) : Prop where
  apps : n.apps = w.apps
  units : n.units = w.units
  requests : ∀ c, n.requests c = []
  replies : ∀ c, n.replies c = []

section

variable {ι κ γ : Type} [DecidableEq ι] [DecidableEq κ] [DecidableEq γ]

/-- A place that is filled and emptied is empty again. -/
theorem update_emptied {α β : Type} [DecidableEq α] {f : α → List β} (h : ∀ c, f c = []) (a : α)
    (q : List β) : ∀ c, Function.update (Function.update f a q) a [] c = [] := by
  intro c
  rw [Function.update_idem]
  by_cases hc : c = a
  · subst hc
    rw [Function.update_self]
  · rw [Function.update_of_ne hc]
    exact h c

theorem relay_step {w w' : World ι κ} {n : Network ι κ γ} {e : Relay.Event ι κ} (c : γ)
    (h : Idle w n) (hs : Relay.Step w e w') :
    ∃ n', Lts.Run Network.Step n (e.unfold c) n' ∧ Idle w' n' := by
  obtain ⟨apps, units, requests, replies⟩ := n
  obtain ⟨rfl, rfl, hreq, hrep⟩ := h
  dsimp only at hreq hrep
  cases hs with
  | create _ => exact ⟨_, .single .create, rfl, rfl, hreq, hrep⟩
  | @sync i k =>
      have hqueue : Function.update requests (i, k, c) (requests (i, k, c) ++ [(w.apps i).database])
          (i, k, c) = (w.apps i).database :: [] := by
        rw [Function.update_self, hreq]
        rfl
      have hanswer : Function.update replies (i, k, c)
          (replies (i, k, c) ++ [(onClientMessage (w.units k) (w.apps i).database).1]) (i, k, c)
          = (onClientMessage (w.units k) (w.apps i).database).1 :: [] := by
        rw [Function.update_self, hrep]
        rfl
      refine ⟨_, .cons .send (.cons (.handle hqueue) (.single (.process hanswer))), rfl, rfl,
        ?_, ?_⟩
      · exact update_emptied hreq _ _
      · exact update_emptied hrep _ _

/-- **Runs of `Relay` are runs of `Network`.** -/
theorem relay_in_network {w w' : World ι κ} {n : Network ι κ γ} (c : γ) (h : Idle w n)
    {es : List (Relay.Event ι κ)} (hrun : Lts.Run Relay.Step w es w') :
    ∃ n', Lts.Run Network.Step n (es.flatMap (Relay.Event.unfold c)) n' ∧ Idle w' n' :=
  hrun.simulate (R := Idle) (f := Relay.Event.unfold c) (relay_step c) h

end

/-! ## One unit -/

/-- The events a `Net` has, too. -/
inductive InNet {ι : Type} : Network.Event ι Unit Unit → Event ι → Prop where
  | create {i : ι} {latlng : LatLng} {type : String} {id : EventId} {timestamp : JsonNumber} :
      InNet (.create i latlng type id timestamp) (.link i (.create latlng type id timestamp))
  | delete {i : ι} {ident : EventId} : InNet (.delete i ident) (.link i (.delete ident))
  | send {i : ι} : InNet (.send i () ()) (.link i .send)
  | handle {i : ι} : InNet (.handle i () ()) (.link i .handle)
  | process {i : ι} : InNet (.process i () ()) (.link i .process)
  | unit {e : Readme.Event} : InNet (.unit () e) (.unit e)

/-- The link of app `i` to the only unit. -/
def Network.link {ι : Type} (n : Network ι Unit Unit) (i : ι) : Link where
  app := n.apps i
  requests := n.requests (i, (), ())
  replies := n.replies (i, (), ())

/-- A network with one unit, as a `Net`. -/
def Network.toNet {ι : Type} (n : Network ι Unit Unit) : Net ι where
  links := n.link
  unit := n.units ()

section

variable {ι : Type} [DecidableEq ι]

/-- A move on one link, the others being as they were, is a step. -/
theorem net_link {n n' : Network ι Unit Unit} {i : ι} {a : Action}
    (hother : ∀ j, j ≠ i → n'.link j = n.link j)
    (hmove : Move (n.link i) (n.units ()) a (n'.link i) (n'.units ())) :
    Step n.toNet (.link i a) n'.toNet := by
  have hlinks : n'.link = Function.update n.link i (n'.link i) := by
    funext j
    by_cases hj : j = i
    · subst hj
      rw [Function.update_self]
    · rw [Function.update_of_ne hj]
      exact hother j hj
  have hstep : Step n.toNet (.link i a) ⟨Function.update n.link i (n'.link i), n'.units ()⟩ :=
    .link hmove
  rw [← hlinks] at hstep
  exact hstep

theorem net_step {n n' : Network ι Unit Unit} {e : Network.Event ι Unit Unit} {f : Event ι}
    (he : InNet e f) (hs : Network.Step n e n') : Step n.toNet f n'.toNet := by
  -- of the queues and apps, those of the other links are not touched
  cases he with
  | @create i latlng type id timestamp =>
      cases hs
      refine net_link (fun j hj => by simp [Network.link, hj]) ?_
      simp only [Network.link, Function.update_self]
      exact .create
  | @delete i ident =>
      cases hs
      refine net_link (fun j hj => by simp [Network.link, hj]) ?_
      simp only [Network.link, Function.update_self]
      exact .delete
  | @send i =>
      cases hs
      refine net_link (fun j hj => by simp [Network.link, hj]) ?_
      simp only [Network.link, Function.update_self]
      exact .send
  | @handle i =>
      cases hs with
      | handle hreq =>
          refine net_link (fun j hj => by simp [Network.link, hj]) ?_
          simp only [Network.link, Function.update_self]
          exact .handle hreq
  | @process i =>
      cases hs with
      | process hrep =>
          refine net_link (fun j hj => by simp [Network.link, hj]) ?_
          simp only [Network.link, Function.update_self]
          exact .process hrep
  | unit =>
      cases hs with
      | unit hstep =>
          show Step n.toNet _ { n.toNet with unit := Function.update n.units () _ () }
          rw [Function.update_self]
          exact .unit hstep

/-- **A network with one unit that does not fail, on connections that hold, is a `Net`.** -/
theorem network_in_net {n n' : Network ι Unit Unit} {es : List (Network.Event ι Unit Unit)}
    {fs : List (Event ι)} (he : List.Forall₂ InNet es fs)
    (hrun : Lts.Run Network.Step n es n') : Lts.Run Step n.toNet fs n'.toNet := by
  induction hrun generalizing fs with
  | nil =>
      cases he
      exact .nil
  | cons hs _ ih =>
      cases he with
      | cons hef he => exact .cons (net_step hef hs) (ih he)

end

end EssApp.Sync
