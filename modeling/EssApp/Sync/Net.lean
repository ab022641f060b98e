import EssApp.Lib.Places
import EssApp.Sync.App
import Mathlib.Logic.Function.Basic

/-!
# Apps and a Witness Unit, with messages in flight

Each app has one ordered connection to the unit: requests queue up in one
direction, replies in the other, and both may take any time. A `Link` is an app
with the two queues, and `Move` is everything that can happen on one link, the
unit's share in it included. The unit's own steps (messages of the broker, ticks,
callbacks) interleave freely.

A reply is computed from a copy of the app's lists that may be old by the time it
arrives, and `onmessage` puts it in their place. An event created while such a
copy is in flight is not in it: `lost_if_in_flight` loses it, whatever came
before. Created while nothing is in flight, an event is in every later request,
hence in every later reply, and stays (`kept_if_quiet`).
-/

namespace EssApp.Sync

open Readme

/-- An app and its connection. -/
structure Link where
  app : App := {}
  /-- Requests on their way to the unit, oldest first. -/
  requests : List Database := []
  /-- Replies on their way to the app, oldest first. -/
  replies : List Database := []

/-- What can happen on a link. -/
inductive Action where
  /-- The user reports an event under a drawn id. -/
  | create (latlng : LatLng) (type : String) (id : EventId) (timestamp : JsonNumber)
  /-- The user removes the event `ident`. -/
  | delete (ident : EventId)
  /-- The update interval fires. -/
  | send
  /-- The unit handles the oldest request. -/
  | handle
  /-- The app processes the oldest reply. -/
  | process

inductive Move (l : Link) (s : Server) : Action → Link → Server → Prop where
  | create {latlng : LatLng} {type : String} {id : EventId} {timestamp : JsonNumber} :
      Move l s (.create latlng type id timestamp)
        { l with app := l.app.onClick (newEvent latlng type id timestamp) } s
  | delete {ident : EventId} :
      Move l s (.delete ident) { l with app := l.app.deleteEvent ident } s
  | send : Move l s .send { l with requests := l.requests ++ [l.app.database] } s
  | handle {request : Database} {rest : List Database} : l.requests = request :: rest →
      Move l s .handle
        { l with requests := rest, replies := l.replies ++ [(onClientMessage s request).1] }
        (onClientMessage s request).2
  | process {reply : Database} {rest : List Database} : l.replies = reply :: rest →
      Move l s .process { l with app := l.app.onmessage reply, replies := rest } s

/-- Apps `ι` with their links, and the unit. -/
structure Net (ι : Type) where
  links : ι → Link
  unit : Server

/-- The state before anything was sent. -/
def start {ι : Type} (apps : ι → App) (unit : Server) : Net ι where
  links i := { app := apps i }
  unit := unit

inductive Event (ι : Type) where
  /-- Something happens on the link of app `i`. -/
  | link (i : ι) (a : Action)
  /-- A step of the unit on its own. -/
  | unit (e : Readme.Event)

section

variable {ι : Type} [DecidableEq ι]

inductive Step (n : Net ι) : Event ι → Net ι → Prop where
  | link {i : ι} {a : Action} {l : Link} {s : Server} : Move (n.links i) n.unit a l s →
      Step n (.link i a) { links := Function.update n.links i l, unit := s }
  | unit {e : Readme.Event} {s : Server} : Readme.Step n.unit e s →
      Step n (.unit e) { n with unit := s }

omit [DecidableEq ι] in
@[simp] theorem start_links (apps : ι → App) (unit : Server) (i : ι) :
    (start apps unit).links i = { app := apps i } := rfl

/-- What a step does to the link of `i`: a move, or nothing. -/
theorem step_link {n n' : Net ι} {e : Event ι} (h : Step n e n') (i : ι) :
    (∃ a, e = .link i a ∧ Move (n.links i) n.unit a (n'.links i) n'.unit)
      ∨ (n'.links i = n.links i ∧ ∀ a, e ≠ .link i a) := by
  cases h with
  | @link j a l s hm =>
      by_cases hij : i = j
      · subst hij
        refine Or.inl ⟨a, rfl, ?_⟩
        dsimp only
        rw [Function.update_self]
        exact hm
      · refine Or.inr ⟨Function.update_of_ne hij _ _, fun a h => hij ?_⟩
        cases h
        rfl
  | unit _ => exact Or.inr ⟨rfl, fun a h => (by cases h)⟩

end

/-! ## Events that are kept -/

/-- The app holds `X`, and so does every copy of its lists that is in flight. -/
structure Kept (X : EventId) (l : Link) : Prop where
  app : X ∈ ids l.app.marker_list
  requests : ∀ r ∈ l.requests, X ∈ ids r.markers
  replies : ∀ r ∈ l.replies, X ∈ ids r.markers

/--
A moment for the action at which its app cannot lose an event: the user creates
only while nothing is in flight, and deletes only what is in the list.
-/
def QuietAction (l : Link) : Action → Prop
  | .create _ _ _ _ => l.requests = [] ∧ l.replies = []
  | .delete ident => ident ∈ ids l.app.marker_list
  | _ => True

/-- A step that, as far as app `i` goes, comes at a quiet moment. -/
def Quiet {ι : Type} (i : ι) (n : Net ι) (e : Event ι) : Prop :=
  ∀ a, e = .link i a → QuietAction (n.links i) a

/-- Creating an event while nothing is in flight puts it everywhere it has to be. -/
theorem kept_create {l l' : Link} {s s' : Server} {latlng : LatLng} {type : String} {X : EventId}
    {timestamp : JsonNumber} (h : Move l s (.create latlng type X timestamp) l' s')
    (hq : l.requests = [] ∧ l.replies = []) : Kept X l' := by
  cases h with
  | create =>
      refine ⟨mem_ids.mpr ⟨_, mem_onClick.mpr (Or.inr rfl), rfl⟩, ?_, ?_⟩
      · intro r hr
        exact absurd (hq.1 ▸ hr) (by simp)
      · intro r hr
        exact absurd (hq.2 ▸ hr) (by simp)

/-- **A kept event stays kept**, unless its user deletes it. -/
theorem kept_move {l l' : Link} {s s' : Server} {a : Action} {X : EventId} (h : Kept X l)
    (hm : Move l s a l' s') (hq : ∀ ident, a = .delete ident → ident ∈ ids l.app.marker_list)
    (hd : a ≠ .delete X) : Kept X l' := by
  cases hm with
  | create =>
      refine ⟨?_, h.requests, h.replies⟩
      rw [onClick_marker_list, ids, List.map_append]
      exact List.mem_append_left _ h.app
  | @delete ident =>
      have hne : X ≠ ident := fun hX => hd (hX ▸ rfl)
      exact ⟨mem_ids_deleteEvent (hq ident rfl) h.app hne, h.requests, h.replies⟩
  | send => exact ⟨h.app, Places.forall_mem_concat h.requests h.app, h.replies⟩
  | @handle request rest hreq =>
      -- the reply has what the request had
      have hreply : X ∈ ids (onClientMessage s request).1.markers :=
        mem_ids_merge.mpr (Or.inr (h.requests request (hreq ▸ List.mem_cons_self)))
      exact ⟨h.app, fun r hr => h.requests r (hreq ▸ List.mem_cons_of_mem _ hr),
        Places.forall_mem_concat h.replies hreply⟩
  | @process reply rest hrep =>
      exact ⟨h.replies reply (hrep ▸ List.mem_cons_self), h.requests,
        fun r hr => h.replies r (hrep ▸ List.mem_cons_of_mem _ hr)⟩

section

variable {ι : Type} [DecidableEq ι]

/--
**Created in a quiet moment, an event is kept.** In every run whose steps are quiet
for app `i`, whatever it created and has not deleted since is in its list.
-/
theorem kept_if_quiet {i : ι} {n₀ n : Net ι} {pre post : List (Event ι)} {latlng : LatLng}
    {type : String} {X : EventId} {timestamp : JsonNumber}
    (hrun : Lts.Run (Lts.Guarded Step (Quiet i)) n₀
      (pre ++ .link i (.create latlng type X timestamp) :: post) n)
    (hdel : .link i (.delete X) ∉ post) : X ∈ ids (n.links i).app.marker_list := by
  obtain ⟨n₁, _, hrest⟩ := hrun.split
  cases hrest with
  | @cons _ n₂ _ _ _ hs hpost =>
      obtain ⟨hstep, hq⟩ := hs
      have hkept : Kept X (n₂.links i) := by
        rcases step_link hstep i with ⟨a, ha, hm⟩ | ⟨_, hne⟩
        · cases ha
          exact kept_create hm (hq _ rfl)
        · exact absurd rfl (hne _)
      -- from there on no step deletes it, and the invariant is that it is kept
      have hguard := hpost.guard (C := fun _ e => e ≠ .link i (.delete X))
        (fun p e q u v he _ _ hX => hdel (by rw [he, hX]; simp))
      have hinv := hguard.invariant (I := fun n => Kept X (n.links i)) (fun {u e v} hk hs => by
        obtain ⟨⟨hstep, hq⟩, hne⟩ := hs
        rcases step_link hstep i with ⟨a, rfl, hm⟩ | ⟨heq, _⟩
        · exact kept_move hk hm (fun ident ha => by subst ha; exact hq _ rfl)
            (fun ha => hne (by rw [ha]))
        · rw [heq]; exact hk) hkept
      exact hinv.app

/-! ## Events that are lost -/

/-- A move on the link of `i` is a step, after which that link is as the move left it. -/
theorem exists_step {n : Net ι} {i : ι} {a : Action} {l : Link} {s : Server}
    (h : Move (n.links i) n.unit a l s) :
    ∃ n', Step n (.link i a) n' ∧ n'.links i = l ∧ n'.unit = s :=
  ⟨_, .link h, Function.update_self _ _ _, rfl⟩

/--
**Created with something in flight, an event can be lost.** If a request or a reply
of app `i` is on its way and neither these nor the unit have heard of `X`, then
after creating `X` some continuation leaves the app without it.
-/
theorem lost_if_in_flight {i : ι} {n : Net ι} {X : EventId} (latlng : LatLng) (type : String)
    (timestamp : JsonNumber) (hflight : (n.links i).requests ≠ [] ∨ (n.links i).replies ≠ [])
    (hreq : ∀ r ∈ (n.links i).requests, X ∉ ids r.markers)
    (hrep : ∀ r ∈ (n.links i).replies, X ∉ ids r.markers)
    (hunit : X ∉ ids n.unit.database.markers) :
    ∃ es n', Lts.Run Step n (.link i (.create latlng type X timestamp) :: es) n'
      ∧ X ∉ ids (n'.links i).app.marker_list := by
  have hcreate : Move (n.links i) n.unit (.create latlng type X timestamp) _ _ := .create
  obtain ⟨n₁, h₁, hl₁, hu₁⟩ := exists_step hcreate
  -- creating leaves both queues alone
  have hreq₁ : (n₁.links i).requests = (n.links i).requests := by rw [hl₁]
  have hrep₁ : (n₁.links i).replies = (n.links i).replies := by rw [hl₁]
  cases hr : (n.links i).replies with
  | cons reply rest =>
      -- a reply is on its way: it replaces the list
      obtain ⟨n₂, h₂, hl₂, _⟩ := exists_step (.process (hrep₁.trans hr))
      refine ⟨_, n₂, .cons h₁ (.single h₂), ?_⟩
      rw [hl₂]
      exact hrep reply (hr ▸ List.mem_cons_self)
  | nil =>
      cases hq : (n.links i).requests with
      | nil => exact (hflight.elim (fun h => h hq) (fun h => h hr)).elim
      | cons request rest =>
          -- only requests are: the oldest is handled, and its reply replaces the list
          obtain ⟨n₂, h₂, hl₂, _⟩ := exists_step (.handle (hreq₁.trans hq))
          have hrep₂ : (n₂.links i).replies = [mergeDatabases n.unit.database request] := by
            rw [hl₂, hrep₁, hr, hu₁]
            rfl
          obtain ⟨n₃, h₃, hl₃, _⟩ := exists_step (.process hrep₂)
          refine ⟨_, n₃, .cons h₁ (.cons h₂ (.single h₃)), ?_⟩
          rw [hl₃]
          exact fun h => (mem_ids_merge.mp h).elim hunit (hreq request (hq ▸ List.mem_cons_self))

end

/-- One app with nothing stored and the README's unit without events. -/
def oneApp : Net Unit := start (fun _ => {}) (boot (readmeDatabase []))

/-- The user reports the README's event. -/
def report (id : EventId) : Action :=
  .create (readmeEvent id).latlng "fire" id (readmeEvent id).timestamp

/-- An event created before the first send survives the sync. -/
theorem kept_through_sync :
    ∃ n, Lts.Run Step oneApp
        ([] ++ .link () (report idA) :: [.link () .send, .link () .handle, .link () .process]) n
      ∧ idA ∈ ids (n.links ()).app.marker_list := by
  have hrun : Lts.Run (Lts.Guarded Step (Quiet ())) oneApp
      ([] ++ .link () (report idA) :: [.link () .send, .link () .handle, .link () .process]) _ :=
    .cons ⟨.link .create, fun a ha => (by cases ha; exact ⟨rfl, rfl⟩)⟩
      (.cons ⟨.link .send, fun a ha => (by cases ha; trivial)⟩
        (.cons ⟨.link (.handle rfl), fun a ha => (by cases ha; trivial)⟩
          (.cons ⟨.link (.process rfl), fun a ha => (by cases ha; trivial)⟩ .nil)))
  exact ⟨_, hrun.unguard, kept_if_quiet hrun (by simp)⟩

/-- An event created between a send and the processing of its reply is gone after it. -/
theorem lost_between_send_and_reply :
    ∃ n, Lts.Run Step oneApp
        ([.link () .send] ++ .link () (report idA) :: [.link () .handle, .link () .process]) n
      ∧ idA ∉ ids (n.links ()).app.marker_list :=
  ⟨_, .cons (.link .send) (.cons (.link .create) (.cons (.link (.handle rfl))
    (.single (.link (.process rfl))))), by decide⟩

end EssApp.Sync
