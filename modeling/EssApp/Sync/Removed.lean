import EssApp.Lib.Places
import EssApp.Lib.Run
import EssApp.Sync.Net

/-!
# What becomes of a removed event

One app and one Witness Unit. Removing an event is a thing of the app alone: it
leaves the list, and nothing says so to the unit. The unit's merge only adds and
the app adopts every reply, so an event that has been sent comes back with the next
reply that is computed from a copy of it.

`stays_removed_iff` is the exact account. An event stays removed if, when the user
confirms, the app's list was the only place that had it; if the unit, a request or
a reply has it too, there is a way for it to return.
-/

namespace EssApp.Sync

namespace Removed

open Readme

structure Pair where
  link : Link
  unit : Server
  /-- The ids drawn so far. -/
  drawn : List EventId

/-- The id an action draws. -/
def drawnBy : Action → List EventId
  | .create _ _ id _ => [id]
  | _ => []

/-- A move on the link, in which no id is drawn a second time. -/
inductive Step (p : Pair) : Action → Pair → Prop where
  | move {a : Action} {l : Link} {s : Server} : Move p.link p.unit a l s →
      (∀ id ∈ drawnBy a, id ∉ p.drawn) →
      Step p a { link := l, unit := s, drawn := p.drawn ++ drawnBy a }

/-- Nothing in flight, and only what is stored has been drawn. -/
def start (app : App) (unit : Server) : Pair where
  link := { app := app }
  unit := unit
  drawn := ids app.marker_list ++ ids unit.database.markers

/-- The unit, a request or a reply has `X`. -/
def Elsewhere (X : EventId) (p : Pair) : Prop :=
  X ∈ ids p.unit.database.markers ∨ (∃ r ∈ p.link.requests, X ∈ ids r.markers)
    ∨ ∃ r ∈ p.link.replies, X ∈ ids r.markers

/-! ## What holds of every id there is -/

/-- Every id in the app, in flight or in the unit satisfies `Q`. -/
structure AllIds (Q : EventId → Prop) (l : Link) (s : Server) : Prop where
  app : ∀ id ∈ ids l.app.marker_list, Q id
  requests : ∀ r ∈ l.requests, ∀ id ∈ ids r.markers, Q id
  replies : ∀ r ∈ l.replies, ∀ id ∈ ids r.markers, Q id
  unit : ∀ id ∈ ids s.database.markers, Q id

theorem AllIds.mono {Q Q' : EventId → Prop} {l : Link} {s : Server} (h : AllIds Q l s)
    (hQ : ∀ id, Q id → Q' id) : AllIds Q' l s where
  app id hid := hQ id (h.app id hid)
  requests r hr id hid := hQ id (h.requests r hr id hid)
  replies r hr id hid := hQ id (h.replies r hr id hid)
  unit id hid := hQ id (h.unit id hid)

/-- **No move brings in an id**, except the one it draws. -/
theorem allIds_move {Q : EventId → Prop} {l l' : Link} {s s' : Server} {a : Action}
    (h : AllIds Q l s) (hm : Move l s a l' s') (hnew : ∀ id ∈ drawnBy a, Q id) :
    AllIds Q l' s' := by
  cases hm with
  | @create latlng type id timestamp =>
      refine ⟨?_, h.requests, h.replies, h.unit⟩
      rw [onClick_marker_list, ids, List.map_append]
      exact Places.forall_mem_concat h.app (hnew id (List.mem_singleton_self id))
  | delete =>
      refine ⟨?_, h.requests, h.replies, h.unit⟩
      intro id hid
      obtain ⟨m, hm, rfl⟩ := mem_ids.mp hid
      exact h.app _ (mem_ids_of_mem (mem_of_deleteEvent hm))
  | send => exact ⟨h.app, Places.forall_mem_concat h.requests h.app, h.replies, h.unit⟩
  | @handle request rest hreq =>
      have hfirst := h.requests request (hreq ▸ List.mem_cons_self)
      -- the reply, which is also what is stored, has the ids of both
      have hmerge : ∀ id ∈ ids (mergeDatabases s.database request).markers, Q id := by
        intro id hid
        rcases mem_ids_merge.mp hid with hid | hid
        · exact h.unit id hid
        · exact hfirst id hid
      exact ⟨h.app, fun r hr => h.requests r (hreq ▸ List.mem_cons_of_mem _ hr),
        Places.forall_mem_concat h.replies hmerge, hmerge⟩
  | @process reply rest hrep =>
      exact ⟨h.replies reply (hrep ▸ List.mem_cons_self), h.requests,
        fun r hr => h.replies r (hrep ▸ List.mem_cons_of_mem _ hr), h.unit⟩

/-- The invariant of every run. -/
structure Known (p : Pair) : Prop where
  /-- Whatever id there is was drawn. -/
  drawn : AllIds (· ∈ p.drawn) p.link p.unit
  /-- The list has no id twice, -/
  nodup : (ids p.link.app.marker_list).Nodup
  /-- and neither has a reply. -/
  replies : ∀ r ∈ p.link.replies, (ids r.markers).Nodup

theorem known_start {app : App} {unit : Server} (hn : (ids app.marker_list).Nodup) :
    Known (start app unit) where
  drawn := ⟨fun _ h => List.mem_append_left _ h, by simp [start], by simp [start],
    fun _ h => List.mem_append_right _ h⟩
  nodup := hn
  replies := by simp [start]

theorem known_step {p p' : Pair} {a : Action} (h : Known p) (hs : Step p a p') : Known p' := by
  cases hs with
  | @move l s hm hfresh =>
      have hall : AllIds (· ∈ p.drawn ++ drawnBy a) l s :=
        allIds_move (h.drawn.mono fun _ hid => List.mem_append_left _ hid) hm
          (fun _ hid => List.mem_append_right _ hid)
      cases hm with
      | @create latlng type id timestamp =>
          refine ⟨hall, ?_, h.replies⟩
          show (ids (p.link.app.onClick _).marker_list).Nodup
          rw [onClick_marker_list, ids, List.map_append]
          refine h.nodup.append (List.nodup_singleton _) ?_
          intro i hi hc
          rw [List.mem_singleton.mp hc] at hi
          exact hfresh id (List.mem_singleton_self id) (h.drawn.app _ hi)
      | delete => exact ⟨hall, h.nodup.sublist ((List.eraseIdx_sublist _ _).map _), h.replies⟩
      | send => exact ⟨hall, h.nodup, h.replies⟩
      | handle _ =>
          exact ⟨hall, h.nodup, Places.forall_mem_concat h.replies (nodup_merge _ _)⟩
      | @process reply rest hrep =>
          exact ⟨hall, h.replies reply (hrep ▸ List.mem_cons_self),
            fun r hr => h.replies r (hrep ▸ List.mem_cons_of_mem _ hr)⟩

/-! ## An event nobody else has stays removed -/

/-- Nothing has `X`, and no event will be given its id. -/
structure Gone (X : EventId) (p : Pair) : Prop where
  drawn : X ∈ p.drawn
  nowhere : AllIds (· ≠ X) p.link p.unit

theorem gone_step {X : EventId} {p p' : Pair} {a : Action} (h : Gone X p) (hs : Step p a p') :
    Gone X p' := by
  cases hs with
  | move hm hfresh =>
      refine ⟨List.mem_append_left _ h.drawn, allIds_move h.nowhere hm ?_⟩
      -- an id that is drawn now was not drawn before
      rintro id hid rfl
      exact hfresh id hid h.drawn

theorem not_mem_deleteEvent {a : App} {X : EventId} (hn : (ids a.marker_list).Nodup) :
    X ∉ ids (a.deleteEvent X).marker_list := by
  by_cases hX : X ∈ ids a.marker_list
  · rw [ids_deleteEvent_of_mem hX, hn.mem_erase_iff]
    exact fun h => h.1 rfl
  · intro hc
    obtain ⟨m, hm, hid⟩ := mem_ids.mp hc
    exact hX (mem_ids.mpr ⟨m, mem_of_deleteEvent hm, hid⟩)

theorem gone_of_delete {X : EventId} {p p' : Pair} (h : Known p) (hX : X ∈ p.drawn)
    (hs : Step p (.delete X) p') (he : ¬ Elsewhere X p) : Gone X p' := by
  cases hs with
  | move hm _ =>
      cases hm with
      | delete =>
          refine ⟨List.mem_append_left _ hX, ?_, ?_, ?_, ?_⟩
          · rintro id hid rfl
            exact not_mem_deleteEvent h.nodup hid
          · rintro r hr id hid rfl
            exact he (Or.inr (Or.inl ⟨r, hr, hid⟩))
          · rintro r hr id hid rfl
            exact he (Or.inr (Or.inr ⟨r, hr, hid⟩))
          · rintro id hid rfl
            exact he (Or.inl hid)

/-! ## An event somebody has comes back -/

/-- A move that draws no id is a step, after which the link is as the move left it. -/
theorem exists_step {p : Pair} {a : Action} {l : Link} {s : Server}
    (h : Move p.link p.unit a l s) (ha : drawnBy a = []) :
    ∃ q, Step p a q ∧ q.link = l ∧ q.unit = s := by
  refine ⟨_, .move h ?_, rfl, rfl⟩
  intro id hid
  rw [ha] at hid
  exact absurd hid List.not_mem_nil

/-- Processing replies up to a given one leaves the app with its list. -/
theorem exists_process {p : Pair} {before after : List Database} {reply : Database}
    (h : p.link.replies = before ++ reply :: after) :
    ∃ es q, Lts.Run Step p es q ∧ q.link.app.marker_list = reply.markers := by
  induction before generalizing p with
  | nil =>
      obtain ⟨q, hstep, hlink, _⟩ := exists_step (.process h) rfl
      refine ⟨_, q, .single hstep, ?_⟩
      rw [hlink]
      rfl
  | cons r before ih =>
      obtain ⟨q, hstep, hlink, _⟩ := exists_step (.process h) rfl
      obtain ⟨es, q', hrun, hq'⟩ := ih (p := q) (by rw [hlink]; rfl)
      exact ⟨_, q', .cons hstep hrun, hq'⟩

/-- Handling all requests leaves the unit with everything it had and they had. -/
theorem exists_handle {X : EventId} {p : Pair}
    (h : X ∈ ids p.unit.database.markers ∨ ∃ r ∈ p.link.requests, X ∈ ids r.markers) :
    ∃ es q, Lts.Run Step p es q ∧ q.link.requests = [] ∧ X ∈ ids q.unit.database.markers := by
  generalize hreq : p.link.requests = requests at h
  induction requests generalizing p with
  | nil =>
      refine ⟨[], p, .nil, hreq, h.resolve_right ?_⟩
      rintro ⟨r, hr, _⟩
      cases hr
  | cons request rest ih =>
      obtain ⟨q, hstep, hlink, hunit⟩ := exists_step (.handle hreq) rfl
      have hnext : X ∈ ids q.unit.database.markers ∨ ∃ r ∈ rest, X ∈ ids r.markers := by
        rw [hunit]
        rcases h with h | ⟨r, hr, hX⟩
        · exact Or.inl (mem_ids_merge.mpr (Or.inl h))
        · rcases List.mem_cons.mp hr with rfl | hr
          · exact Or.inl (mem_ids_merge.mpr (Or.inr hX))
          · exact Or.inr ⟨r, hr, hX⟩
      obtain ⟨es, q', hrun, hq', hX⟩ := ih (by rw [hlink]) hnext
      exact ⟨_, q', .cons hstep hrun, hq', hX⟩

/-- With no request ahead of it, one more exchange brings back what the unit has. -/
theorem exists_exchange {X : EventId} {p : Pair} (hreq : p.link.requests = [])
    (hX : X ∈ ids p.unit.database.markers) :
    ∃ es q, Lts.Run Step p es q ∧ X ∈ ids q.link.app.marker_list := by
  obtain ⟨q₁, h₁, hl₁, hu₁⟩ := exists_step (p := p) .send rfl
  have hreq₁ : q₁.link.requests = [p.link.app.database] := by
    rw [hl₁, hreq]
    rfl
  obtain ⟨q₂, h₂, hl₂, _⟩ := exists_step (.handle hreq₁) rfl
  obtain ⟨es, q, hrun, hq⟩ := exists_process (p := q₂) (by rw [hl₂])
  refine ⟨_, q, .cons h₁ (.cons h₂ hrun), ?_⟩
  rw [hq, hu₁]
  exact mem_ids_merge.mpr (Or.inl hX)

/-- **An event that is somewhere else can return.** -/
theorem exists_return {X : EventId} {p : Pair} (h : Elsewhere X p) :
    ∃ es q, Lts.Run Step p es q ∧ X ∈ ids q.link.app.marker_list := by
  rw [Elsewhere, ← or_assoc] at h
  rcases h with h | ⟨r, hr, hX⟩
  · obtain ⟨es, q, hrun, hq, hX⟩ := exists_handle h
    obtain ⟨es', q', hrun', hX'⟩ := exists_exchange hq hX
    exact ⟨_, q', hrun.append hrun', hX'⟩
  · obtain ⟨before, after, hsplit⟩ := List.append_of_mem hr
    obtain ⟨es, q, hrun, hq⟩ := exists_process hsplit
    exact ⟨es, q, hrun, hq ▸ hX⟩

/-! ## The account -/

/-- Deleting leaves the unit and what is in flight alone. -/
theorem elsewhere_delete {X ident : EventId} {p p' : Pair} (hs : Step p (.delete ident) p') :
    Elsewhere X p' ↔ Elsewhere X p := by
  cases hs with
  | move hm _ => cases hm with | delete => exact Iff.rfl

/--
**When a removed event stays removed.** In every run from an app whose stored ids are
distinct, with no id drawn twice: once the user has confirmed the deletion of the
event `X`, its id is in the list in no later state of any continuation exactly if,
at the deletion, neither the unit nor anything in flight had it.
-/
theorem stays_removed_iff {app : App} {unit : Server} (hn : (ids app.marker_list).Nodup)
    {pre : List Action} {p p' : Pair} {X : EventId}
    (hpre : Lts.Run Step (start app unit) pre p) (hX : X ∈ p.drawn)
    (hdel : Step p (.delete X) p') :
    (∀ post q, Lts.Run Step p' post q → X ∉ ids q.link.app.marker_list) ↔ ¬ Elsewhere X p := by
  constructor
  · intro h he
    obtain ⟨es, q, hrun, hq⟩ := exists_return ((elsewhere_delete hdel).mpr he)
    exact h es q hrun hq
  · intro he post q hrun hq
    have hknown : Known p := hpre.invariant (I := Known) known_step (known_start hn)
    have hgone := hrun.invariant (I := Gone X) gone_step (gone_of_delete hknown hX hdel he)
    exact hgone.nowhere.app X hq rfl

/-- The README's event has been reported, and nothing sent. -/
def unsent : Pair where
  link :=
    { app := App.onClick {} (newEvent (readmeEvent idA).latlng "fire" idA
        (readmeEvent idA).timestamp) }
  unit := boot (readmeDatabase [])
  drawn := [idA]

/-- Taken back before it is sent, it stays away. -/
theorem stays_removed_unsent :
    ∃ p, Step unsent (.delete idA) p
      ∧ ((∀ post q, Lts.Run Step p post q → idA ∉ ids q.link.app.marker_list)
        ↔ ¬ Elsewhere idA unsent) := by
  have hreport : Lts.Run Step (start {} (boot (readmeDatabase []))) [report idA] unsent :=
    .single (.move .create (by decide))
  have hdel : Step unsent (.delete idA) _ := .move .delete (by simp [drawnBy])
  exact ⟨_, hdel, stays_removed_iff (by decide) hreport (by decide) hdel⟩

/-- Reported, sent, stored and confirmed by the unit, then removed, then one more exchange. -/
def removeAndSync : List Action :=
  [report idA, .send, .handle, .process, .delete idA, .send, .handle, .process]

/-- **Nothing tells the unit**: the next reply brings the removed event back. -/
theorem removed_event_returns :
    ∃ q, Lts.Run Step (start {} (boot (readmeDatabase []))) removeAndSync q
      ∧ idA ∈ ids q.link.app.marker_list := by
  have hrun : Lts.Run Step (start {} (boot (readmeDatabase []))) removeAndSync _ :=
    .cons (.move .create (by decide)) (.cons (.move .send (by simp [drawnBy]))
      (.cons (.move (.handle rfl) (by simp [drawnBy])) (.cons (.move (.process rfl)
        (by simp [drawnBy])) (.cons (.move .delete (by simp [drawnBy]))
          (.cons (.move .send (by simp [drawnBy])) (.cons (.move (.handle rfl)
            (by simp [drawnBy])) (.single (.move (.process rfl) (by simp [drawnBy])))))))))
  exact ⟨_, hrun, by decide⟩

end Removed

end EssApp.Sync
