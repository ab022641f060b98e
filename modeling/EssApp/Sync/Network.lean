import EssApp.Lib.Places
import EssApp.Sync.App
import Mathlib.Logic.Function.Basic

/-!
# Any number of apps and units, with messages in flight

`Net` has one unit and connections that hold, `Relay` any number of units and syncs
that happen at once. Here are any number of both, any number of connections between
any two of them, each with a queue in either direction, and connections that break and
lose what is in the queues. The units tick, transmit, hear from the broker, and fail:
of a unit that comes back only the file is left.

Whatever happens to an event happens to copies of it: in an app's list, in a unit's
file, in a message on its way, in the snapshot of a publish. `copies_step` says where
the copies of the next state can come from, and every invariant of the copies is an
application of it.
-/

namespace EssApp.Sync

open Readme

/-- Apps `ι`, units `κ`, and what is under way between two of them on the connections `γ`. -/
structure Network (ι κ γ : Type) where
  apps : ι → App
  units : κ → Server
  /-- Requests on their way, oldest first. -/
  requests : ι × κ × γ → List Database
  /-- Replies on their way, oldest first. -/
  replies : ι × κ × γ → List Database

namespace Network

inductive Event (ι κ γ : Type) where
  /-- The user of app `i` reports an event. -/
  | create (i : ι) (latlng : LatLng) (type : String) (id : EventId) (timestamp : JsonNumber)
  /-- The user of app `i` removes the event `ident`. -/
  | delete (i : ι) (ident : EventId)
  /-- The update interval of app `i` fires, while it is connected to unit `k` by `c`. -/
  | send (i : ι) (k : κ) (c : γ)
  /-- Unit `k` handles the oldest request of app `i`. -/
  | handle (i : ι) (k : κ) (c : γ)
  /-- App `i` processes the oldest reply of unit `k`. -/
  | process (i : ι) (k : κ) (c : γ)
  /-- The connection breaks. -/
  | drop (i : ι) (k : κ) (c : γ)
  /-- A step of unit `k` on its own. -/
  | unit (k : κ) (e : Readme.Event)
  /-- Unit `k` fails and is started again. -/
  | reboot (k : κ)

variable {ι κ γ : Type}

/-- Apps and units that have not met yet. -/
def opened (apps : ι → App) (dbs : κ → Database) : Network ι κ γ where
  apps := apps
  units k := boot (dbs k)
  requests _ := []
  replies _ := []

section

variable [DecidableEq ι] [DecidableEq κ] [DecidableEq γ]

inductive Step (w : Network ι κ γ) : Event ι κ γ → Network ι κ γ → Prop where
  | create {i : ι} {latlng : LatLng} {type : String} {id : EventId} {timestamp : JsonNumber} :
      Step w (.create i latlng type id timestamp)
        { w with
          apps := Function.update w.apps i
            ((w.apps i).onClick (newEvent latlng type id timestamp)) }
  | delete {i : ι} {ident : EventId} :
      Step w (.delete i ident)
        { w with apps := Function.update w.apps i ((w.apps i).deleteEvent ident) }
  | send {i : ι} {k : κ} {c : γ} :
      Step w (.send i k c)
        { w with
          requests := Function.update w.requests (i, k, c)
            (w.requests (i, k, c) ++ [(w.apps i).database]) }
  | handle {i : ι} {k : κ} {c : γ} {request : Database} {rest : List Database} :
      w.requests (i, k, c) = request :: rest →
      Step w (.handle i k c)
        { w with
          units := Function.update w.units k (onClientMessage (w.units k) request).2
          requests := Function.update w.requests (i, k, c) rest
          replies := Function.update w.replies (i, k, c)
            (w.replies (i, k, c) ++ [(onClientMessage (w.units k) request).1]) }
  | process {i : ι} {k : κ} {c : γ} {reply : Database} {rest : List Database} :
      w.replies (i, k, c) = reply :: rest →
      Step w (.process i k c)
        { w with
          apps := Function.update w.apps i ((w.apps i).onmessage reply)
          replies := Function.update w.replies (i, k, c) rest }
  | drop {i : ι} {k : κ} {c : γ} :
      Step w (.drop i k c)
        { w with
          requests := Function.update w.requests (i, k, c) []
          replies := Function.update w.replies (i, k, c) [] }
  | unit {k : κ} {e : Readme.Event} {s : Server} : Readme.Step (w.units k) e s →
      Step w (.unit k e) { w with units := Function.update w.units k s }
  | reboot {k : κ} :
      Step w (.reboot k)
        { w with units := Function.update w.units k (boot (w.units k).database) }

end

/-! ## Copies -/

/-- Every copy of an event outside the snapshots has the property. -/
structure Copies (P : Marker → Prop) (w : Network ι κ γ) : Prop where
  apps : ∀ i, ∀ m ∈ (w.apps i).marker_list, P m
  units : ∀ k, ∀ m ∈ (w.units k).database.markers, P m
  requests : ∀ c, ∀ r ∈ w.requests c, ∀ m ∈ r.markers, P m
  replies : ∀ c, ∀ r ∈ w.replies c, ∀ m ∈ r.markers, P m

/-- Every copy in a snapshot, beside the publish it belongs to. -/
def Snapshots (P : κ → Publish → Marker → Prop) (w : Network ι κ γ) : Prop :=
  ∀ k, ∀ p ∈ (w.units k).publishes, ∀ m ∈ p.local_db.markers, P k p m

/-- The marker a callback is about to write. -/
def Written (w : Network ι κ γ) (e : Event ι κ γ) (m : Marker) : Prop :=
  ∃ k i d p, e = .unit k (.published i d) ∧ (w.units k).publishes[i]? = some p
    ∧ p.delivery = none ∧ m ∈ (setReported p.local_db p.k).markers

theorem Copies.imp {P Q : Marker → Prop} {w : Network ι κ γ} (h : Copies P w)
    (hPQ : ∀ m, P m → Q m) : Copies Q w where
  apps i m hm := hPQ m (h.apps i m hm)
  units k m hm := hPQ m (h.units k m hm)
  requests c r hr m hm := hPQ m (h.requests c r hr m hm)
  replies c r hr m hm := hPQ m (h.replies c r hr m hm)

theorem copies_merge {P Q : Marker → Prop} {l r : Database} (hl : ∀ m ∈ l.markers, P m)
    (hr : ∀ m ∈ r.markers, P m) (hkept : ∀ m, P m → Q m) (hval : ∀ m, P m → Q m.validate) :
    ∀ m ∈ (mergeDatabases l r).markers, Q m := by
  intro m hm
  rcases mem_merge hm with hm | ⟨x, hx, _, rfl⟩
  · exact hkept m (hl m hm)
  · exact hval x (hr x hx)

/-- The copies in a unit's file: those it had, what it hears, and what a callback writes. -/
theorem copies_unit {Q : Marker → Prop} {s t : Server} {f : Readme.Event} (hs : Readme.Step s f t)
    (hkept : ∀ m ∈ s.database.markers, Q m) (hmessage : ∀ m ∈ payload f, Q m.validate)
    (hwritten : ∀ i d p, f = .published i d → s.publishes[i]? = some p → p.delivery = none →
      ∀ m ∈ (setReported p.local_db p.k).markers, Q m) :
    ∀ m ∈ t.database.markers, Q m := by
  -- a message from outside has copies of its own
  have houtside : ∀ db : Database, payload f = db.markers →
      ∀ m ∈ (mergeDatabases s.database db).markers, Q m := by
    intro db hdb m hm
    rcases mem_merge hm with hm | ⟨x, hx, _, rfl⟩
    · exact hkept m hm
    · exact hmessage x (hdb ▸ hx)
  cases step_effect hs with
  | connect => exact hkept
  | @client db => exact houtside db rfl
  | @mqtt db => exact houtside db rfl
  | quiet => exact hkept
  | started _ _ => exact hkept
  | @published i d p hp hd => exact hwritten i d p rfl hp hd

/-- One changed value of a function. -/
theorem forall_update {α β : Type} [DecidableEq α] {P : β → Prop} {f : α → β} {a : α} {b : β}
    (hf : ∀ x, P (f x)) (hb : P b) : ∀ x, P (Function.update f a b x) :=
  (Function.forall_update_iff f fun _ y => P y).mpr ⟨hb, fun x _ => hf x⟩

/-- What is left in a queue was there before. -/
theorem forall_rest {α β : Type} [DecidableEq α] {P : β → Prop} {f : α → List β} {a : α} {b : β}
    {rest : List β} (hf : ∀ c, ∀ r ∈ f c, P r) (ha : f a = b :: rest) :
    ∀ c, ∀ r ∈ Function.update f a rest c, P r := by
  refine forall_update (P := fun q => ∀ r ∈ q, P r) hf ?_
  intro r hr
  exact hf a r (ha ▸ List.mem_cons_of_mem _ hr)

/-- One more message in a queue. -/
theorem forall_enqueue {α β : Type} [DecidableEq α] {P : β → Prop} {f : α → List β} {a : α} {b : β}
    (hf : ∀ c, ∀ r ∈ f c, P r) (hb : P b) :
    ∀ c, ∀ r ∈ Function.update f a (f a ++ [b]) c, P r :=
  forall_update (P := fun q => ∀ r ∈ q, P r) hf (Places.forall_mem_concat (hf a) hb)

section

variable [DecidableEq ι] [DecidableEq κ] [DecidableEq γ]

/--
**Where copies come from**: a copy of the next state is one of this state, perhaps
validated, or a new event, or what a unit heard from outside, validated, or what a
callback writes.
-/
theorem copies_step {P Q : Marker → Prop} {w w' : Network ι κ γ} {e : Event ι κ γ} (h : Copies P w)
    (hs : Step w e w') (hkept : ∀ m, P m → Q m) (hval : ∀ m, P m → Q m.validate)
    (hnew : ∀ i latlng type id timestamp, e = .create i latlng type id timestamp →
      Q (newEvent latlng type id timestamp))
    (hmessage : ∀ k f, e = .unit k f → ∀ m ∈ payload f, Q m.validate)
    (hwritten : ∀ m, Written w e m → Q m) : Copies Q w' := by
  have hall := h.imp hkept
  cases hs with
  | @create i latlng type id timestamp =>
      refine ⟨?_, hall.units, hall.requests, hall.replies⟩
      refine forall_update (P := fun a : App => ∀ m ∈ a.marker_list, Q m) hall.apps ?_
      exact Places.forall_mem_concat (hall.apps i) (hnew i latlng type id timestamp rfl)
  | @delete i ident =>
      refine ⟨?_, hall.units, hall.requests, hall.replies⟩
      refine forall_update (P := fun a : App => ∀ m ∈ a.marker_list, Q m) hall.apps ?_
      exact fun m hm => hall.apps i m (mem_of_deleteEvent hm)
  | @send i k c =>
      exact ⟨hall.apps, hall.units, forall_enqueue hall.requests (hall.apps i), hall.replies⟩
  | @handle i k c request rest hreq =>
      have hrequest : ∀ m ∈ request.markers, P m :=
        h.requests (i, k, c) request (hreq ▸ List.mem_cons_self)
      have hmerge := copies_merge (h.units k) hrequest hkept hval
      refine ⟨hall.apps, ?_, forall_rest hall.requests hreq,
        forall_enqueue hall.replies hmerge⟩
      exact forall_update (P := fun s : Server => ∀ m ∈ s.database.markers, Q m) hall.units hmerge
  | @process i k c reply rest hrep =>
      refine ⟨?_, hall.units, hall.requests, forall_rest hall.replies hrep⟩
      refine forall_update (P := fun a : App => ∀ m ∈ a.marker_list, Q m) hall.apps ?_
      exact hall.replies (i, k, c) reply (hrep ▸ List.mem_cons_self)
  | @drop i k c =>
      refine ⟨hall.apps, hall.units, ?_, ?_⟩
      · exact forall_update (P := fun q : List Database => ∀ r ∈ q, ∀ m ∈ r.markers, Q m)
          hall.requests (by simp)
      · exact forall_update (P := fun q : List Database => ∀ r ∈ q, ∀ m ∈ r.markers, Q m)
          hall.replies (by simp)
  | @unit k f s hstep =>
      refine ⟨hall.apps, ?_, hall.requests, hall.replies⟩
      refine forall_update (P := fun s : Server => ∀ m ∈ s.database.markers, Q m) hall.units ?_
      exact copies_unit hstep (hall.units k) (hmessage k f rfl)
        fun i d p hf hp hd m hm => hwritten m ⟨k, i, d, p, hf ▸ rfl, hp, hd, hm⟩
  | @reboot k =>
      refine ⟨hall.apps, ?_, hall.requests, hall.replies⟩
      exact forall_update (P := fun s : Server => ∀ m ∈ s.database.markers, Q m) hall.units
        (hall.units k)

/--
**Where snapshots come from**: they are those of this state, or that of a tick. The
property may look at the publish but for its delivery.
-/
theorem snapshots_step {P Q : κ → Publish → Marker → Prop} {w w' : Network ι κ γ} {e : Event ι κ γ}
    (h : Snapshots P w) (hs : Step w e w') (hkept : ∀ k p m, P k p m → Q k p m)
    (hdone : ∀ k p d m, Q k p m → Q k { p with delivery := some d } m)
    (htick : ∀ k n, firstUnreported (w.units k).database.markers = some n →
      ∀ m ∈ (setReported (w.units k).database n).markers,
        Q k { local_db := setReported (w.units k).database n, k := n } m) : Snapshots Q w' := by
  have hall : Snapshots Q w := fun k p hp m hm => hkept k p m (h k p hp m hm)
  -- one unit has new publishes, the others have theirs
  have hupdate : ∀ {k : κ} {s : Server} {w' : Network ι κ γ},
      w'.units = Function.update w.units k s →
      (∀ p ∈ s.publishes, ∀ m ∈ p.local_db.markers, Q k p m) → Snapshots Q w' := by
    intro k s w' hunits hs j
    rw [hunits]
    by_cases hj : j = k
    · subst hj
      rw [Function.update_self]
      exact hs
    · rw [Function.update_of_ne hj]
      exact hall j
  cases hs with
  | create => exact hall
  | delete => exact hall
  | send => exact hall
  | process _ => exact hall
  | drop => exact hall
  | @handle i k c request rest hreq => exact hupdate rfl (hall k)
  | @reboot k => exact hupdate rfl (fun p hp => absurd hp List.not_mem_nil)
  | @unit k f s hstep =>
      refine hupdate rfl ?_
      cases step_effect hstep with
      | connect => exact hall k
      | client => exact hall k
      | mqtt => exact hall k
      | quiet => exact hall k
      | started _ hk => exact Places.forall_mem_concat (hall k) (htick k _ hk)
      | @published i d p hp hd =>
          intro q hq
          rcases List.mem_or_eq_of_mem_set hq with hq | rfl
          · exact hall k q hq
          · exact fun m hm => hdone k p d m (hall k p (List.mem_of_getElem? hp) m hm)

end

end Network

end EssApp.Sync
