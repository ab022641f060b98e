import EssApp.Sync.App
import Mathlib.Logic.Function.Basic

/-!
# Apps and unit converge and then stay put

A unit and its apps, meeting in whole syncs one after the other; `log` remembers
every request and reply that crossed a connection. Once every app has synced, every
id anyone has ever sent is in the database (`Known`), and merging what is known
changes nothing, not even an order. So a second sync only copies the database out,
and repeating an old message later has no effect at all.
-/

namespace EssApp.Sync

open Readme

/-- Apps `ι`, their unit, and everything that crossed a connection so far. -/
structure Session (ι : Type) where
  apps : ι → App
  unit : Server
  log : List Database

namespace Session

variable {ι : Type}

/-- The session before the first sync. -/
def opened (apps : ι → App) (db : Database) : Session ι where
  apps := apps
  unit := boot db
  log := []

section

variable [DecidableEq ι]

/-- A request on the connection of app `i` is handled, and the app takes the reply. -/
def deliver (s : Session ι) (i : ι) (request : Database) : Session ι where
  apps := Function.update s.apps i ((s.apps i).onmessage (onClientMessage s.unit request).1)
  unit := (onClientMessage s.unit request).2
  log := s.log ++ [request, (onClientMessage s.unit request).1]

/-- One whole sync of app `i`. -/
def sync (s : Session ι) (i : ι) : Session ι := s.deliver i (s.apps i).database

/-- The syncs of a schedule, one after the other. -/
def syncAll (s : Session ι) (schedule : List ι) : Session ι := schedule.foldl sync s

inductive Event (ι : Type) where
  | sync (i : ι)
  /-- An earlier request or reply comes again on the connection of app `i`. -/
  | client (i : ι) (message : Database)
  /-- An earlier request or reply comes from the broker. -/
  | mqtt (message : Database)

/-- What may still happen: more syncs, and repetitions of what was sent before. -/
inductive Step (s : Session ι) : Event ι → Session ι → Prop where
  | sync {i : ι} : Step s (.sync i) (s.sync i)
  | client {i : ι} {message : Database} : message ∈ s.log →
      Step s (.client i message) (s.deliver i message)
  | mqtt {message : Database} : message ∈ s.log →
      Step s (.mqtt message)
        { s with unit := onMqttMessage s.unit message, log := s.log ++ [message] }

theorem apps_deliver_self (s : Session ι) (i : ι) (request : Database) :
    ((s.deliver i request).apps i).marker_list
      = (mergeDatabases s.unit.database request).markers := by
  show (Function.update s.apps i _ i).marker_list = _
  rw [Function.update_self]
  rfl

theorem apps_deliver_ne (s : Session ι) {i j : ι} (h : j ≠ i) (request : Database) :
    (s.deliver i request).apps j = s.apps j := Function.update_of_ne h _ _

end

/-! ## Everything becomes known -/

/-- The database has every id that was sent, and every id of the apps in `P`. -/
structure Known (s : Session ι) (P : ι → Prop) : Prop where
  distinct : (ids s.unit.database.markers).Nodup
  log : ∀ m ∈ s.log, ids m.markers ⊆ ids s.unit.database.markers
  apps : ∀ i, P i → ids (s.apps i).marker_list ⊆ ids s.unit.database.markers

theorem known_opened (apps : ι → App) {db : Database} (hn : (ids db.markers).Nodup) :
    Known (opened apps db) fun _ => False :=
  ⟨hn, fun m hm => absurd hm (by simp [opened]), fun _ h => h.elim⟩

section

variable [DecidableEq ι]

/-- A sync makes the app's ids known and forgets none. -/
theorem known_sync {s : Session ι} {P : ι → Prop} (h : Known s P) (i : ι) :
    Known (s.sync i) fun j => P j ∨ j = i := by
  have hgrow : ids s.unit.database.markers ⊆ ids (s.sync i).unit.database.markers :=
    fun id hid => mem_ids_merge.mpr (Or.inl hid)
  refine ⟨nodup_merge _ _, ?_, ?_⟩
  · intro m hm
    rcases List.mem_append.mp hm with hm | hm
    · exact List.Subset.trans (h.log m hm) hgrow
    · rcases List.mem_cons.mp hm with rfl | hm
      · exact fun id hid => mem_ids_merge.mpr (Or.inr hid)
      · rw [List.mem_singleton.mp hm]
        exact List.Subset.refl _
  · intro j hj
    by_cases hji : j = i
    · -- the app that synced holds the database's list
      subst hji
      rw [sync, apps_deliver_self]
      exact List.Subset.refl _
    · rw [sync, apps_deliver_ne s hji]
      exact List.Subset.trans (h.apps j (hj.resolve_right hji)) hgrow

/-- After a schedule, the ids of every app in it are known. -/
theorem known_syncAll {s : Session ι} {P : ι → Prop} (h : Known s P) (schedule : List ι) :
    Known (s.syncAll schedule) fun j => P j ∨ j ∈ schedule := by
  induction schedule generalizing s P with
  | nil => exact ⟨h.distinct, h.log, fun j hj => h.apps j (hj.resolve_right (by simp))⟩
  | cons i schedule ih =>
      have := ih (known_sync h i)
      refine ⟨this.distinct, this.log, fun j hj => this.apps j ?_⟩
      rcases hj with hj | hj
      · exact Or.inl (Or.inl hj)
      · exact (List.mem_cons.mp hj).imp_left Or.inr

end

/-! ## Then nothing changes any more -/

/-- The database is `db`, all that was sent is known to it, and the apps in `P` hold its list. -/
structure Converged (db : Database) (s : Session ι) (P : ι → Prop) : Prop where
  database : s.unit.database = db
  known : Known s fun _ => True
  apps : ∀ i, P i → (s.apps i).marker_list = db.markers

theorem Converged.mono {db : Database} {s : Session ι} {P Q : ι → Prop} (h : Converged db s P)
    (hPQ : ∀ i, Q i → P i) : Converged db s Q :=
  ⟨h.database, h.known, fun i hi => h.apps i (hPQ i hi)⟩

/-- Merging a known message leaves the database as it is. -/
theorem Converged.merge {db : Database} {s : Session ι} {P : ι → Prop} (h : Converged db s P)
    {m : Database} (hm : ids m.markers ⊆ ids db.markers) :
    mergeDatabases s.unit.database m = db := by
  have hdistinct := h.known.distinct
  rw [h.database] at hdistinct ⊢
  exact merge_of_known hdistinct (fun _ hx => hm (mem_ids_of_mem hx))

/-- A state with the same database, in which only known messages were added to the log. -/
theorem known_of_database {db : Database} {s t : Session ι} {P : ι → Prop} (h : Converged db s P)
    (ht : t.unit.database = db) (hlog : ∀ m ∈ t.log, m ∈ s.log ∨ ids m.markers ⊆ ids db.markers)
    (happs : ∀ i, ids (t.apps i).marker_list ⊆ ids db.markers) : Known t fun _ => True := by
  have hknown := h.known
  refine ⟨?_, fun m hm => ?_, fun i _ => ?_⟩
  · rw [ht, ← h.database]; exact hknown.distinct
  · rw [ht]
    rcases hlog m hm with hm | hm
    · rw [← h.database]; exact hknown.log m hm
    · exact hm
  · rw [ht]; exact happs i

section

variable [DecidableEq ι]

/-- **A known request only copies the database out** to the app that gets the reply. -/
theorem converged_deliver {db : Database} {s : Session ι} {P : ι → Prop} (h : Converged db s P)
    (i : ι) {m : Database} (hm : ids m.markers ⊆ ids db.markers) :
    Converged db (s.deliver i m) fun j => P j ∨ j = i := by
  have hmerge := h.merge hm
  have hself : ((s.deliver i m).apps i).marker_list = db.markers := by
    rw [apps_deliver_self, hmerge]
  refine ⟨hmerge, known_of_database h hmerge ?_ ?_, ?_⟩
  · intro x hx
    rcases List.mem_append.mp hx with hx | hx
    · exact Or.inl hx
    · rcases List.mem_cons.mp hx with rfl | hx
      · exact Or.inr hm
      · have hreply : x = db := (List.mem_singleton.mp hx).trans hmerge
        rw [hreply]
        exact Or.inr (List.Subset.refl _)
  · intro j
    by_cases hji : j = i
    · subst hji
      rw [hself]
      exact List.Subset.refl _
    · rw [apps_deliver_ne s hji, ← h.database]
      exact h.known.apps j trivial
  · intro j hj
    by_cases hji : j = i
    · subst hji
      exact hself
    · rw [apps_deliver_ne s hji]
      exact h.apps j (hj.resolve_right hji)

theorem converged_sync {db : Database} {s : Session ι} {P : ι → Prop} (h : Converged db s P)
    (i : ι) : Converged db (s.sync i) fun j => P j ∨ j = i :=
  converged_deliver h i (h.database ▸ h.known.apps i trivial)

/-- After a second schedule every app in it holds the database's list. -/
theorem converged_syncAll {db : Database} {s : Session ι} {P : ι → Prop} (h : Converged db s P)
    (schedule : List ι) : Converged db (s.syncAll schedule) fun j => P j ∨ j ∈ schedule := by
  induction schedule generalizing s P with
  | nil => exact h.mono (fun j hj => hj.resolve_right (by simp))
  | cons i schedule ih =>
      refine (ih (converged_sync h i)).mono (fun j hj => ?_)
      rcases hj with hj | hj
      · exact Or.inl (Or.inl hj)
      · exact (List.mem_cons.mp hj).imp_left Or.inr

/-- **A converged session stays as it is**, whatever is synced or repeated. -/
theorem converged_step {db : Database} {s t : Session ι} {e : Event ι}
    (h : Converged db s fun _ => True) (hs : Step s e t) : Converged db t fun _ => True := by
  have hlog : ∀ m ∈ s.log, ids m.markers ⊆ ids db.markers := h.database ▸ h.known.log
  cases hs with
  | @sync i => exact (converged_sync h i).mono (fun j _ => Or.inl trivial)
  | @client i message hm =>
      exact (converged_deliver h i (hlog message hm)).mono (fun j _ => Or.inl trivial)
  | @mqtt message hm =>
      have hmerge := h.merge (hlog message hm)
      refine ⟨hmerge, known_of_database h hmerge ?_ ?_, h.apps⟩
      · intro x hx
        rcases List.mem_append.mp hx with hx | hx
        · exact Or.inl hx
        · rw [List.mem_singleton.mp hx]
          exact Or.inl hm
      · intro j
        rw [← h.database]
        exact h.known.apps j trivial

/--
**Apps and unit converge and then stay put.** After two schedules with every app in
each, all apps hold the markers of the database, in its order; and no later sync,
and no later message that repeats an earlier request or reply, changes the database
or an app's list.
-/
theorem converges {db : Database} (hn : (ids db.markers).Nodup) (apps : ι → App)
    {first second : List ι} (h₁ : ∀ i, i ∈ first) (h₂ : ∀ i, i ∈ second) :
    (∀ i, (((opened apps db).syncAll (first ++ second)).apps i).marker_list
        = ((opened apps db).syncAll (first ++ second)).unit.database.markers)
      ∧ ∀ es t, Lts.Run Step ((opened apps db).syncAll (first ++ second)) es t →
        t.unit.database = ((opened apps db).syncAll (first ++ second)).unit.database
          ∧ ∀ i, (t.apps i).marker_list
              = ((opened apps db).syncAll (first ++ second)).unit.database.markers := by
  have hsplit : (opened apps db).syncAll (first ++ second)
      = ((opened apps db).syncAll first).syncAll second := List.foldl_append
  -- after the first schedule everything is known, so the database will not change any more
  have hknown := known_syncAll (known_opened apps hn) first
  have hconv : Converged ((opened apps db).syncAll first).unit.database
      ((opened apps db).syncAll first) fun _ => False :=
    ⟨rfl, ⟨hknown.distinct, hknown.log, fun i _ => hknown.apps i (Or.inr (h₁ i))⟩,
      fun _ h => h.elim⟩
  -- after the second every app has its list
  have hfinal := (converged_syncAll hconv second).mono (Q := fun _ => True)
    (fun i _ => Or.inr (h₂ i))
  rw [← hsplit] at hfinal
  rw [hfinal.database]
  refine ⟨fun i => hfinal.apps i trivial, fun es t hrun => ?_⟩
  have ht := hrun.invariant (I := fun s => Converged _ s fun _ => True) converged_step hfinal
  exact ⟨ht.database, fun i => ht.apps i trivial⟩

end

/-- Two apps that hold different copies of one event, and one an event of its own. -/
def divergent : Bool → App
  | true => { marker_list := [readmeEvent idA, readmeEvent idB] }
  | false => { marker_list := [{ readmeEvent idA with type := "gas" }] }

/-- They agree after two rounds, and repeating their first request changes nothing. -/
theorem converges_divergent :
    let s := (opened divergent (readmeDatabase [])).syncAll ([true, false] ++ [false, true])
    (∀ i, (s.apps i).marker_list = s.unit.database.markers)
      ∧ (onMqttMessage s.unit (divergent false).database).database = s.unit.database := by
  intro s
  have hn : (ids (readmeDatabase []).markers).Nodup := List.nodup_nil
  obtain ⟨hsame, hlater⟩ := converges hn divergent
    (show ∀ i, i ∈ [true, false] by decide) (show ∀ i, i ∈ [false, true] by decide)
  refine ⟨hsame, (hlater [.mqtt (divergent false).database] _ (.single (.mqtt ?_))).1⟩
  exact List.mem_of_getElem? (i := 2) rfl

end Session

end EssApp.Sync
