import EssApp.Lib.Places
import EssApp.Readme.Server

/-!
# When the database only grows

Merges never lose anything: `prefix_merge` keeps every local marker as it is. The
one write that can lose something is a callback's, since its snapshot is as old as
its tick. So a step grows the database exactly if it does not write a snapshot that is
behind the file (`grows_step_iff`), and a run does exactly if none of its steps does.
When a snapshot falls behind is the subject of `Overtaken`.
-/

namespace EssApp.Readme

/-- Every marker of `ms` is in `ms'` under its id, with no flag taken back. -/
def Covers (ms' ms : List Marker) : Prop :=
  ∀ m ∈ ms, ∃ m' ∈ ms', m'.id = m.id ∧ (m.validated = true → m'.validated = true)
    ∧ (m.reported = true → m'.reported = true)

theorem covers_refl (ms : List Marker) : Covers ms ms := fun m hm => ⟨m, hm, rfl, id, id⟩

theorem covers_of_subset {ms ms' : List Marker} (h : ms ⊆ ms') : Covers ms' ms :=
  fun m hm => ⟨m, h hm, rfl, id, id⟩

theorem Covers.trans {ms₁ ms₂ ms₃ : List Marker} (h : Covers ms₂ ms₁) (h' : Covers ms₃ ms₂) :
    Covers ms₃ ms₁ := by
  intro m hm
  obtain ⟨m', hm', hid, hv, hr⟩ := h m hm
  obtain ⟨m'', hm'', hid', hv', hr'⟩ := h' m' hm'
  exact ⟨m'', hm'', hid'.trans hid, hv' ∘ hv, hr' ∘ hr⟩

/-- Between two moments, no id goes missing and no flag goes back. -/
def Grows (u v : Server) : Prop := Covers v.database.markers u.database.markers

/-- A callback finds its snapshot not behind the file: nothing was added or flagged meanwhile. -/
def Fresh (s : Server) : Event → Prop
  | .published i _ => ∀ p, s.publishes[i]? = some p → Covers p.local_db.markers s.database.markers
  | _ => True

/-- Ids are distinct in the file and in the snapshots, which have their own flag set. -/
structure DistinctInv (s : Server) : Prop where
  file : (ids s.database.markers).Nodup
  snapshots : ∀ p ∈ s.publishes, (ids p.local_db.markers).Nodup
    ∧ setReported p.local_db p.k = p.local_db

theorem distinctInv_init {db : Database} (hn : (ids db.markers).Nodup) : DistinctInv (boot db) :=
  ⟨hn, fun p hp => absurd hp (by simp [boot])⟩

theorem distinctInv_step {s t : Server} {e : Event} (h : DistinctInv s) (hs : Step s e t) :
    DistinctInv t := by
  cases step_effect hs with
  | connect => exact ⟨h.file, h.snapshots⟩
  | client => exact ⟨nodup_merge _ _, h.snapshots⟩
  | mqtt => exact ⟨nodup_merge _ _, h.snapshots⟩
  | quiet => exact h
  | @started k _ _ =>
      have hids : (ids (setReported s.database k).markers).Nodup := by
        rw [ids_setReported]
        exact h.file
      exact ⟨h.file, Places.forall_mem_concat h.snapshots ⟨hids, setReported_setReported _ _⟩⟩
  | @published i d p hget _ =>
      obtain ⟨hn, hk⟩ := h.snapshots p (List.mem_of_getElem? hget)
      refine ⟨?_, Places.forall_mem_set h.snapshots ?_ i⟩
      · rw [ids_setReported]
        exact hn
      · exact ⟨hn, hk⟩

/-- **A step grows the database exactly if it is not the callback of a stale snapshot.** -/
theorem grows_step_iff {s t : Server} {e : Event} (h : DistinctInv s) (hs : Step s e t) :
    Grows s t ↔ Fresh s e := by
  cases step_effect hs with
  | connect => exact ⟨fun _ => trivial, fun _ => covers_refl _⟩
  | client => exact ⟨fun _ => trivial, fun _ => covers_of_subset (prefix_merge h.file _).subset⟩
  | mqtt => exact ⟨fun _ => trivial, fun _ => covers_of_subset (prefix_merge h.file _).subset⟩
  | quiet => exact ⟨fun _ => trivial, fun _ => covers_refl _⟩
  | started _ _ => exact ⟨fun _ => trivial, fun _ => covers_refl _⟩
  | @published i d p hget _ =>
      obtain ⟨_, hk⟩ := h.snapshots p (List.mem_of_getElem? hget)
      -- what the callback writes is the snapshot itself
      show Covers (setReported p.local_db p.k).markers s.database.markers ↔ _
      rw [hk]
      constructor
      · intro hc q hq
        rw [hget] at hq
        exact Option.some.inj hq ▸ hc
      · intro hf
        exact hf p hget

/-- The database grows along any run without stale callbacks. -/
theorem grows_of_fresh {s t : Server} {es : List Event} (h : DistinctInv s)
    (hrun : Lts.Run (Lts.Guarded Step Fresh) s es t) : Grows s t :=
  hrun.preorder (I := DistinctInv) (R := Grows) (fun _ => covers_refl _)
    (fun h1 h2 => Covers.trans h1 h2) (fun hi hs => distinctInv_step hi hs.1)
    (fun hi hs => (grows_step_iff hi hs.1).mpr hs.2) h

/-- **A run grows the database** exactly if no callback of it writes a stale snapshot. -/
theorem throughout_iff_fresh {db : Database} (hn : (ids db.markers).Nodup) {es : List Event}
    {s : Server} (hrun : Lts.Run Step (boot db) es s) :
    Lts.Throughout Step Grows (boot db) es
      ↔ Lts.Run (Lts.Guarded Step Fresh) (boot db) es s := by
  have hinv : ∀ {as : List Event} {u : Server}, Lts.Run Step (boot db) as u → DistinctInv u :=
    fun h => h.invariant (I := DistinctInv) distinctInv_step (distinctInv_init hn)
  constructor
  · intro hgrow
    -- a callback's two ends are two moments of the run
    refine hrun.guard ?_
    intro pre e post u v he hpre hs
    refine (grows_step_iff (hinv hpre) hs).mp (hgrow pre [e] post u v ?_ hpre (.single hs))
    rw [he, List.append_assoc]
    rfl
  · intro hfresh pre mid post u v he hpre hmid
    rw [he, List.append_assoc] at hfresh
    obtain ⟨u', hpre', hrest⟩ := hfresh.split
    obtain ⟨v', hmid', _⟩ := hrest.split
    -- the guarded run passes through the same states
    have hu : u' = u := run_deterministic hpre'.unguard hpre
    subst hu
    have hv : v' = v := run_deterministic hmid'.unguard hmid
    subst hv
    exact grows_of_fresh (hinv hpre) hmid'

end EssApp.Readme
