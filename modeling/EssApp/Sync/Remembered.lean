import EssApp.Readme.Growth
import EssApp.Sync.Provenance

/-!
# What a phone does not forget

An app takes every reply for the whole truth, so what it holds can go backwards: a reply
of another unit, or one on an older socket, may lack events and marks that were there
before (`mark_taken_back`). From one unit over one connection it does not. The file of
the unit only grows, as long as no callback writes an old snapshot over it (`Fresh`);
each reply is the file of its moment; and the queue keeps them in order. So what an app
has seen in a reply is in all the replies behind it and in the file (`Remembered`), and
stays in the list until its user deletes it.
-/

namespace EssApp.Sync.Network

open Readme

variable {ι κ γ : Type}

/-- No callback of unit `k` writes a snapshot that is behind the file. -/
def FreshAt (k : κ) (w : Network ι κ γ) (e : Event ι κ γ) : Prop :=
  ∀ f, e = .unit k f → Fresh (w.units k) f

/-- App `i` hears of unit `k` over `c` alone, and its user deletes only what is in the list. -/
structure Careful (i : ι) (k : κ) (c : γ) (w : Network ι κ γ) (e : Event ι κ γ) : Prop where
  fresh : FreshAt k w e
  listed : ∀ ident, e = .delete i ident → ident ∈ ids (w.apps i).marker_list
  alone : ∀ k' c', e = .process i k' c' → k' = k ∧ c' = c

/-- **What a step does to the replies on a connection** of a unit whose file is then `db`. -/
inductive Flow (q : List Database) (db : Database) : List Database → Prop where
  | same : Flow q db q
  | taken {r : Database} {rest : List Database} : q = r :: rest → Flow q db rest
  | dropped : Flow q db []
  | answered : Flow q db (q ++ [db])

theorem Flow.forall_mem {q q' : List Database} {db : Database} {P : Database → Prop}
    (h : Flow q db q') (hq : ∀ r ∈ q, P r) (hdb : P db) : ∀ r ∈ q', P r := by
  cases h with
  | same => exact hq
  | taken he => exact fun r hr => hq r (he ▸ List.mem_cons_of_mem _ hr)
  | dropped => exact fun r hr => absurd hr List.not_mem_nil
  | answered => exact Places.forall_mem_concat hq hdb

section

variable [DecidableEq ι] [DecidableEq κ] [DecidableEq γ]

theorem flow_step {w w' : Network ι κ γ} {e : Event ι κ γ} (hs : Step w e w') (i : ι) (k : κ)
    (c : γ) : Flow (w.replies (i, k, c)) (w'.units k).database (w'.replies (i, k, c)) := by
  cases hs with
  | create => exact .same
  | delete => exact .same
  | send => exact .same
  | unit _ => exact .same
  | reboot => exact .same
  | @handle i' k' c' request rest hreq =>
      dsimp only
      by_cases hc : (i, k, c) = (i', k', c')
      · cases hc
        rw [Function.update_self, Function.update_self]
        exact .answered
      · rw [Function.update_of_ne hc]
        exact .same
  | @process i' k' c' reply rest hrep =>
      dsimp only
      by_cases hc : (i, k, c) = (i', k', c')
      · cases hc
        rw [Function.update_self]
        exact .taken hrep
      · rw [Function.update_of_ne hc]
        exact .same
  | @drop i' k' c' =>
      dsimp only
      by_cases hc : (i, k, c) = (i', k', c')
      · cases hc
        rw [Function.update_self]
        exact .dropped
      · rw [Function.update_of_ne hc]
        exact .same

/-- **The file of a unit grows**, unless a callback sets it back. -/
theorem file_step {w w' : Network ι κ γ} {e : Event ι κ γ} {k : κ} (hs : Step w e w')
    (hf : FreshAt k w e) (h : DistinctInv (w.units k)) :
    DistinctInv (w'.units k) ∧ Grows (w.units k) (w'.units k) := by
  have hsame : DistinctInv (w.units k) ∧ Grows (w.units k) (w.units k) := ⟨h, covers_refl _⟩
  have hstep : ∀ {f : Readme.Event} {s : Server}, Readme.Step (w.units k) f s →
      Fresh (w.units k) f → DistinctInv s ∧ Grows (w.units k) s :=
    fun hs hf => ⟨distinctInv_step h hs, (grows_step_iff h hs).mpr hf⟩
  cases hs with
  | create => exact hsame
  | delete => exact hsame
  | send => exact hsame
  | process _ => exact hsame
  | drop => exact hsame
  | @handle i k' c request rest _ =>
      dsimp only
      by_cases hk : k = k'
      · subst hk
        rw [Function.update_self]
        have hmessage : Readme.Step (w.units k) (.clientMessage request)
            (onClientMessage (w.units k) request).2 := ⟨trivial, rfl⟩
        exact hstep hmessage trivial
      · rw [Function.update_of_ne hk]
        exact hsame
  | @unit k' f s hunit =>
      dsimp only
      by_cases hk : k = k'
      · subst hk
        rw [Function.update_self]
        exact hstep hunit (hf f rfl)
      · rw [Function.update_of_ne hk]
        exact hsame
  | @reboot k' =>
      dsimp only
      by_cases hk : k = k'
      · subst hk
        rw [Function.update_self]
        exact ⟨distinctInv_init h.file, covers_refl _⟩
      · rw [Function.update_of_ne hk]
        exact hsame

/-! ## The replies are in order -/

/-- What is on its way from unit `k` to app `i` over `c`: nothing in it is taken back. -/
structure Ordered (i : ι) (k : κ) (c : γ) (w : Network ι κ γ) : Prop where
  distinct : DistinctInv (w.units k)
  replies : (w.replies (i, k, c)).Pairwise fun r r' => Covers r'.markers r.markers
  file : ∀ r ∈ w.replies (i, k, c), Covers (w.units k).database.markers r.markers

omit [DecidableEq ι] [DecidableEq κ] [DecidableEq γ] in
theorem ordered_opened {apps : ι → App} {dbs : κ → Database} (i : ι) {k : κ} (c : γ)
    (hn : (ids (dbs k).markers).Nodup) : Ordered i k c (opened apps dbs) where
  distinct := distinctInv_init hn
  replies := .nil
  file _ hr := absurd hr List.not_mem_nil

theorem ordered_step {w w' : Network ι κ γ} {e : Event ι κ γ} {i : ι} {k : κ} {c : γ}
    (h : Ordered i k c w) (hs : Step w e w') (hf : FreshAt k w e) : Ordered i k c w' := by
  obtain ⟨hdistinct, hgrows⟩ := file_step hs hf h.distinct
  have hfile : ∀ r ∈ w.replies (i, k, c), Covers (w'.units k).database.markers r.markers :=
    fun r hr => (h.file r hr).trans hgrows
  have hflow := flow_step hs i k c
  refine ⟨hdistinct, ?_, hflow.forall_mem hfile (covers_refl _)⟩
  generalize w'.replies (i, k, c) = q at hflow
  cases hflow with
  | same => exact h.replies
  | taken he => exact (List.pairwise_cons.mp (he ▸ h.replies)).2
  | dropped => exact .nil
  | answered =>
      -- the new reply is the file, which covers those before it
      refine List.pairwise_append.mpr ⟨h.replies, List.pairwise_singleton _ _, ?_⟩
      intro r hr r' hr'
      rw [List.mem_singleton.mp hr']
      exact hfile r hr

/-! ## What was seen stays -/

/-- Wherever app `i` may hear of it, the event is there, with no mark less. -/
structure Remembered (i : ι) (k : κ) (c : γ) (m : Marker) (w : Network ι κ γ) : Prop where
  distinct : DistinctInv (w.units k)
  app : Covers (w.apps i).marker_list [m]
  replies : ∀ r ∈ w.replies (i, k, c), Covers r.markers [m]
  file : Covers (w.units k).database.markers [m]

/-- **What an app has just processed**, it will hear of again. -/
theorem remembered_process {w w' : Network ι κ γ} {i : ι} {k : κ} {c : γ} {m : Marker}
    (h : Ordered i k c w) (hs : Step w (.process i k c) w') (hm : m ∈ (w'.apps i).marker_list) :
    Remembered i k c m w' := by
  cases hs with
  | @process _ _ _ reply rest hrep =>
      dsimp only at hm
      rw [Function.update_self] at hm
      have hone : Covers reply.markers [m] :=
        covers_of_subset (List.cons_subset.mpr ⟨hm, List.nil_subset _⟩)
      have hordered := h.replies
      have hfile := h.file
      rw [hrep] at hordered hfile
      refine ⟨h.distinct, ?_, ?_, hone.trans (hfile reply List.mem_cons_self)⟩
      · dsimp only
        rw [Function.update_self]
        exact hone
      · intro r hr
        dsimp only at hr
        rw [Function.update_self] at hr
        exact hone.trans ((List.pairwise_cons.mp hordered).1 r hr)

/-- Deleting another event that is in the list. -/
theorem covers_deleteEvent {a : App} {ident : EventId} {m : Marker}
    (h : Covers a.marker_list [m]) (hident : ident ∈ ids a.marker_list) (hne : m.id ≠ ident) :
    Covers (a.deleteEvent ident).marker_list [m] := by
  intro x hx
  obtain rfl := List.mem_singleton.mp hx
  obtain ⟨m', hm', hid, hmarks⟩ := h x hx
  refine ⟨m', ?_, hid, hmarks⟩
  rw [deleteEvent_of_mem hident]
  refine (List.mem_eraseP_of_neg ?_).mpr hm'
  rw [hid]
  exact fun hc => hne (of_decide_eq_true hc)

/-- **The step lemma.** -/
theorem remembered_step {w w' : Network ι κ γ} {e : Event ι κ γ} {i : ι} {k : κ} {c : γ}
    {m : Marker} (h : Remembered i k c m w) (hs : Step w e w') (hc : Careful i k c w e)
    (hdel : e ≠ .delete i m.id) : Remembered i k c m w' := by
  obtain ⟨hdistinct, hgrows⟩ := file_step hs hc.fresh h.distinct
  have hfile := h.file.trans hgrows
  refine ⟨hdistinct, ?_, (flow_step hs i k c).forall_mem h.replies hfile, hfile⟩
  -- only the app itself is left
  have hupdate : ∀ (i' : ι) (a : App), (i = i' → Covers a.marker_list [m]) →
      Covers (Function.update w.apps i' a i).marker_list [m] := by
    intro i' a ha
    by_cases hi : i = i'
    · subst hi
      rw [Function.update_self]
      exact ha rfl
    · rw [Function.update_of_ne hi]
      exact h.app
  cases hs with
  | send => exact h.app
  | handle _ => exact h.app
  | drop => exact h.app
  | unit _ => exact h.app
  | reboot => exact h.app
  | @create i' latlng type id timestamp =>
      refine hupdate i' _ ?_
      intro heq
      subst heq
      exact h.app.trans (covers_of_subset (List.subset_append_left _ _))
  | @delete i' ident =>
      refine hupdate i' _ ?_
      intro heq
      subst heq
      exact covers_deleteEvent h.app (hc.listed ident rfl) fun hid => hdel (hid ▸ rfl)
  | @process i' k' c' reply rest hrep =>
      refine hupdate i' _ ?_
      intro heq
      subst heq
      obtain ⟨rfl, rfl⟩ := hc.alone k' c' rfl
      exact h.replies reply (hrep ▸ List.mem_cons_self)

/--
**What an app has seen, it keeps.** Once app `i` has processed a reply of unit `k`, each
event in its list stays there with the marks it has, until the user deletes it, as long
as the app hears of this unit over this connection alone and no callback of the unit is
stale. The other apps and units may do what they like.
-/
theorem keeps_what_it_saw {apps : ι → App} {dbs : κ → Database} {i : ι} {k : κ} {c : γ}
    (hn : (ids (dbs k).markers).Nodup) {pre es : List (Event ι κ γ)} {u v : Network ι κ γ}
    (hpre : Lts.Run (Lts.Guarded Step (FreshAt k)) (opened apps dbs) (pre ++ [.process i k c]) u)
    (hrun : Lts.Run (Lts.Guarded Step (Careful i k c)) u es v) {m : Marker}
    (hm : m ∈ (u.apps i).marker_list) (hdel : .delete i m.id ∉ es) :
    ∃ m' ∈ (v.apps i).marker_list, m'.id = m.id
      ∧ (m.validated = true → m'.validated = true) ∧ (m.reported = true → m'.reported = true) := by
  obtain ⟨u', hpre', hlast⟩ := hpre.split
  have hordered : Ordered i k c u' := hpre'.invariant (I := Ordered i k c)
    (fun h hs => ordered_step h hs.1 hs.2) (ordered_opened i c hn)
  have hstart : Remembered i k c m u := by
    cases hlast with
    | cons hs hnil =>
        cases hnil
        exact remembered_process hordered hs.1 hm
  have hguard := hrun.guard (C := fun _ e => e ≠ .delete i m.id)
    (fun pre e post _ _ he _ _ hd => hdel (by rw [he, hd]; simp))
  have hend := hguard.invariant (I := Remembered i k c m)
    (fun h hs => remembered_step h hs.1.1 hs.1.2 hs.2) hstart
  exact hend.app m (List.mem_singleton_self m)

end

/-- The user reports an event, and the phone syncs. -/
def reportSync : List (Event Unit Unit Unit) :=
  [.create () (readmeEvent idA).latlng "fire" idA (readmeEvent idA).timestamp,
    .send () () (), .handle () () ()] ++ [.process () () ()]

/-- After the next sync the event is still validated. -/
theorem keeps_what_it_saw_reportSync : ∃ u v,
    Lts.Run (Lts.Guarded Step (FreshAt ())) met reportSync u
      ∧ Lts.Run (Lts.Guarded Step (Careful () () ())) u
        [.send () () (), .handle () () (), .process () () ()] v
      ∧ ∃ m ∈ (v.apps ()).marker_list, m.id = idA ∧ m.validated = true := by
  have hn : (ids (readmeDatabase []).markers).Nodup := List.nodup_nil
  have hcareful : ∀ {w : Network Unit Unit Unit} {e : Event Unit Unit Unit},
      (∀ f, e ≠ .unit () f) → (∀ ident, e ≠ .delete () ident) → Careful () () () w e :=
    fun hu hd => ⟨fun f he => absurd he (hu f), fun ident he => absurd he (hd ident),
      fun _ _ _ => ⟨rfl, rfl⟩⟩
  obtain ⟨u, v, hpre, hrun, m, hm, hid, hval⟩ : ∃ u v,
      Lts.Run (Lts.Guarded Step (FreshAt ())) met reportSync u
        ∧ Lts.Run (Lts.Guarded Step (Careful () () ())) u
          [.send () () (), .handle () () (), .process () () ()] v
        ∧ ∃ m ∈ (u.apps ()).marker_list, m.id = idA ∧ m.validated = true := by
    refine ⟨_, _, .cons ⟨.create, nofun⟩ (.cons ⟨.send, nofun⟩
      (.cons ⟨.handle rfl, nofun⟩ (.single ⟨.process rfl, nofun⟩))),
      .cons ⟨.send, hcareful nofun nofun⟩
        (.cons ⟨.handle rfl, hcareful nofun nofun⟩
          (.single ⟨.process rfl, hcareful nofun nofun⟩)), ?_⟩
    decide
  have hdel : .delete () m.id ∉ ([.send () () (), .handle () () (), .process () () ()] :
      List (Event Unit Unit Unit)) := by simp
  have hpre' : Lts.Run (Lts.Guarded Step (FreshAt ()))
      (opened (fun _ => {}) fun _ => readmeDatabase []) (_ ++ [.process () () ()]) u := hpre
  obtain ⟨m', hm', hid', hval', _⟩ :=
    keeps_what_it_saw (i := ()) (k := ()) (c := ()) hn hpre' hrun hm hdel
  exact ⟨u, v, hpre, hrun, m', hm', hid'.trans hid, hval' hval⟩

/-! ## Two units -/

/-- Two units know of an event, one transmits it, and the app hears of that. -/
def oneTransmits : List (Event Unit Bool Unit) :=
  [.create () (readmeEvent idA).latlng "fire" idA (readmeEvent idA).timestamp,
    .send () true (), .handle () true (), .send () false (), .handle () false (),
    .process () true (), .process () false (),
    .unit true .connect, .unit true .tick, .unit true (.published 0 .success),
    .send () true (), .handle () true (), .process () true ()]

/-- **The other unit takes the mark back**: it has a copy of its own, and a merge keeps that. -/
theorem mark_taken_back : ∃ u v : Network Unit Bool Unit,
    Lts.Run Step (opened (fun _ => {}) fun _ => readmeDatabase []) oneTransmits u
      ∧ (∃ m ∈ (u.apps ()).marker_list, m.id = idA ∧ m.reported = true)
      ∧ Lts.Run Step u [.send () false (), .handle () false (), .process () false ()] v
      ∧ ∀ m ∈ (v.apps ()).marker_list, m.reported = false := by
  refine ⟨_, _, .cons .create (.cons .send (.cons (.handle rfl) (.cons .send (.cons (.handle rfl)
    (.cons (.process rfl) (.cons (.process rfl) (.cons (.unit ⟨trivial, rfl⟩)
      (.cons (.unit ⟨trivial, rfl⟩) (.cons (.unit ⟨⟨_, rfl, rfl⟩, rfl⟩) (.cons .send
        (.cons (.handle rfl) (.single (.process rfl))))))))))))), ?_,
    .cons .send (.cons (.handle rfl) (.single (.process rfl))), ?_⟩
  · decide
  · decide

end EssApp.Sync.Network
