import EssApp.Lib.Places
import EssApp.Sync.Net

/-!
# What the validated mark means

The help page says that an event is validated once the network knows it. The mark
is set in one place, where the unit files a remote marker, so from a file in which
everything is validated nothing else ever comes from the unit (`ValidInv`). An app
that starts empty has what it created itself and what replies brought; the first is
unmarked and gone with the next reply it processes, the second is marked and was in
the file when the reply was made.
-/

namespace EssApp.Sync

open Readme

def AllValidated (ms : List Marker) : Prop := ∀ m ∈ ms, m.validated = true

theorem allValidated_merge {local_db : Database} (h : AllValidated local_db.markers)
    (remote_db : Database) : AllValidated (mergeDatabases local_db remote_db).markers := by
  intro m hm
  rcases mem_merge hm with hm | ⟨r, _, _, rfl⟩
  · exact h m hm
  · rfl

theorem allValidated_setReported {db : Database} (h : AllValidated db.markers) (k : Nat) :
    AllValidated (setReported db k).markers := by
  intro m hm
  obtain ⟨m₀, hm₀, rfl | rfl⟩ := mem_setReported hm
  · exact h m hm₀
  · exact h m₀ hm₀

/-! ## Nothing unvalidated comes from the unit -/

/-- The file and the snapshots hold validated markers only. -/
structure UnitInv (s : Server) : Prop where
  file : AllValidated s.database.markers
  snapshots : ∀ p ∈ s.publishes, AllValidated p.local_db.markers

theorem unitInv_step {s t : Server} {e : Readme.Event} (h : UnitInv s) (hs : Readme.Step s e t) :
    UnitInv t := by
  cases Readme.step_effect hs with
  | connect => exact ⟨h.file, h.snapshots⟩
  | client => exact ⟨allValidated_merge h.file _, h.snapshots⟩
  | mqtt => exact ⟨allValidated_merge h.file _, h.snapshots⟩
  | quiet => exact h
  | @started k _ _ =>
      have hsnap := allValidated_setReported h.file k
      exact ⟨h.file, Places.forall_mem_concat h.snapshots hsnap⟩
  | @published i d p hget _ =>
      have hsnap := h.snapshots p (List.mem_of_getElem? hget)
      refine ⟨allValidated_setReported hsnap p.k, Places.forall_mem_set h.snapshots ?_ i⟩
      exact hsnap

/-- Nor is there anything unvalidated in a reply. -/
structure ValidInv {ι : Type} (n : Net ι) : Prop where
  unit : UnitInv n.unit
  replies : ∀ i, ∀ r ∈ (n.links i).replies, AllValidated r.markers

/-- What a move of a link does to the unit and to the replies. -/
theorem valid_move {l l' : Link} {s s' : Server} {a : Action} (hm : Move l s a l' s')
    (hs : UnitInv s) (hl : ∀ r ∈ l.replies, AllValidated r.markers) :
    UnitInv s' ∧ ∀ r ∈ l'.replies, AllValidated r.markers := by
  cases hm with
  | create => exact ⟨hs, hl⟩
  | delete => exact ⟨hs, hl⟩
  | send => exact ⟨hs, hl⟩
  | @handle request rest _ =>
      have hmerge := allValidated_merge hs.file request
      exact ⟨⟨hmerge, hs.snapshots⟩, Places.forall_mem_concat hl hmerge⟩
  | @process reply rest hrep => exact ⟨hs, fun r hr => hl r (hrep ▸ List.mem_cons_of_mem _ hr)⟩

section

variable {ι : Type} [DecidableEq ι]

theorem validInv_step {n n' : Net ι} {e : Event ι} (h : ValidInv n) (hs : Step n e n') :
    ValidInv n' := by
  have hunit : UnitInv n'.unit := by
    cases hs with
    | @link i a l s hm => exact (valid_move hm h.unit (h.replies i)).1
    | unit hs => exact unitInv_step h.unit hs
  refine ⟨hunit, fun i => ?_⟩
  rcases step_link hs i with ⟨a, _, hm⟩ | ⟨heq, _⟩
  · exact (valid_move hm h.unit (h.replies i)).2
  · rw [heq]
    exact h.replies i

/-! ## Where a validated marker has been -/

/-- `X` was in `database.json` at some moment of the run `es` from `n₀` to `n`. -/
def Seen (n₀ : Net ι) (es : List (Event ι)) (n : Net ι) (X : EventId) : Prop :=
  ∃ pre post u, es = pre ++ post ∧ Lts.Run Step n₀ pre u ∧ Lts.Run Step u post n
    ∧ X ∈ ids u.unit.database.markers

theorem seen_now {n₀ n : Net ι} {es : List (Event ι)} {X : EventId} (hrun : Lts.Run Step n₀ es n)
    (h : X ∈ ids n.unit.database.markers) : Seen n₀ es n X :=
  ⟨es, [], n, (List.append_nil es).symm, hrun, .nil, h⟩

theorem Seen.later {n₀ n n' : Net ι} {es : List (Event ι)} {e : Event ι} {X : EventId}
    (h : Seen n₀ es n X) (hs : Step n e n') : Seen n₀ (es ++ [e]) n' X := by
  obtain ⟨pre, post, u, rfl, hpre, hpost, hX⟩ := h
  exact ⟨pre, post ++ [e], u, List.append_assoc _ _ _, hpre, hpost.append (.single hs), hX⟩

/-- What the app shows as validated, and whatever is in a reply to it, satisfies `P`. -/
structure MarkedLink (P : EventId → Prop) (l : Link) : Prop where
  app : ∀ m ∈ l.app.marker_list, m.validated = true → P m.id
  replies : ∀ r ∈ l.replies, ∀ m ∈ r.markers, P m.id

omit [DecidableEq ι] in
/-- A move adds to these only what the unit has just written. -/
theorem markedLink_move {P Q : EventId → Prop} {l l' : Link} {s s' : Server} {a : Action}
    (h : MarkedLink P l) (hm : Move l s a l' s') (hPQ : ∀ X, P X → Q X)
    (hnow : ∀ X ∈ ids s'.database.markers, Q X) : MarkedLink Q l' := by
  have hold : MarkedLink Q l :=
    ⟨fun m hm hv => hPQ _ (h.app m hm hv), fun r hr m hm => hPQ _ (h.replies r hr m hm)⟩
  cases hm with
  | create =>
      refine ⟨fun m hm hv => ?_, hold.replies⟩
      rcases mem_onClick.mp hm with hm | rfl
      · exact hold.app m hm hv
      · cases hv
  | delete => exact ⟨fun m hm hv => hold.app m (mem_of_deleteEvent hm) hv, hold.replies⟩
  | send => exact ⟨hold.app, hold.replies⟩
  | @handle request rest _ =>
      -- the reply is what the unit has just written
      have hreply : ∀ m ∈ (onClientMessage s request).1.markers, Q m.id :=
        fun m hm => hnow _ (mem_ids_of_mem hm)
      exact ⟨hold.app, Places.forall_mem_concat hold.replies hreply⟩
  | @process reply rest hrep =>
      -- what was in the reply is now in the list
      exact ⟨fun m hm _ => hold.replies reply (hrep ▸ List.mem_cons_self) m hm,
        fun r hr => hold.replies r (hrep ▸ List.mem_cons_of_mem _ hr)⟩

theorem marked_step {n₀ n n' : Net ι} {es : List (Event ι)} {e : Event ι} {i : ι}
    (hrun : Lts.Run Step n₀ es n) (h : MarkedLink (Seen n₀ es n) (n.links i))
    (hs : Step n e n') : MarkedLink (Seen n₀ (es ++ [e]) n') (n'.links i) := by
  rcases step_link hs i with ⟨a, _, hm⟩ | ⟨heq, _⟩
  · exact markedLink_move h hm (fun X hX => hX.later hs)
      (fun X hX => seen_now (hrun.append (.single hs)) hX)
  · rw [heq]
    exact ⟨fun m hm hv => (h.app m hm hv).later hs, fun r hr m hm => (h.replies r hr m hm).later hs⟩

/-! ## Where an unvalidated marker comes from -/

/-- The user of app `i` created `m`, and the app has processed no reply since. -/
def CreatedSince (i : ι) (es : List (Event ι)) (m : Marker) : Prop :=
  ∃ pre post latlng type id timestamp,
    es = pre ++ .link i (.create latlng type id timestamp) :: post
      ∧ m = newEvent latlng type id timestamp ∧ .link i .process ∉ post

omit [DecidableEq ι] in
theorem CreatedSince.later {i : ι} {es : List (Event ι)} {e : Event ι} {m : Marker}
    (h : CreatedSince i es m) (he : e ≠ .link i .process) : CreatedSince i (es ++ [e]) m := by
  obtain ⟨pre, post, latlng, type, id, timestamp, rfl, hm, hp⟩ := h
  refine ⟨pre, post ++ [e], latlng, type, id, timestamp, ?_, hm, fun hmem => ?_⟩
  · rw [List.append_assoc, List.cons_append]
  · rcases List.mem_append.mp hmem with hmem | hmem
    · exact hp hmem
    · exact he (List.mem_singleton.mp hmem).symm

/-- What app `i` shows as not validated was created there since the last reply. -/
def OwnOnly (i : ι) (es : List (Event ι)) (l : Link) : Prop :=
  ∀ m ∈ l.app.marker_list, m.validated = false → CreatedSince i es m

omit [DecidableEq ι] in
theorem ownOnly_move {i : ι} {es : List (Event ι)} {l l' : Link} {s s' : Server} {a : Action}
    (h : OwnOnly i es l) (hm : Move l s a l' s')
    (hl : ∀ r ∈ l.replies, AllValidated r.markers) : OwnOnly i (es ++ [.link i a]) l' := by
  cases hm with
  | @create latlng type id timestamp =>
      intro m hm hv
      rcases mem_onClick.mp hm with hm | rfl
      · exact (h m hm hv).later nofun
      · -- the new event is its own witness
        exact ⟨es, [], latlng, type, id, timestamp, rfl, rfl, by simp⟩
  | delete => exact fun m hm hv => (h m (mem_of_deleteEvent hm) hv).later nofun
  | send => exact fun m hm hv => (h m hm hv).later nofun
  | handle _ => exact fun m hm hv => (h m hm hv).later nofun
  | @process reply rest hrep =>
      -- a reply has nothing unvalidated
      intro m hm hv
      rw [hl reply (hrep ▸ List.mem_cons_self) m hm] at hv
      cases hv

theorem ownOnly_step {n n' : Net ι} {es : List (Event ι)} {e : Event ι} {i : ι}
    (hv : ValidInv n) (h : OwnOnly i es (n.links i)) (hs : Step n e n') :
    OwnOnly i (es ++ [e]) (n'.links i) := by
  rcases step_link hs i with ⟨a, rfl, hm⟩ | ⟨heq, hne⟩
  · exact ownOnly_move h hm (hv.replies i)
  · rw [heq]
    exact fun m hm hf => (h m hm hf).later (hne _)

/--
**What the validated mark means.** From empty apps and a file of validated markers,
in every reachable state: what an app shows as validated has been in the file; what
it shows as not validated its own user created since the last reply it processed;
and everything in the file, in a reply or in a snapshot is validated.
-/
theorem validated_means {db : Database} (hdb : AllValidated db.markers) {es : List (Event ι)}
    {n : Net ι} (hrun : Lts.Run Step (start (fun _ => {}) (boot db)) es n) :
    (∀ i, ∀ m ∈ (n.links i).app.marker_list, m.validated = true →
        Seen (start (fun _ => {}) (boot db)) es n m.id)
      ∧ (∀ i, ∀ m ∈ (n.links i).app.marker_list, m.validated ≠ true → CreatedSince i es m)
      ∧ AllValidated n.unit.database.markers
      ∧ (∀ i, ∀ r ∈ (n.links i).replies, AllValidated r.markers)
      ∧ ∀ p ∈ n.unit.publishes, AllValidated p.local_db.markers := by
  have hvalid₀ : ValidInv (start (fun _ : ι => {}) (boot db)) :=
    ⟨⟨hdb, fun p hp => absurd hp (by simp [start, boot])⟩, fun i r hr => absurd hr (by simp)⟩
  have hvalid : ∀ {as : List (Event ι)} {u : Net ι},
      Lts.Run Step (start (fun _ => {}) (boot db)) as u → ValidInv u :=
    fun h => h.invariant (I := ValidInv) validInv_step hvalid₀
  -- parts (a) and (b) speak of the run so far, so they are carried along with it
  have hmarked := hrun.history
    (I := fun as u => ∀ i, MarkedLink (Seen (start (fun _ => {}) (boot db)) as u) (u.links i))
    (fun hr h hs i => marked_step hr (h i) hs)
    (fun i => ⟨fun m hm => absurd hm (by simp), fun r hr => absurd hr (by simp)⟩)
  have hown := hrun.history (I := fun as u => ∀ i, OwnOnly i as (u.links i))
    (fun hr h hs i => ownOnly_step (hvalid hr) (h i) hs)
    (fun i m hm => absurd hm (by simp))
  have hn := hvalid hrun
  refine ⟨fun i => (hmarked i).app, fun i m hm hv => hown i m hm (by simpa using hv),
    hn.unit.file, hn.replies, hn.unit.snapshots⟩

end

/-- After one event and one sync, what the app shows as validated is in the file. -/
theorem validated_means_synced :
    ∃ es n, Lts.Run Step oneApp es n ∧ idA ∈ ids (n.links ()).app.marker_list
      ∧ (∀ i, ∀ m ∈ (n.links i).app.marker_list, m.validated = true → Seen oneApp es n m.id)
      ∧ AllValidated n.unit.database.markers := by
  have hrun : Lts.Run Step oneApp
      [.link () (report idA), .link () .send, .link () .handle, .link () .process] _ :=
    .cons (.link .create) (.cons (.link .send) (.cons (.link (.handle rfl))
      (.single (.link (.process rfl)))))
  have hdb : AllValidated (readmeDatabase []).markers :=
    fun m hm => absurd hm (by simp [readmeDatabase])
  have h := validated_means hdb hrun
  exact ⟨_, _, hrun, by decide, h.1, h.2.2.1⟩

end EssApp.Sync
