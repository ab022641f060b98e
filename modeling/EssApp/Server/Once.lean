import EssApp.Server.Reported

/-!
# No event is transmitted twice

A tick publishes the first marker whose flag is not set *in the file*, and the flag
gets there only when the callback runs. So a tick that fires while a publish is
outstanding sends the same event again, and so does any tick after a success whose
write failed. `Unhurried` rules out these two.

The invariant behind `published_again_after_failure` is `Done`: an event that has been
transmitted is in the stored list, under its name, with its flag set. A merge keeps
that, since a held name admits nothing remote; and a callback keeps it, since with one
publish outstanding at a time its snapshot was loaded after every earlier success.
-/

namespace EssApp.WebSocketServer

open Js

/--
A step that hurries nothing, as far as the event `X` goes: a tick finds something to send only
when no publish is outstanding, a callback without error can write, and a message leaves
the name to one marker.
-/
def Unhurried (X : String) (s : Server) : Event → Prop
  | .tick io => s.txEnabled = true → (∃ k m, pendingMarker io s = .ok (some (k, m))) →
      ∀ p ∈ s.publishes, p.delivery ≠ none
  | .published io _ d => d = .success → io.writeOk = true
  | e => e.IsMessage → Unambiguous X s e

theorem Unhurried.unambiguous {X : String} {s : Server} {e : Event} (h : Unhurried X s e)
    (he : e.IsMessage) : Unambiguous X s e := by
  cases e with
  | tick io => exact he.elim
  | published io i d => exact he.elim
  | _ => exact h he

/-- The event `X` is settled in the list: it is there, and its flag is set. -/
def Done (ms : List Value) (X : String) : Prop :=
  ∃ m ∈ ms, Named m X ∧ m.own "reported" = some (.bool true)

theorem isReported_of_marked {m : Value} (h : m.own "reported" = some (.bool true)) :
    isReported m = true := by
  rw [isReported, Value.prop, h]
  rfl

theorem marked_set {m : Value} (hobj : ∃ ps, m = .obj ps) :
    (m.set "reported" (.bool true)).own "reported" = some (.bool true) := by
  obtain ⟨ps, rfl⟩ := hobj
  rw [Value.own_set_obj, if_pos rfl]

/-! ## What keeps an event settled -/

theorem Done.reportedAt {ms : List Value} {X : String} (h : Done ms X) (i : Nat) :
    Done (reportedAt ms i) X := by
  obtain ⟨m, hm, hX, hmark⟩ := h
  obtain ⟨j, hj⟩ := List.mem_iff_getElem?.mp hm
  have hj' : (WebSocketServer.reportedAt ms i)[j]?
      = some (if i = j then m.set "reported" (.bool true) else m) := by
    rw [WebSocketServer.reportedAt, List.getElem?_modify, hj]
    rfl
  refine ⟨_, List.mem_of_getElem? hj', ?_⟩
  split
  · exact ⟨(named_set (by decide)).mpr hX, marked_set hX.1⟩
  · exact ⟨hX, hmark⟩

/-- A round trip keeps a flag that is set. -/
theorem marked_elemJSON {m : Value} (hobj : ∃ ps, m = .obj ps)
    (h : m.own "reported" = some (.bool true)) :
    m.elemJSON.own "reported" = some (.bool true) := by
  obtain ⟨ps, rfl⟩ := hobj
  rw [Value.own_elemJSON_obj, h]
  rfl

theorem Done.written {ms : List Value} {X : String} (h : Done ms X) (ht : Tidy X ms) :
    Done (written ms) X := by
  obtain ⟨m, hm, hX, hmark⟩ := h
  exact ⟨_, List.mem_map_of_mem hm, (ht.named_elemJSON hm).mpr hX, marked_elemJSON hX.1 hmark⟩

/-- **A merge keeps a settled event settled**, whatever the message. -/
theorem Done.merged {local_db remote_db db : Value} {X : String}
    (h : Done (markersOf local_db) X) (ht : Tidy X (markersOf local_db))
    (hp : NoProto (markersOf local_db)) (hm : mergeDatabases local_db remote_db = .ok db) :
    Done (WebSocketServer.written (markersOf db)) X := by
  obtain ⟨m, hml, hX, hmark⟩ := h
  obtain ⟨_, _, hkept⟩ := mergeDatabases_markers hm hp
  -- what is kept under the name is the one local marker that has it
  obtain ⟨n, hn, hnl, hnk⟩ := hkept X (ht.held hml hX)
  obtain rfl := ht.eq_of_key hnl hml hnk hX.2
  exact ⟨_, List.mem_map_of_mem hn, (ht.named_elemJSON hml).mpr hX, marked_elemJSON hX.1 hmark⟩

/-- The event a publish transmits is settled in its own snapshot. -/
theorem Snapshot.done {X : String} {p : Publish} (h : Snapshot X p) (hX : p.Sends X) :
    Done (markersOf p.local_db) X := by
  obtain ⟨i, m, _, hi, hpay⟩ := h.own
  obtain ⟨w, hw, hwX⟩ := hX
  have hmem := List.mem_of_getElem? hi
  rw [hpay] at hw
  cases hw
  have hsX : Named (m.set "reported" (.bool true)) X := (h.tidy.named_elemJSON hmem).mp hwX
  exact ⟨_, hmem, hsX, marked_set ((named_set (by decide)).mp hsX).1⟩

/-! ## The invariant -/

/-- `X` has been transmitted. -/
def Delivered (s : Server) (X : String) : Prop :=
  ∃ p ∈ s.publishes, p.Sends X ∧ p.delivery = some .success

structure OnceInv (X : String) (s : Server) : Prop where
  file : FileInv X s
  /-- What was transmitted is settled in the file, -/
  done : Delivered s X → Done (storedMarkers s) X
  /-- and in every snapshot still to be written. -/
  pending : ∀ p ∈ s.publishes, p.delivery = none → Delivered s X → Done (markersOf p.local_db) X
  /-- One publish is outstanding at most. -/
  alone : ∀ (i j : Nat) (p q : Publish), s.publishes[i]? = some p → s.publishes[j]? = some q →
    p.delivery = none → q.delivery = none → i = j

theorem onceInv_init {v₀ : Value} (h₀ : IsDatabase v₀) (X : String) :
    OnceInv X (boot (.json v₀)) where
  file := fileInv_init h₀ X
  done := by rintro ⟨p, hp, _⟩; exact absurd hp (by simp [boot])
  pending p hp := absurd hp (by simp [boot])
  alone i j p q hi := absurd hi (by simp [boot])

/-- After the callback of the only outstanding publish none is outstanding. -/
theorem none_pending {X : String} {s : Server} (h : OnceInv X s) {i : Nat} {p : Publish}
    {d : Delivery}
    (hget : s.publishes[i]? = some p) (hd : p.delivery = none) :
    ∀ q ∈ s.publishes.set i { p with delivery := some d }, q.delivery ≠ none := by
  intro q hq hnone
  obtain ⟨j, hj⟩ := List.mem_iff_getElem?.mp hq
  by_cases hij : i = j
  · subst hij
    rw [List.getElem?_set_self (List.getElem?_eq_some_iff.mp hget).1] at hj
    rw [← Option.some.inj hj] at hnone
    cases hnone
  · rw [List.getElem?_set_ne hij] at hj
    exact hij (h.alone i j p q hget hj hd hnone)

/-- A merge changes no publish, and keeps what was transmitted settled in the file. -/
theorem onceInv_message {X : String} {s t : Server} {e : Event} (h : OnceInv X s)
    (hstep : Step s e t) (he : e.IsMessage) (hu : Unambiguous X s e)
    (hpub : t.publishes = s.publishes) : OnceInv X t := by
  have hdel : Delivered t X → Delivered s X := by
    intro hX
    rwa [Delivered, hpub] at hX
  refine ⟨fileInv_step h.file hstep (fun _ => hu), ?_, ?_, ?_⟩
  · intro hX
    have hdone := h.done (hdel hX)
    obtain ⟨_, hw⟩ := written_of_step h.file hstep
    generalize storedMarkers t = ms at hw
    cases hw with
    | kept => exact hdone
    | merged _ hl _ hm => exact Done.merged (hl ▸ hdone) (hl ▸ h.file.tidy) (hl ▸ hu.1) hm
    | snapshot => exact he.elim
  · intro p hp hd hX
    exact h.pending p (hpub ▸ hp) hd (hdel hX)
  · rw [hpub]
    exact h.alone

/-- A tick that starts a publish while none is outstanding. -/
theorem onceInv_started {X : String} {io : Outcomes} {s : Server} {k : String} {m : Value}
    (h : OnceInv X s) (hm : pendingMarker io s = .ok (some (k, m)))
    (hquiet : ∀ p ∈ s.publishes, p.delivery ≠ none)
    (hfile : FileInv X
      { s with publishes := s.publishes ++ [publishOf (loadDatabase io s) k m] }) :
    OnceInv X { s with publishes := s.publishes ++ [publishOf (loadDatabase io s) k m] } := by
  obtain ⟨i, rfl, _, _, hown⟩ := pending_spec h.file hm
  have hdel : Delivered { s with publishes := s.publishes ++ [publishOf
      (loadDatabase io s) (toString i) m] } X → Delivered s X := by
    rintro ⟨p, hp, hX, hd⟩
    rcases List.mem_append.mp hp with hp | hp
    · exact ⟨p, hp, hX, hd⟩
    · rw [List.mem_singleton.mp hp] at hd
      cases hd
  -- an outstanding publish is the new one, at the end
  have hlast : ∀ (j : Nat) (p : Publish),
      (s.publishes ++ [publishOf (loadDatabase io s) (toString i) m])[j]? = some p →
      p.delivery = none → j = s.publishes.length := by
    intro j p hj hd
    by_cases hlt : j < s.publishes.length
    · rw [List.getElem?_append_left hlt] at hj
      exact absurd hd (hquiet p (List.mem_of_getElem? hj))
    · have := (List.getElem?_eq_some_iff.mp hj).1
      rw [List.length_append, List.length_singleton] at this
      omega
  refine ⟨hfile, fun hX => h.done (hdel hX), ?_, ?_⟩
  · intro p hp hd hX
    rcases List.mem_append.mp hp with hp | hp
    · exact absurd hd (hquiet p hp)
    · -- its snapshot is the file of this moment, which has every earlier success
      rw [List.mem_singleton.mp hp, publishOf, markersOf_of_own hown]
      exact (h.done (hdel hX)).reportedAt i
  · intro j j' p q hj hj' hp hq
    rw [hlast j p hj hp, hlast j' q hj' hq]

/-- The callback of the outstanding publish, which can write if it brings no error. -/
theorem onceInv_published {X : String} {io : Outcomes} {s : Server} {i : Nat} {d : Delivery}
    {p : Publish} (h : OnceInv X s) (hget : s.publishes[i]? = some p) (hd : p.delivery = none)
    (hwrite : d = .success → io.writeOk = true)
    (hfile : FileInv X { s with publishes := s.publishes.set i { p with delivery := some d },
                                database := fileAfter io s (setReported p.local_db p.k) }) :
    OnceInv X { s with publishes := s.publishes.set i { p with delivery := some d },
                       database := fileAfter io s (setReported p.local_db p.k) } := by
  have hnone := none_pending (d := d) h hget hd
  have hsnap := h.file.snapshots p (List.mem_of_getElem? hget)
  obtain ⟨j, _, hk, _, _⟩ := hsnap.own
  obtain ⟨_, hlist⟩ := storedMarkers_callback io h.file hsnap hk
    (t := { s with publishes := s.publishes.set i { p with delivery := some d },
                   database := fileAfter io s (setReported p.local_db p.k) }) rfl
  refine ⟨hfile, ?_, fun q hq hd' => absurd hd' (hnone q hq), ?_⟩
  · rintro ⟨q, hq, hqX, hqd⟩
    -- settled in the snapshot, and in the file too unless it is what was just sent
    have hdone : Done (markersOf p.local_db) X
        ∧ (io.writeOk = false → Done (storedMarkers s) X) := by
      rcases List.mem_or_eq_of_mem_set hq with hq | hq
      · have hX : Delivered s X := ⟨q, hq, hqX, hqd⟩
        exact ⟨h.pending p (List.mem_of_getElem? hget) hd hX, fun _ => h.done hX⟩
      · subst hq
        cases hqd
        refine ⟨hsnap.done hqX, fun hw => ?_⟩
        rw [hwrite rfl] at hw
        cases hw
    rcases hlist with ⟨_, hl⟩ | ⟨hw, hl⟩
    · rw [hl]
      exact (hdone.1.reportedAt j).written (hsnap.tidy.alike (alike_reportedAt X _ j))
    · rw [hl]
      exact hdone.2 hw
  · intro j j' q q' hj _ hq _
    exact absurd hq (hnone q (List.mem_of_getElem? hj))

/-- **Transmitted events stay settled.** -/
theorem onceInv_step {X : String} {s t : Server} {e : Event} (h : OnceInv X s)
    (hs : Lts.Guarded Step (Unhurried X) s e t) : OnceInv X t := by
  obtain ⟨hstep, hguard⟩ := hs
  have hfile := fileInv_step h.file hstep hguard.unambiguous
  cases step_effect hstep with
  | connect => exact ⟨hfile, h.done, h.pending, h.alone⟩
  | idle => exact h
  | replied _ _ => exact onceInv_message h hstep trivial (hguard.unambiguous trivial) rfl
  | received _ => exact onceInv_message h hstep trivial (hguard.unambiguous trivial) rfl
  | @started io k m htx hm => exact onceInv_started h hm (hguard htx ⟨k, m, hm⟩) hfile
  | published hget hd => exact onceInv_published h hget hd hguard hfile

/-- In a state the invariant holds of, what a tick finds has not been transmitted. -/
theorem not_delivered_of_pending {X : String} {io : Outcomes} {s : Server} {k : String} {m : Value}
    (h : OnceInv X s) (hm : pendingMarker io s = .ok (some (k, m)))
    (hX : Named m.elemJSON X) : ¬ Delivered s X := by
  intro hdel
  obtain ⟨i, _, hi, hr, _⟩ := pending_spec h.file hm
  have hmem := List.mem_of_getElem? hi
  have hmX : Named m X := (h.file.tidy.named_elemJSON hmem).mp hX
  obtain ⟨n, hn, hnX, hmark⟩ := h.done hdel
  obtain rfl := h.file.tidy.eq_of_key hn hmem hnX.2 hmX.2
  rw [isReported_of_marked hmark] at hr
  cases hr

/--
**An event is transmitted again only after failures.** For every event, whatever its id, in
every run all of whose steps are unhurried: when a step hands it to `publish`, every
earlier publish of it has completed with an error.
-/
theorem published_again_after_failure {v₀ : Value} (h₀ : IsDatabase v₀) {es : List Event}
    {s t : Server} {e : Event} {X : String}
    (hrun : Lts.Run (Lts.Guarded Step (Unhurried X)) (boot (.json v₀)) es s)
    (hs : Lts.Guarded Step (Unhurried X) s e t) {q : Publish}
    (hq : t.publishes = s.publishes ++ [q]) (hX : q.Sends X) :
    ∀ p ∈ s.publishes, p.Sends X → p.delivery = some .failure := by
  have hinv := hrun.invariant (I := OnceInv X) onceInv_step (onceInv_init h₀ X)
  obtain ⟨hstep, hguard⟩ := hs
  have hgrow : t.publishes.length = s.publishes.length + 1 := by
    rw [hq, List.length_append, List.length_singleton]
  cases step_effect hstep with
  | connect => exact absurd hgrow (by simp)
  | idle => exact absurd hgrow (by simp)
  | replied _ _ => exact absurd hgrow (by simp)
  | received _ => exact absurd hgrow (by simp)
  | published _ _ => exact absurd hgrow (by simp)
  | @started io k m htx hm =>
      have hqm : publishOf (loadDatabase io s) k m = q := by
        have := List.append_cancel_left hq
        cases this
        rfl
      obtain ⟨w, hw, hwX⟩ := hX
      rw [← hqm] at hw
      cases hw
      -- the flag in the payload is not part of its name
      have hmX : Named m.elemJSON X := (alike_reported X m).named_elemJSON.mp hwX
      intro p hp hpX
      cases hd : p.delivery with
      | none => exact absurd hd (hguard htx ⟨k, m, hm⟩ p hp)
      | some d =>
          cases d with
          | failure => rfl
          | success => exact absurd ⟨p, hp, hpX, hd⟩ (not_delivered_of_pending hinv hm hmX)

/-- A publish that failed, and whose write-back failed too, is followed by another one. -/
theorem published_again_after_failure_readme :
    ∃ p ∈ (after afterTick (.published { writeOk := false } 0 .failure)).publishes,
      p.Sends "a8uhn7eHUJnheUJ3n9In" ∧ p.delivery = some .failure := by
  have hempty : ∀ p ∈ (after (boot (.json readmeDatabase)) .connect).publishes,
      p.delivery ≠ none := fun p hp => (by cases hp)
  have hrun := run_afterTick (C := Unhurried "a8uhn7eHUJnheUJ3n9In") (fun h => h.elim)
    (fun _ _ => hempty)
  have hstep : Step afterTick (.published { writeOk := false } 0 .failure)
      (after afterTick (.published { writeOk := false } 0 .failure)) := ⟨⟨_, rfl, rfl⟩, rfl⟩
  have hquiet : ∀ p ∈ (after afterTick (.published { writeOk := false } 0 .failure)).publishes,
      p.delivery ≠ none := by
    intro p hp
    rw [List.mem_singleton.mp hp]
    exact nofun
  have hnext : Step (after afterTick (.published { writeOk := false } 0 .failure)) (.tick {})
      (after (after afterTick (.published { writeOk := false } 0 .failure)) (.tick {})) :=
    ⟨trivial, rfl⟩
  have hagain := published_again_after_failure isDatabase_readme
    (hrun.append (.single ⟨hstep, fun h => (by cases h)⟩)) ⟨hnext, fun _ _ => hquiet⟩
    (q := readmePublish) rfl readmePublish_sends
  exact ⟨_, .head _, readmePublish_sends, hagain _ (.head _) readmePublish_sends⟩

/-- A second tick before the first callback publishes the same event again. -/
theorem published_twice :
    IsDatabase readmeDatabase
      ∧ ∃ s t q, Lts.Run Step (boot (.json readmeDatabase)) [.connect, .tick {}] s
        ∧ Step s (.tick {}) t ∧ t.publishes = s.publishes ++ [q]
        ∧ q.Sends "a8uhn7eHUJnheUJ3n9In"
        ∧ ∃ p ∈ s.publishes, p.Sends "a8uhn7eHUJnheUJ3n9In" ∧ p.delivery ≠ some .failure := by
  have hrun := run_afterTick (C := fun _ _ => True) trivial trivial
  refine ⟨isDatabase_readme, afterTick, after afterTick (.tick {}), readmePublish, hrun.unguard,
    ⟨trivial, rfl⟩, rfl, readmePublish_sends, readmePublish, List.mem_singleton.mpr rfl,
    readmePublish_sends, nofun⟩

end EssApp.WebSocketServer
