import EssApp.App.Uploads

/-!
# How often the app uploads, and what it shows

An `onopen` starts an update interval and puts its id in `updTimerId`, an `onclose`
stops the one that is there. If two sockets open with no close in between, the first
interval is nobody's any more: nothing stops it (`lost_stays`), and from then on the
app uploads once more in every period. `unclosed` counts these from the order of the
opens and closes alone, and `uploads_count` says that this is how often the app
uploads, after any run.

The state icon is set in the same handlers. It always agrees with `wsStatus`
(`icon_agrees`), and it shows whether the current socket is open under a condition
that is weaker than that of the uploads (`icon_iff`).
-/

namespace EssApp.Connection

/-! ## Counting the intervals -/

/-- What an event is to the update intervals: an open, a close or neither. -/
def edge : Event → Option Bool
  | .opened _ => some true
  | .closed _ => some false
  | _ => none

/-- The opens that no close follows at once. -/
def unclosed : List Bool → Nat
  | [] => 0
  | true :: false :: bs => unclosed bs
  | true :: bs => unclosed bs + 1
  | false :: bs => unclosed bs

example : unclosed [true, true, false, true] = 2 := by decide

theorem unclosed_open (bs : List Bool) : unclosed (bs ++ [true]) = unclosed bs + 1 := by
  induction bs using unclosed.induct with
  | case1 => rfl
  | case2 bs ih => exact ih
  | case3 bs hne ih =>
      -- what comes next is no close, with the new open or without it
      cases bs with
      | nil => rfl
      | cons b bs =>
          cases b with
          | false => exact absurd rfl (hne bs)
          | true => exact congrArg (· + 1) ih
  | case4 bs ih => exact ih

theorem unclosed_open_close (bs : List Bool) : unclosed (bs ++ [true, false]) = unclosed bs := by
  induction bs using unclosed.induct with
  | case1 => rfl
  | case2 bs ih => exact ih
  | case3 bs hne ih =>
      cases bs with
      | nil => rfl
      | cons b bs =>
          cases b with
          | false => exact absurd rfl (hne bs)
          | true => exact congrArg (· + 1) ih
  | case4 bs ih => exact ih

/-- A close that follows no open stops nothing. -/
theorem unclosed_close {bs : List Bool} (h : bs.getLast? ≠ some true) :
    unclosed (bs ++ [false]) = unclosed bs := by
  induction bs using unclosed.induct with
  | case1 => rfl
  | case2 bs ih =>
      cases bs with
      | nil => rfl
      | cons b bs => exact ih (by simpa using h)
  | case3 bs hne ih =>
      cases bs with
      | nil => exact absurd rfl h
      | cons b bs =>
          cases b with
          | false => exact absurd rfl (hne bs)
          | true => exact congrArg (· + 1) (ih (by simpa using h))
  | case4 bs ih =>
      cases bs with
      | nil => rfl
      | cons b bs => exact ih (by simpa using h)

/-- The invariant of a run `es`. -/
structure Counted (es : List Event) (m : Manager) : Prop where
  retries : Retries m
  /-- No interval is there twice, -/
  nodup : (m.live .update).Nodup
  /-- one is named if the last of the opens and closes is an open, -/
  named : m.updTimerId.isSome ↔ (es.filterMap edge).getLast? = some true
  /-- and there are as many as opens that were not closed. -/
  length : (m.live .update).length = unclosed (es.filterMap edge)

theorem counted_start : Counted [] start where
  retries := retries_start
  nodup := List.nodup_nil
  named := by decide
  length := rfl

/-- A step that is neither an open nor a close, and touches no interval. -/
theorem Counted.frame {es : List Event} {e : Event} {m m' : Manager} (h : Counted es m)
    (hr : Retries m') (he : edge e = none) (hi : m'.intervals = m.intervals)
    (hu : m'.updTimerId = m.updTimerId) : Counted (es ++ [e]) m' := by
  have hlive : m'.live .update = m.live .update := by rw [Manager.live, hi, Manager.live]
  have hedges : (es ++ [e]).filterMap edge = es.filterMap edge := by
    rw [List.filterMap_append, List.filterMap_cons_none he, List.filterMap_nil, List.append_nil]
  refine ⟨hr, hlive ▸ h.nodup, ?_, ?_⟩
  · rw [hu, hedges]
    exact h.named
  · rw [hlive, hedges]
    exact h.length

theorem edges_concat (es : List Event) {e : Event} {b : Bool} (he : edge e = some b) :
    (es ++ [e]).filterMap edge = es.filterMap edge ++ [b] := by
  rw [List.filterMap_append, List.filterMap_cons_some he, List.filterMap_nil]

/-- **A close** stops the interval of the open before it, if that is what came before. -/
theorem length_closed {es : List Event} {m : Manager} (h : Counted es m) :
    ((m.live .update).filter fun j => some j ≠ m.updTimerId).length
      = unclosed (es.filterMap edge ++ [false]) := by
  cases hu : m.updTimerId with
  | none =>
      have hlast : (es.filterMap edge).getLast? ≠ some true := by
        rw [Ne, ← h.named, hu]
        decide
      have hall : (m.live .update).filter (fun j => some j ≠ none) = m.live .update :=
        List.filter_eq_self.mpr fun _ _ => rfl
      rw [unclosed_close hlast, ← h.length, hall]
  | some id =>
      have hlast : (es.filterMap edge).getLast? = some true := h.named.mp (by rw [hu]; rfl)
      obtain ⟨bs, hbs⟩ := List.getLast?_eq_some_iff.mp hlast
      have hid : id ∈ m.live .update := h.retries.timers.updates id hu
      have herase : (m.live .update).filter (fun j => some j ≠ some id)
          = (m.live .update).erase id := by
        rw [h.nodup.erase_eq_filter]
        refine List.filter_congr ?_
        intro j _
        simp [bne, BEq.beq]
      have hlength := h.length
      rw [hbs, unclosed_open] at hlength
      rw [herase, List.length_erase_of_mem hid, hlength, hbs, List.append_assoc]
      exact (unclosed_open_close bs).symm

/-- **The step lemma.** -/
theorem counted_step {es : List Event} {e : Event} {m m' : Manager} (h : Counted es m)
    (hs : Step m e m') : Counted (es ++ [e]) m' := by
  have hr := retries_step h.retries hs
  cases step_effect h.retries.attached hs with
  | created => exact h.frame hr rfl rfl rfl
  | retried _ => exact h.frame hr rfl rfl rfl
  | uploaded _ => exact h.frame hr rfl rfl rfl
  | @opened i hi =>
      obtain ⟨_, _, hid, hlive⟩ := onopen_spec (h.retries.timers.setReadyState i .opened)
      have hlive' : (m.setReadyState i .opened).onopen.live .update
          = m.live .update ++ [m.nextId] := hlive
      have hnew : m.nextId ∉ m.live .update := h.retries.timers.nextId_not_mem .update
      refine ⟨hr, ?_, ?_, ?_⟩
      · rw [hlive']
        exact h.nodup.append (List.nodup_singleton _) (List.disjoint_singleton.mpr hnew)
      · rw [hid, edges_concat es rfl, List.getLast?_concat]
        exact iff_of_true rfl rfl
      · rw [hlive', List.length_append, h.length, edges_concat es rfl, unclosed_open]
        rfl
  | @closed i r hi hne =>
      obtain ⟨_, _, hnone, hlive⟩ := onclose_spec (h.retries.timers.setReadyState i .closed)
      have hlive' : (m.setReadyState i .closed).onclose.live .update
          = (m.live .update).filter fun j => some j ≠ m.updTimerId := hlive
      refine ⟨hr, ?_, ?_, ?_⟩
      · rw [hlive']
        exact h.nodup.filter _
      · rw [hnone, edges_concat es rfl, List.getLast?_concat]
        exact iff_of_false (by decide) (by decide)
      · rw [hlive', edges_concat es rfl]
        exact length_closed h

/-! ## Intervals that nobody stops -/

/-- An update interval that is live and that no variable names. -/
def Lost (id : Nat) (m : Manager) : Prop := id ∈ m.live .update ∧ m.updTimerId ≠ some id

/-- **The step lemma.** -/
theorem lost_step {id : Nat} {m m' : Manager} {e : Event} (hr : Retries m) (h : Lost id m)
    (hs : Step m e m') : Lost id m' := by
  obtain ⟨hid, hne⟩ := h
  cases step_effect hr.attached hs with
  | created => exact ⟨hid, hne⟩
  | retried _ => exact ⟨hid, hne⟩
  | uploaded _ => exact ⟨hid, hne⟩
  | @opened i hi =>
      obtain ⟨_, _, hnext, hlive⟩ := onopen_spec (hr.timers.setReadyState i .opened)
      refine ⟨hlive ▸ List.mem_append_left _ hid, ?_⟩
      -- the id given out now is none of those that are live
      rw [hnext]
      intro hc
      obtain rfl : m.nextId = id := Option.some.inj hc
      exact hr.timers.nextId_not_mem .update hid
  | @closed i r hi hnc =>
      obtain ⟨_, _, hnone, hlive⟩ := onclose_spec (hr.timers.setReadyState i .closed)
      refine ⟨hlive ▸ List.mem_filter.mpr ⟨hid, decide_eq_true (Ne.symm hne)⟩, ?_⟩
      rw [hnone]
      nofun

/-- An interval is lost for good. -/
theorem lost_stays {id : Nat} {m m' : Manager} {es : List Event} (hr : Retries m) (h : Lost id m)
    (hrun : Lts.Run Step m es m') : Lost id m' := by
  refine (hrun.invariant (I := fun m => Retries m ∧ Lost id m) ?_ ⟨hr, h⟩).2
  intro m e m' hex hs
  obtain ⟨hr, h⟩ := hex
  exact ⟨retries_step hr hs, lost_step hr h hs⟩

/-! ## What a period sends -/

/-- **A tick** of an update interval sends the lists on the current socket, if it is open. -/
theorem tick_spec {m : Manager} {id i : Nat} (ht : Timers m) (hid : id ∈ m.live .update)
    (hc : m.socket = some i) (ho : m.readyState i = some .opened) :
    Step m (.tick id) { m with sent := m.sent ++ [i] } := by
  have hget : Table.get m.intervals id = some .update := by
    obtain ⟨task, htask⟩ := Option.isSome_iff_exists.mp
      (Table.get_isSome_of_mem (Manager.mem_live.mp hid))
    cases task with
    | update => exact htask
    | retry => exact absurd hid (ht.apart id (Manager.mem_live.mpr (Table.mem_of_get htask)))
  refine ⟨⟨.update, hget⟩, ?_⟩
  simp only [handle, hget, Manager.upload, hc, ho]

/-- **A period**: each of the intervals sends once. -/
theorem period_spec {i : Nat} (ids : List Nat) {m : Manager} (ht : Timers m)
    (hids : ids ⊆ m.live .update) (hc : m.socket = some i) (ho : m.readyState i = some .opened) :
    Lts.Run Step m (ids.map .tick) { m with sent := m.sent ++ List.replicate ids.length i } := by
  induction ids generalizing m with
  | nil =>
      rw [List.length_nil, List.replicate_zero, List.append_nil]
      exact .nil
  | cons id ids ih =>
      obtain ⟨hid, hrest⟩ := List.cons_subset.mp hids
      -- sending changes no timer and no socket
      have hsent : Timers { m with sent := m.sent ++ [i] } := ht.frame rfl rfl rfl rfl
      have hrun := ih hsent hrest hc ho
      rw [List.append_assoc] at hrun
      exact .cons (tick_spec ht hid hc ho) hrun

/--
**How often the app uploads.** After any run there is an update interval for each open
that no close followed at once. If the current socket is open, each period sends that
many copies of the lists on it; and an interval that `updTimerId` does not name is never
stopped.
-/
theorem uploads_count {es : List Event} {m : Manager} (h : Lts.Run Step start es m) :
    (m.live .update).length = unclosed (es.filterMap edge)
      ∧ (∀ i, m.socket = some i → m.readyState i = some .opened →
        ∃ m', Lts.Run Step m ((m.live .update).map .tick) m'
          ∧ m'.sent = m.sent ++ List.replicate (unclosed (es.filterMap edge)) i)
      ∧ ∀ id ∈ m.live .update, m.updTimerId ≠ some id →
        ∀ es' m', Lts.Run Step m es' m' → id ∈ m'.live .update := by
  have hcounted : Counted es m :=
    h.history (I := Counted) (fun _ hi hs => counted_step hi hs) counted_start
  refine ⟨hcounted.length, ?_, ?_⟩
  · intro i hc ho
    have hrun := period_spec _ hcounted.retries.timers (List.Subset.refl _) hc ho
    rw [hcounted.length] at hrun
    exact ⟨_, hrun, rfl⟩
  · intro id hid hne es' m' hrun
    exact (lost_stays hcounted.retries ⟨hid, hne⟩ hrun).1

theorem run_slowConnection :
    Lts.Run Step start slowConnection (slowConnection.foldl handle start) := by
  have hclose : Step (handle start .initServer) (.closed 0)
      (handle (handle start .initServer) (.closed 0)) := ⟨⟨.connecting, rfl, by decide⟩, rfl⟩
  exact .cons ⟨trivial, rfl⟩ (.cons hclose (.cons ⟨⟨.retry, rfl⟩, rfl⟩
    (.cons ⟨⟨.retry, rfl⟩, rfl⟩ (.cons ⟨rfl, rfl⟩ (.cons ⟨rfl, rfl⟩ .nil)))))

/-- In `slowConnection` two sockets open and none closes after that. -/
theorem uploads_count_slowConnection :
    ((slowConnection.foldl handle start).live .update).length = 2 :=
  (uploads_count run_slowConnection).1

/-! ## The state icon -/

/-- The icon says what the status says. -/
def Agrees (m : Manager) : Prop :=
  m.wsStatus = some .connected ↔ m.wss_state_icon = "signal_wifi_4_bar"

/-- What the icon owes the user. -/
def IconRight (m : Manager) : Prop := m.wss_state_icon = "signal_wifi_4_bar" ↔ m.CurrentOpen

/-- The steps that keep the icon right: another socket may open while the current one is open. -/
def KeepsIcon (m : Manager) : Event → Prop
  | .initServer => ¬ m.CurrentOpen
  | .tick id => Table.get m.intervals id = some .retry → ¬ m.CurrentOpen
  | .opened i => m.socket = some i ∨ m.CurrentOpen
  | .closed i => m.socket = some i ∨ ¬ m.CurrentOpen

theorem Orderly.keepsIcon {m : Manager} {e : Event} (h : Orderly m e) : KeepsIcon m e := by
  cases e with
  | initServer => exact h
  | tick id => exact h
  | opened i => exact Or.inl h
  | closed i => exact h

/-- **An `onclose`** turns the icon off, and there is no status `connected` after it. -/
theorem onclose_shows (m : Manager) :
    m.onclose.wss_state_icon = "signal_wifi_off" ∧ m.onclose.wsStatus ≠ some .connected := by
  have hstart : ∀ m : Manager, m.startTimer.wss_state_icon = m.wss_state_icon
      ∧ m.startTimer.wsStatus = m.wsStatus := by
    intro m
    unfold Manager.startTimer
    split <;> exact ⟨rfl, rfl⟩
  have hclear : ∀ m : Manager, m.clearUpdTimer.wss_state_icon = m.wss_state_icon
      ∧ m.clearUpdTimer.wsStatus = m.wsStatus := by
    intro m
    unfold Manager.clearUpdTimer
    split <;> exact ⟨rfl, rfl⟩
  unfold Manager.onclose
  dsimp only
  rw [(hclear _).1, (hclear _).2, (hstart _).1, (hstart _).2]
  refine ⟨rfl, ?_⟩
  split
  · nofun
  · assumption

theorem agrees_step {m m' : Manager} {e : Event} (ha : Attached m) (h : Agrees m)
    (hs : Step m e m') : Agrees m' := by
  cases step_effect ha hs with
  | created => exact h
  | retried _ => exact h
  | uploaded _ => exact h
  | opened _ => exact iff_of_true rfl rfl
  | @closed i _ _ _ =>
      obtain ⟨hicon, hstatus⟩ := onclose_shows (m.setReadyState i .closed)
      refine iff_of_false hstatus ?_
      rw [hicon]
      decide

/-- **What a step needs** to keep the icon right. -/
theorem iconRight_step {m m' : Manager} {e : Event} (hr : Retries m) (h : IconRight m)
    (hs : Step m e m') : IconRight m' ↔ KeepsIcon m e := by
  -- a new socket is not open, and the icon is what it was
  have hinit : IconRight m.initServer ↔ ¬ m.CurrentOpen := by
    rw [IconRight, iff_false_right (Manager.not_currentOpen_initServer m)]
    exact not_congr h
  cases step_effect hr.attached hs with
  | created => exact hinit
  | retried hget =>
      refine hinit.trans ?_
      exact ⟨fun hc _ => hc, fun hc => hc hget⟩
  | uploaded hget =>
      refine ⟨fun _ hc => ?_, fun _ => h⟩
      rw [hget] at hc
      cases hc
  | @opened i hi =>
      have hcur := Manager.currentOpen_congr (sockets_onopen (m.setReadyState i .opened))
        (socket_onopen (m.setReadyState i .opened))
      refine (iff_true_left rfl).trans (hcur.trans ?_)
      by_cases hc : m.socket = some i
      · exact iff_of_true ((Manager.currentOpen_setReadyState_self hc hi).mpr rfl) (Or.inl hc)
      · rw [Manager.currentOpen_setReadyState_ne _ hc]
        exact (or_iff_right hc).symm
  | @closed i r hi _ =>
      have hoff : ¬ (m.setReadyState i .closed).onclose.wss_state_icon = "signal_wifi_4_bar" := by
        rw [(onclose_shows _).1]
        decide
      have hcur := Manager.currentOpen_congr (onclose_sockets (m.setReadyState i .closed)).1
        (onclose_sockets (m.setReadyState i .closed)).2
      refine (iff_false_left hoff).trans ((not_congr hcur).trans ?_)
      by_cases hc : m.socket = some i
      · refine iff_of_true ?_ (Or.inl hc)
        rw [Manager.currentOpen_setReadyState_self hc hi]
        decide
      · rw [Manager.currentOpen_setReadyState_ne _ hc]
        exact (or_iff_right hc).symm

/--
**What the icon shows.** It agrees with `wsStatus` after every run. It is right about
the current socket throughout exactly the runs whose steps keep it so, and these are
all runs in which the uploads follow the connection, and more.
-/
theorem icon_iff {es : List Event} {m : Manager} (h : Lts.Run Step start es m) :
    Agrees m
      ∧ (Lts.Always Step IconRight start es ↔ Lts.Run (Lts.Guarded Step KeepsIcon) start es m)
      ∧ (Lts.Always Step UploadsWhileOpen start es → Lts.Always Step IconRight start es) := by
  have hagrees : Retries m ∧ Agrees m := by
    have hstart : Agrees start := iff_of_false (by decide) (by decide)
    refine h.invariant (I := fun m => Retries m ∧ Agrees m) ?_ ⟨retries_start, hstart⟩
    intro m e m' hex hs
    obtain ⟨hr, ha⟩ := hex
    exact ⟨retries_step hr hs, agrees_step hr.attached ha hs⟩
  have hright : IconRight start := by
    refine iff_of_false (by decide) ?_
    intro hex
    obtain ⟨i, hi, _⟩ := hex
    cases hi
  have hicon := Lts.always_iff_guarded (I := Retries) step_deterministic
    (fun hr _ _ hs => retries_step hr hs) iconRight_step h retries_start hright
  have huploads := Lts.always_iff_guarded (I := Tracked) step_deterministic tracked_step
    uploadsWhileOpen_step h tracked_start uploadsWhileOpen_start
  refine ⟨hagrees.2, hicon, ?_⟩
  intro ha
  exact hicon.mpr ((huploads.mp ha).mono fun hs => ⟨hs.1, hs.2.keepsIcon⟩)

/-- In `slowConnection` the first socket to open is not the current one. -/
theorem icon_iff_slowConnection :
    Lts.Always Step IconRight start slowConnection
      ↔ Lts.Run (Lts.Guarded Step KeepsIcon) start slowConnection
        (slowConnection.foldl handle start) :=
  (icon_iff run_slowConnection).2.1

end EssApp.Connection
