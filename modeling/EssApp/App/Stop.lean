import EssApp.App.Connection

/-!
# After `stopServer`

`stopServer` stops the retries, takes the `onclose` off the socket in
`private.socket` and closes that one. It knows of nothing else: an update interval
that is live stays live, and a socket that was dropped while it could still open or
close keeps its handlers and starts the intervals again.

So the stop is final exactly if there is nothing else to know of (`final_iff`): no
update interval is live, and every socket but the current one is closed. What makes
it final then is that no event is left that has a handler (`Silent`).
-/

namespace EssApp.Connection

/-- What `stopServer` does to the socket. -/
def Socket.close (s : Socket) : Socket where
  onclose := .ignore
  readyState := match s.readyState with
    | .connecting | .opened => .closing
    | r => r

/-- The steps of a run in which nobody calls `initServer` from outside. -/
def Later : Manager → Event → Manager → Prop :=
  Lts.Guarded Step fun _ e => e ≠ .initServer

/-- What a stop owes its user, of the state it leaves. -/
structure Final (m : Manager) : Prop where
  /-- No retry interval is live, -/
  retries : m.live .retry = []
  /-- nor an update interval, -/
  updates : m.live .update = []
  /-- and from now on no socket is created, no interval started and nothing sent. -/
  silent : ∀ (es : List Event) (m' : Manager), Lts.Run Later m es m' →
    m'.sockets.length = m.sockets.length ∧ m'.nextId = m.nextId ∧ m'.sent = m.sent

/-! ## What the stop leaves -/

theorem clearTimer_fields (m : Manager) :
    m.clearTimer.sockets = m.sockets ∧ m.clearTimer.socket = m.socket := by
  unfold Manager.clearTimer
  split <;> exact ⟨rfl, rfl⟩

/-- The status, the retries, the socket: in this order. -/
theorem stopServer_eq {m : Manager} {i : Nat} (hi : m.socket = some i) :
    m.stopServer
      = { ({ m with wsStatus := some .disconnected } : Manager).clearTimer with
          sockets := m.sockets.modify i Socket.close, socket := none } := by
  obtain ⟨hsockets, hsocket⟩ := clearTimer_fields { m with wsStatus := some .disconnected }
  unfold Manager.stopServer
  dsimp only
  split
  · rename_i hnone
    exact absurd (hnone.symm.trans (hsocket.trans hi)) (by simp)
  · rename_i j hj
    obtain rfl : j = i := Option.some.inj (hj.symm.trans (hsocket.trans hi))
    rw [hsockets]
    rfl

/-- **The stop, of a manager with a socket**: the retries are off and the socket is closed. -/
theorem stopServer_spec {m : Manager} {i : Nat} (h : Timers m) (hi : m.socket = some i) :
    m.stopServer.sockets = m.sockets.modify i Socket.close ∧ m.stopServer.timerId = none
      ∧ m.stopServer.live .retry = [] ∧ m.stopServer.live .update = m.live .update := by
  have h0 : Timers { m with wsStatus := some .disconnected } := h.frame rfl rfl rfl rfl
  obtain ⟨h1, hnone, hupd⟩ := h0.clearTimer
  rw [stopServer_eq hi]
  refine ⟨rfl, hnone, ?_, hupd⟩
  show ({ m with wsStatus := some .disconnected } : Manager).clearTimer.live .retry = []
  rw [h1.retries, hnone]
  rfl

/-! ## If there is nothing else -/

/-- Nothing is left that would do anything: no interval is live, and no socket has a handler. -/
structure Silent (m : Manager) : Prop where
  intervals : m.intervals = []
  /-- A socket that may still close is the one `stopServer` has closed. -/
  sockets : ∀ s ∈ m.sockets, s.readyState = .closed
    ∨ s.readyState = .closing ∧ s.onclose = .ignore

/-- **All that can happen in silence** is that the closed socket reports its close. -/
theorem silent_step {m m' : Manager} {e : Event} (h : Silent m) (hs : Later m e m') :
    ∃ i, m' = m.setReadyState i .closed := by
  obtain ⟨⟨hen, rfl⟩, hne⟩ := hs
  cases e with
  | initServer => exact absurd rfl hne
  | tick id =>
      obtain ⟨task, hget⟩ := hen
      rw [h.intervals] at hget
      cases hget
  | opened i =>
      obtain ⟨s, hs, hr⟩ := Option.map_eq_some_iff.mp hen
      rcases h.sockets s (List.mem_of_getElem? hs) with hc | ⟨hc, _⟩ <;> rw [hr] at hc <;> cases hc
  | closed i =>
      obtain ⟨r, hr, hrc⟩ := hen
      obtain ⟨s, hs, rfl⟩ := Option.map_eq_some_iff.mp hr
      have hignore := ((h.sockets s (List.mem_of_getElem? hs)).resolve_left hrc).2
      refine ⟨i, ?_⟩
      simp only [handle, hs, Option.map_some, hignore]

theorem silent_setReadyState {m : Manager} (h : Silent m) (i : Nat) :
    Silent (m.setReadyState i .closed) where
  intervals := h.intervals
  sockets := by
    refine Places.forall_mem_modify h.sockets ?_ i
    intro s _
    exact Or.inl rfl

/-- Silence lasts. -/
theorem silent_run {m m' : Manager} {es : List Event} (h : Silent m)
    (hrun : Lts.Run Later m es m') :
    m'.sockets.length = m.sockets.length ∧ m'.nextId = m.nextId ∧ m'.sent = m.sent := by
  refine hrun.preorder (I := Silent)
    (R := fun m m' => m'.sockets.length = m.sockets.length ∧ m'.nextId = m.nextId
      ∧ m'.sent = m.sent) (fun _ => ⟨rfl, rfl, rfl⟩) ?_ ?_ ?_ h
  · rintro m₁ m₂ m₃ ⟨h1, h2, h3⟩ ⟨h1', h2', h3'⟩
    exact ⟨h1'.trans h1, h2'.trans h2, h3'.trans h3⟩
  · intro m₁ e m₂ hm hs
    obtain ⟨i, rfl⟩ := silent_step hm hs
    exact silent_setReadyState hm i
  · intro m₁ e m₂ hm hs
    obtain ⟨i, rfl⟩ := silent_step hm hs
    exact ⟨List.length_modify _ _ _, rfl, rfl⟩

/-- Before the stop nobody closes a socket but its peer. -/
def NoneClosing (m : Manager) : Prop := ∀ s ∈ m.sockets, s.readyState ≠ .closing

theorem noneClosing_step {m m' : Manager} {e : Event} (ha : Attached m) (h : NoneClosing m)
    (hs : Step m e m') : NoneClosing m' := by
  refine forall_sockets_step ha (by decide) ?_ h hs
  intro s _
  exact ⟨by simp, by simp⟩

theorem noneClosing_run {m : Manager} {es : List Event} (h : Lts.Run Step start es m) :
    NoneClosing m := by
  refine (h.invariant (I := fun m => Retries m ∧ NoneClosing m) ?_
    ⟨retries_start, by simp [NoneClosing, start]⟩).2
  rintro m e m' ⟨hr, hc⟩ hs
  exact ⟨retries_step hr hs, noneClosing_step hr.attached hc hs⟩

theorem silent_stopServer {m : Manager} {i : Nat} (ht : Timers m) (hc : NoneClosing m)
    (hi : m.socket = some i) (hupd : m.live .update = [])
    (hothers : ∀ j, m.Pending j → m.socket = some j) : Silent m.stopServer := by
  obtain ⟨hsockets, _, hretry, hlive⟩ := stopServer_spec ht hi
  constructor
  · refine List.eq_nil_iff_forall_not_mem.mpr ?_
    rintro ⟨id, task⟩ hmem
    have hid := Manager.mem_live.mpr hmem
    cases task with
    | retry =>
        rw [hretry] at hid
        cases hid
    | update =>
        rw [hlive, hupd] at hid
        cases hid
  · intro s hs
    rw [hsockets] at hs
    obtain ⟨j, hj⟩ := List.mem_iff_getElem?.mp hs
    rw [List.getElem?_modify] at hj
    obtain ⟨s₀, hs₀, rfl⟩ := Option.map_eq_some_iff.mp hj
    have hnot := hc s₀ (List.mem_of_getElem? hs₀)
    by_cases hij : i = j
    · -- the current socket: closed, or closing without a handler
      rw [if_pos hij]
      cases hr : s₀.readyState with
      | connecting => exact Or.inr ⟨by rw [Socket.close, hr], rfl⟩
      | opened => exact Or.inr ⟨by rw [Socket.close, hr], rfl⟩
      | closing => exact absurd hr hnot
      | closed => exact Or.inl (by rw [Socket.close, hr])
    · -- any other: it is not to open or close any more
      rw [if_neg hij]
      have hpending : ¬ m.Pending j := fun h => hij (Option.some.inj (hi.symm.trans (hothers j h)))
      have hread : m.readyState j = some s₀.readyState := by rw [Manager.readyState, hs₀]; rfl
      rw [Manager.Pending, hread] at hpending
      cases hr : s₀.readyState with
      | connecting => exact absurd (Or.inl (by rw [hr])) hpending
      | opened => exact absurd (Or.inr (by rw [hr])) hpending
      | closing => exact absurd hr hnot
      | closed => exact Or.inl rfl

/-! ## If there is something else -/

/-- With no retry interval on, a close starts one. -/
theorem nextId_onclose {m : Manager} (h : m.timerId = none) :
    m.onclose.nextId = m.nextId + 1 := by
  have hclear : ∀ m : Manager, m.clearUpdTimer.nextId = m.nextId := by
    intro m
    unfold Manager.clearUpdTimer
    split <;> rfl
  have hstart : ∀ m : Manager, m.timerId = none → m.startTimer.nextId = m.nextId + 1 := by
    intro m hm
    rw [Manager.startTimer, hm]
    rfl
  unfold Manager.onclose
  dsimp only
  rw [hclear, hstart _ (by split <;> exact h)]
  split <;> rfl

/-- **A socket that `stopServer` does not know of** starts the retries when it closes. -/
theorem not_final_of_pending {m : Manager} {i j : Nat} (hr : Retries m) (hi : m.socket = some i)
    (hj : m.Pending j) (hne : i ≠ j) : ¬ Final m.stopServer := by
  intro hf
  obtain ⟨hsockets, htimer, _, _⟩ := stopServer_spec hr.timers hi
  obtain ⟨r, hread, hrc⟩ : ∃ r, m.readyState j = some r ∧ r ≠ .closed := by
    rcases hj with h | h
    · exact ⟨_, h, by decide⟩
    · exact ⟨_, h, by decide⟩
  obtain ⟨s, hs, rfl⟩ := Option.map_eq_some_iff.mp hread
  -- the stop has left it as it was
  have hs' : m.stopServer.sockets[j]? = some s := by
    rw [hsockets, List.getElem?_modify, hs]
    exact congrArg some (if_neg hne)
  have hhandle : handle m.stopServer (.closed j)
      = (m.stopServer.setReadyState j .closed).onclose := by
    simp only [handle, hs', Option.map_some, hr.attached s (List.mem_of_getElem? hs)]
  have hstep : Later m.stopServer (.closed j) (m.stopServer.setReadyState j .closed).onclose := by
    refine ⟨⟨⟨s.readyState, ?_, hrc⟩, hhandle.symm⟩, by rintro ⟨⟩⟩
    rw [Manager.readyState, hs']
    rfl
  obtain ⟨_, hid, _⟩ := hf.silent _ _ (.single hstep)
  have hset : (m.stopServer.setReadyState j .closed).timerId = none := htimer
  rw [nextId_onclose hset] at hid
  exact absurd hid (Nat.succ_ne_self _)

/-! ## The account -/

/--
**When `stopServer` is final.** In every state the manager can reach, with a socket in
`private.socket`: the stop is final exactly if no update interval is live and no other
socket may still open or close.
-/
theorem final_iff {es : List Event} {m : Manager} (h : Lts.Run Step start es m)
    (hs : m.socket ≠ none) :
    Final m.stopServer
      ↔ m.live .update = [] ∧ ∀ j, m.Pending j → m.socket = some j := by
  have hr := retries_run h
  obtain ⟨i, hi⟩ := Option.ne_none_iff_exists'.mp hs
  obtain ⟨_, _, hretry, hlive⟩ := stopServer_spec hr.timers hi
  constructor
  · intro hf
    refine ⟨hlive ▸ hf.updates, ?_⟩
    intro j hj
    by_contra hc
    exact not_final_of_pending hr hi hj (fun hij => hc (hij ▸ hi)) hf
  · rintro ⟨hupd, hothers⟩
    have hsilent := silent_stopServer hr.timers (noneClosing_run h) hi hupd hothers
    exact ⟨hretry, hlive.trans hupd, fun _ _ hrun => silent_run hsilent hrun⟩

/-- Before the first connection stands there is nothing else. -/
theorem final_of_connecting : Final (handle start .initServer).stopServer := by
  have h : Lts.Run Step start [.initServer] (handle start .initServer) :=
    .single ⟨trivial, rfl⟩
  refine (final_iff h (by decide)).mpr ⟨rfl, ?_⟩
  intro j hj
  cases j with
  | zero => rfl
  | succ j => rcases hj with hj | hj <;> cases hj

/-- The app connects, once and at once. -/
def connects : List Event := [.initServer, .opened 0]

/--
**The code does not keep this**: the update interval of the connection that is stopped
stays live.
-/
theorem connects_keeps_uploading :
    Lts.Run Step start connects (connects.foldl handle start)
      ∧ (connects.foldl handle start).socket = some 0
      ∧ (connects.foldl handle start).stopServer.live .update = [1]
      ∧ ¬ Final (connects.foldl handle start).stopServer := by
  refine ⟨.cons ⟨trivial, rfl⟩ (.cons ⟨rfl, rfl⟩ .nil), rfl, rfl, ?_⟩
  intro h
  have hnil : [1] = [] := h.updates
  cases hnil

end EssApp.Connection
