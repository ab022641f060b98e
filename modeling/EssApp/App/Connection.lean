import EssApp.Lib.Places
import EssApp.Lib.Run
import EssApp.Lib.Table

/-!
# The app's connection to the Witness Unit

`initServer` opens a socket and hangs three handlers on it. Opening starts the
update interval and stops the retry interval; closing does the opposite; a tick of
the retry interval drops the socket and calls `initServer` again. The handlers of
every socket ever created share the same four variables, and a dropped socket keeps
its handlers, so its events can still arrive, in any order with those of the others.

What holds no matter how they interleave is the retry side, `Retries`: `timerId` is
set exactly while a retry interval is live and names it, and once `initServer` has
been called there is always either a socket that may still open or close, or a
retry interval to make a new one.
-/

namespace EssApp.Connection

inductive ReadyState where
  | connecting
  | opened
  | closing
  | closed
  deriving DecidableEq, Repr

/-- What `socket.onclose` is: the handler of `initServer`, or the empty one of `stopServer`. -/
inductive OnClose where
  | reconnect
  | ignore
  deriving DecidableEq, Repr

structure Socket where
  readyState : ReadyState := .connecting
  onclose : OnClose := .reconnect
  deriving DecidableEq, Repr

/-- What the callback of an interval does. -/
inductive Task where
  | retry
  | update
  deriving DecidableEq, Repr

inductive WsStatus where
  | connected
  | connecting
  | disconnected
  deriving DecidableEq, Repr

structure Manager where
  /-- Every socket created, dropped ones included. -/
  sockets : List Socket := []
  /-- `private.socket`, by its place among them. -/
  socket : Option Nat := none
  timerId : Option Nat := none
  updTimerId : Option Nat := none
  wsStatus : Option WsStatus := none
  /-- The state icon in the toolbar. -/
  wss_state_icon : String := "signal_wifi_off"
  /-- The intervals that were set and not cleared. -/
  intervals : List (Nat × Task) := []
  /-- What `setInterval` answers next. It is never zero, so an id counts as true. -/
  nextId : Nat := 1
  /-- The socket of each upload. -/
  sent : List Nat := []
  deriving DecidableEq, Repr

namespace Manager

def setInterval (m : Manager) (task : Task) : Nat × Manager :=
  (m.nextId, { m with intervals := m.intervals ++ [(m.nextId, task)], nextId := m.nextId + 1 })

def clearInterval (m : Manager) (id : Nat) : Manager :=
  { m with intervals := m.intervals.filter fun t => t.1 ≠ id }

def readyState (m : Manager) (i : Nat) : Option ReadyState :=
  (m.sockets[i]?).map Socket.readyState

def setReadyState (m : Manager) (i : Nat) (r : ReadyState) : Manager :=
  { m with sockets := m.sockets.modify i fun s => { s with readyState := r } }

/-- `if (private.timerId) { clearInterval(private.timerId); private.timerId = null }`. -/
def clearTimer (m : Manager) : Manager :=
  match m.timerId with
  | some id => { m.clearInterval id with timerId := none }
  | none => m

/-- `if (!private.timerId) { private.timerId = setInterval(…) }`. -/
def startTimer (m : Manager) : Manager :=
  match m.timerId with
  | none =>
      let (id, m) := m.setInterval .retry
      { m with timerId := some id }
  | some _ => m

/-- `if (private.updTimerId) { clearInterval(private.updTimerId); … = null }`. -/
def clearUpdTimer (m : Manager) : Manager :=
  match m.updTimerId with
  | some id => { m.clearInterval id with updTimerId := none }
  | none => m

def initServer (m : Manager) : Manager :=
  { m with sockets := m.sockets ++ [{}], socket := some m.sockets.length }

/-- `private.socket.onopen`, the same on every socket. -/
def onopen (m : Manager) : Manager :=
  let m := m.clearTimer
  let m := { m with wsStatus := some .connected, wss_state_icon := "signal_wifi_4_bar" }
  let (id, m) := m.setInterval .update
  { m with updTimerId := some id }

/-- `private.socket.onclose`, the same on every socket. -/
def onclose (m : Manager) : Manager :=
  let m := if m.wsStatus = some .connected then { m with wsStatus := some .connecting } else m
  { m with wss_state_icon := "signal_wifi_off" }.startTimer.clearUpdTimer

/-- The callback of the retry interval. The socket it drops is neither closed nor detached. -/
def retry (m : Manager) : Manager := initServer { m with socket := none }

/-- The callback of the update interval. -/
def upload (m : Manager) : Manager :=
  match m.socket with
  -- `send` of `null`
  | none => m
  | some i =>
      match m.readyState i with
      | some .opened => { m with sent := m.sent ++ [i] }
      -- `send` throws while the socket connects, and discards once it closes
      | _ => m

def stopServer (m : Manager) : Manager :=
  let m := { m with wsStatus := some .disconnected }.clearTimer
  match m.socket with
  -- `onclose` of `null`
  | none => m
  | some i =>
      let close (s : Socket) : Socket :=
        { onclose := .ignore,
          readyState := match s.readyState with
            | .connecting | .opened => .closing
            | r => r }
      { m with sockets := m.sockets.modify i close, socket := none }

end Manager

/-- What can happen while `stopServer` is not called. -/
inductive Event where
  | initServer
  | tick (id : Nat)
  | opened (i : Nat)
  | closed (i : Nat)
  deriving DecidableEq, Repr

def handle (m : Manager) : Event → Manager
  | .initServer => m.initServer
  | .tick id =>
      match Table.get m.intervals id with
      | some .retry => m.retry
      | some .update => m.upload
      | none => m
  | .opened i => (m.setReadyState i .opened).onopen
  | .closed i =>
      let m' := m.setReadyState i .closed
      match (m.sockets[i]?).map Socket.onclose with
      | some .reconnect => m'.onclose
      | _ => m'

/-- Live intervals tick; a socket opens once, while it connects, and closes once. -/
def Enabled (m : Manager) : Event → Prop
  | .initServer => True
  | .tick id => ∃ task, Table.get m.intervals id = some task
  | .opened i => m.readyState i = some .connecting
  | .closed i => ∃ r, m.readyState i = some r ∧ r ≠ .closed

def Step (m : Manager) (e : Event) (m' : Manager) : Prop := Enabled m e ∧ m' = handle m e

/-- The app before it first connects. -/
def start : Manager := {}

theorem step_deterministic (m : Manager) (e : Event) (m₁ m₂ : Manager) (h₁ : Step m e m₁)
    (h₂ : Step m e m₂) : m₁ = m₂ := by
  rw [h₁.2, h₂.2]

namespace Manager

/-- The live intervals of one kind, by id. -/
def live (m : Manager) (task : Task) : List Nat :=
  (m.intervals.filter fun t => t.2 = task).map Prod.fst

/-- The socket at `i` may still open or close. -/
def Pending (m : Manager) (i : Nat) : Prop :=
  m.readyState i = some .connecting ∨ m.readyState i = some .opened

/-! ## What each operation does to the intervals -/

theorem mem_live {m : Manager} {task : Task} {id : Nat} :
    id ∈ m.live task ↔ (id, task) ∈ m.intervals := by
  rw [live, List.mem_map]
  constructor
  · rintro ⟨t, ht, rfl⟩
    obtain ⟨hmem, htask⟩ := List.mem_filter.mp ht
    rw [← of_decide_eq_true htask]
    exact hmem
  · intro h
    exact ⟨(id, task), List.mem_filter.mpr ⟨h, decide_eq_true rfl⟩, rfl⟩

theorem live_setInterval_self (m : Manager) (task : Task) :
    (m.setInterval task).2.live task = m.live task ++ [m.nextId] := by
  simp [live, setInterval, List.filter_append]

theorem live_setInterval_ne (m : Manager) {task task' : Task} (h : task' ≠ task) :
    (m.setInterval task').2.live task = m.live task := by
  simp [live, setInterval, List.filter_append, h]

theorem live_clearInterval (m : Manager) (id : Nat) (task : Task) :
    (m.clearInterval id).live task = (m.live task).filter fun j => j ≠ id := by
  rw [live, clearInterval, live, List.filter_map, List.filter_filter, List.filter_filter]
  congr 1
  refine List.filter_congr ?_
  intro t _
  exact Bool.and_comm _ _

/-- Clearing an id that is not live changes nothing. -/
theorem live_clearInterval_of_not_mem {m : Manager} {id : Nat} {task : Task}
    (h : id ∉ m.live task) : (m.clearInterval id).live task = m.live task := by
  rw [live_clearInterval, List.filter_eq_self]
  intro j hj
  refine decide_eq_true ?_
  intro he
  exact h (he ▸ hj)

theorem readyState_setReadyState (m : Manager) (i j : Nat) (r : ReadyState) :
    (m.setReadyState i r).readyState j
      = (m.readyState j).map fun r' => if i = j then r else r' := by
  rw [readyState, setReadyState, List.getElem?_modify, readyState, Option.map_eq_map,
    Option.map_map, Option.map_map]
  congr 1
  funext s
  simp only [Function.comp_apply]
  split <;> rfl

end Manager

/-! ## The timer variables -/

/--
The timer variables and the live intervals. It says nothing of how many update
intervals there are: `updTimerId` names one of them, and the others, if any, are lost.
-/
structure Timers (m : Manager) : Prop where
  /-- `timerId` is the only retry interval. -/
  retries : m.live .retry = m.timerId.toList
  /-- What `updTimerId` names is live. -/
  updates : ∀ id, m.updTimerId = some id → id ∈ m.live .update
  /-- Ids are given out once. -/
  fresh : ∀ t ∈ m.intervals, t.1 < m.nextId
  /-- No id is of both kinds. -/
  apart : ∀ id ∈ m.live .retry, id ∉ m.live .update

namespace Timers

variable {m : Manager}

theorem lt_of_mem (h : Timers m) {task : Task} {id : Nat} (hid : id ∈ m.live task) :
    id < m.nextId :=
  h.fresh (id, task) (Manager.mem_live.mp hid)

theorem nextId_not_mem (h : Timers m) (task : Task) : m.nextId ∉ m.live task := by
  intro hc
  exact Nat.lt_irrefl _ (h.lt_of_mem hc)

/-- Clearing intervals makes no id look unused. -/
theorem fresh_clearInterval (h : Timers m) (id : Nat) :
    ∀ t ∈ (m.clearInterval id).intervals, t.1 < m.nextId := by
  intro t ht
  exact h.fresh t (List.mem_of_mem_filter ht)

theorem fresh_setInterval (h : Timers m) (task : Task) :
    ∀ t ∈ (m.setInterval task).2.intervals, t.1 < (m.setInterval task).2.nextId := by
  intro t ht
  show t.1 < m.nextId + 1
  rcases List.mem_append.mp ht with ht | ht
  · exact Nat.lt_succ_of_lt (h.fresh t ht)
  · rw [List.mem_singleton.mp ht]
    exact Nat.lt_succ_self _

/-- **Stopping the retries** leaves the updates alone. -/
theorem clearTimer (h : Timers m) :
    Timers m.clearTimer ∧ m.clearTimer.timerId = none
      ∧ m.clearTimer.live .update = m.live .update := by
  unfold Manager.clearTimer
  cases ht : m.timerId with
  | none => exact ⟨h, ht, rfl⟩
  | some id =>
      have hretry : m.live .retry = [id] := by rw [h.retries, ht]; rfl
      have hid : id ∉ m.live .update := by
        refine h.apart id ?_
        rw [hretry]
        exact List.mem_singleton_self id
      have hupd : (m.clearInterval id).live .update = m.live .update :=
        Manager.live_clearInterval_of_not_mem hid
      have hnone : (m.clearInterval id).live .retry = [] := by
        rw [Manager.live_clearInterval, hretry]
        simp
      refine ⟨⟨hnone, ?_, h.fresh_clearInterval id, ?_⟩, rfl, hupd⟩
      · intro u hu
        show u ∈ (m.clearInterval id).live .update
        rw [hupd]
        exact h.updates u hu
      · intro r hr
        have hr' : r ∈ (m.clearInterval id).live .retry := hr
        rw [hnone] at hr'
        exact absurd hr' List.not_mem_nil

/-- **Starting the retries** does nothing if they are on, and leaves the updates alone. -/
theorem startTimer (h : Timers m) :
    Timers m.startTimer ∧ m.startTimer.timerId.isSome
      ∧ m.startTimer.live .update = m.live .update ∧ m.startTimer.updTimerId = m.updTimerId := by
  unfold Manager.startTimer
  cases ht : m.timerId with
  | some id => exact ⟨h, by rw [ht]; rfl, rfl, rfl⟩
  | none =>
      have hretry : (m.setInterval .retry).2.live .retry = [m.nextId] := by
        rw [Manager.live_setInterval_self, h.retries, ht]
        rfl
      have hupd : (m.setInterval .retry).2.live .update = m.live .update :=
        Manager.live_setInterval_ne m (by decide)
      refine ⟨⟨hretry, ?_, h.fresh_setInterval .retry, ?_⟩, rfl, hupd, rfl⟩
      · intro u hu
        show u ∈ (m.setInterval .retry).2.live .update
        rw [hupd]
        exact h.updates u hu
      · intro r hr
        have hr' : r ∈ (m.setInterval .retry).2.live .retry := hr
        rw [hretry] at hr'
        show r ∉ (m.setInterval .retry).2.live .update
        rw [hupd, List.mem_singleton.mp hr']
        exact h.nextId_not_mem .update

/-- **Stopping the updates** stops the one `updTimerId` names, and leaves the retries alone. -/
theorem clearUpdTimer (h : Timers m) :
    Timers m.clearUpdTimer ∧ m.clearUpdTimer.timerId = m.timerId
      ∧ m.clearUpdTimer.updTimerId = none
      ∧ m.clearUpdTimer.live .update
          = (m.live .update).filter fun j => some j ≠ m.updTimerId := by
  unfold Manager.clearUpdTimer
  cases hu : m.updTimerId with
  | none =>
      refine ⟨h, rfl, hu, ?_⟩
      rw [List.filter_eq_self.mpr]
      intro j _
      rfl
  | some id =>
      have hid : id ∉ m.live .retry := fun hc => h.apart id hc (h.updates id hu)
      have hretry : (m.clearInterval id).live .retry = m.live .retry :=
        Manager.live_clearInterval_of_not_mem hid
      refine ⟨⟨hretry.trans h.retries, ?_, h.fresh_clearInterval id, ?_⟩, rfl, rfl, ?_⟩
      · intro u hc
        cases hc
      · intro r hr hc
        have hr' : r ∈ (m.clearInterval id).live .retry := hr
        have hc' : r ∈ (m.clearInterval id).live .update := hc
        rw [hretry] at hr'
        rw [Manager.live_clearInterval] at hc'
        exact h.apart r hr' (List.mem_of_mem_filter hc')
      · show (m.clearInterval id).live .update = _
        rw [Manager.live_clearInterval]
        simp

/-- Only the timer fields matter. -/
theorem frame (h : Timers m) {m' : Manager} (hi : m'.intervals = m.intervals)
    (ht : m'.timerId = m.timerId) (hu : m'.updTimerId = m.updTimerId)
    (hn : m'.nextId = m.nextId) : Timers m' := by
  have hlive : ∀ task, m'.live task = m.live task := by
    intro task
    rw [Manager.live, hi]
    rfl
  constructor
  · rw [hlive, ht]
    exact h.retries
  · rw [hlive, hu]
    exact h.updates
  · rw [hi, hn]
    exact h.fresh
  · rw [hlive, hlive]
    exact h.apart

theorem setReadyState (h : Timers m) (i : Nat) (r : ReadyState) : Timers (m.setReadyState i r) :=
  h.frame rfl rfl rfl rfl

end Timers

theorem nextId_clearTimer (m : Manager) : m.clearTimer.nextId = m.nextId := by
  unfold Manager.clearTimer
  split <;> rfl

/-- **A socket opens**: the retries stop, and an update interval is added. -/
theorem onopen_spec {m : Manager} (h : Timers m) :
    Timers m.onopen ∧ m.onopen.timerId = none ∧ m.onopen.updTimerId = some m.nextId
      ∧ m.onopen.live .update = m.live .update ++ [m.nextId] := by
  obtain ⟨h1, hnone, hupd⟩ := h.clearTimer
  have hupd' : m.onopen.live .update = m.live .update ++ [m.nextId] := by
    rw [← hupd, ← nextId_clearTimer]
    exact Manager.live_setInterval_self m.clearTimer .update
  have hretry : m.onopen.live .retry = [] := by
    have hsame : m.onopen.live .retry = m.clearTimer.live .retry :=
      Manager.live_setInterval_ne m.clearTimer (by decide)
    rw [hsame, h1.retries, hnone]
    rfl
  have hid : m.onopen.updTimerId = some m.nextId := by
    rw [← nextId_clearTimer]
    rfl
  refine ⟨⟨?_, ?_, h1.fresh_setInterval .update, ?_⟩, hnone, hid, hupd'⟩
  · rw [hretry]
    exact (congrArg Option.toList hnone).symm
  · intro u hu
    rw [hid] at hu
    rw [hupd', ← Option.some.inj hu]
    exact List.mem_append_right _ (List.mem_singleton_self _)
  · rw [hretry]
    intro r hr
    exact absurd hr List.not_mem_nil

/-- **A socket closes**: the retries are on, and the update interval that is named stops. -/
theorem onclose_spec {m : Manager} (h : Timers m) :
    Timers m.onclose ∧ m.onclose.timerId.isSome ∧ m.onclose.updTimerId = none
      ∧ m.onclose.live .update = (m.live .update).filter fun j => some j ≠ m.updTimerId := by
  -- the status and the icon are no timers
  have h0 : ∀ (st : Option WsStatus) (icon : String),
      Timers { m with wsStatus := st, wss_state_icon := icon } :=
    fun _ _ => h.frame rfl rfl rfl rfl
  have key : ∀ m₀ : Manager, Timers m₀ → m₀.live .update = m.live .update →
      m₀.updTimerId = m.updTimerId →
      Timers m₀.startTimer.clearUpdTimer ∧ m₀.startTimer.clearUpdTimer.timerId.isSome
        ∧ m₀.startTimer.clearUpdTimer.updTimerId = none
        ∧ m₀.startTimer.clearUpdTimer.live .update
            = (m.live .update).filter fun j => some j ≠ m.updTimerId := by
    intro m₀ hm₀ hlive hupd
    obtain ⟨h1, hsome, hlive1, hupd1⟩ := hm₀.startTimer
    obtain ⟨h2, htimer, hnone, hlive2⟩ := h1.clearUpdTimer
    refine ⟨h2, htimer ▸ hsome, hnone, ?_⟩
    rw [hlive2, hlive1, hupd1, hlive, hupd]
  unfold Manager.onclose
  split
  · exact key _ (h0 _ _) rfl rfl
  · exact key _ (h0 m.wsStatus _) rfl rfl

/-! ## What they leave alone -/

@[simp] theorem sockets_onopen (m : Manager) : m.onopen.sockets = m.sockets := by
  simp only [Manager.onopen, Manager.clearTimer, Manager.setInterval]
  split <;> rfl

@[simp] theorem socket_onopen (m : Manager) : m.onopen.socket = m.socket := by
  simp only [Manager.onopen, Manager.clearTimer, Manager.setInterval]
  split <;> rfl

theorem startTimer_sockets (m : Manager) :
    m.startTimer.sockets = m.sockets ∧ m.startTimer.socket = m.socket := by
  unfold Manager.startTimer
  split <;> exact ⟨rfl, rfl⟩

theorem clearUpdTimer_sockets (m : Manager) :
    m.clearUpdTimer.sockets = m.sockets ∧ m.clearUpdTimer.socket = m.socket := by
  unfold Manager.clearUpdTimer
  split <;> exact ⟨rfl, rfl⟩

theorem onclose_sockets (m : Manager) :
    m.onclose.sockets = m.sockets ∧ m.onclose.socket = m.socket := by
  unfold Manager.onclose
  dsimp only
  rw [(clearUpdTimer_sockets _).1, (clearUpdTimer_sockets _).2, (startTimer_sockets _).1,
    (startTimer_sockets _).2]
  split <;> exact ⟨rfl, rfl⟩

theorem upload_eq (m : Manager) : ∃ sent, m.upload = { m with sent := sent } := by
  unfold Manager.upload
  split
  · exact ⟨m.sent, rfl⟩
  · split
    · exact ⟨_, rfl⟩
    · exact ⟨m.sent, rfl⟩

/-! ## What a step does -/

/-- Every socket has the handler `initServer` gave it. -/
def Attached (m : Manager) : Prop := ∀ s ∈ m.sockets, s.onclose = .reconnect

/-- **Everything a step can do**, as long as `stopServer` was not called. -/
inductive Effect (m : Manager) : Event → Manager → Prop where
  | created : Effect m .initServer m.initServer
  | retried {id : Nat} : Table.get m.intervals id = some .retry → Effect m (.tick id) m.initServer
  | uploaded {id : Nat} {sent : List Nat} : Table.get m.intervals id = some .update →
      Effect m (.tick id) { m with sent := sent }
  | opened {i : Nat} : m.readyState i = some .connecting →
      Effect m (.opened i) (m.setReadyState i .opened).onopen
  | closed {i : Nat} {r : ReadyState} : m.readyState i = some r → r ≠ .closed →
      Effect m (.closed i) (m.setReadyState i .closed).onclose

theorem step_effect {m m' : Manager} {e : Event} (ha : Attached m) (h : Step m e m') :
    Effect m e m' := by
  obtain ⟨hen, rfl⟩ := h
  cases e with
  | initServer => exact .created
  | tick id =>
      obtain ⟨task, hget⟩ := hen
      cases task with
      | retry =>
          rw [handle, hget]
          exact .retried hget
      | update =>
          rw [handle, hget]
          obtain ⟨sent, hs⟩ := upload_eq m
          simp only [hs]
          exact .uploaded hget
  | opened i => exact .opened hen
  | closed i =>
      obtain ⟨r, hr, hne⟩ := hen
      obtain ⟨s, hs, _⟩ := Option.map_eq_some_iff.mp hr
      simp only [handle, hs, Option.map_some, ha s (List.mem_of_getElem? hs)]
      exact .closed hr hne

/--
**What holds of every socket.** A step only adds a new one, or sets the state of one to
open or closed.
-/
theorem forall_sockets_step {P : Socket → Prop} {m m' : Manager} {e : Event} (ha : Attached m)
    (hnew : P {}) (hset : ∀ s, P s → P { s with readyState := .opened }
      ∧ P { s with readyState := .closed })
    (h : ∀ s ∈ m.sockets, P s) (hs : Step m e m') : ∀ s ∈ m'.sockets, P s := by
  have hinit : ∀ s ∈ m.initServer.sockets, P s := Places.forall_mem_concat h hnew
  cases step_effect ha hs with
  | created => exact hinit
  | retried _ => exact hinit
  | uploaded _ => exact h
  | @opened i _ =>
      rw [sockets_onopen]
      exact Places.forall_mem_modify h (fun s hP => (hset s hP).1) i
  | @closed i _ _ _ =>
      rw [(onclose_sockets _).1]
      exact Places.forall_mem_modify h (fun s hP => (hset s hP).2) i

theorem attached_step {m m' : Manager} {e : Event} (h : Attached m) (hs : Step m e m') :
    Attached m' :=
  forall_sockets_step h rfl (fun _ hP => ⟨hP, hP⟩) h hs

/-! ## The retries, whatever happens -/

/-- The invariant of every run. -/
structure Retries (m : Manager) : Prop where
  /-- The timer variables name what is live. -/
  timers : Timers m
  /-- No socket was detached. -/
  attached : Attached m
  /-- Some socket has an event to come, or the retry interval does. -/
  hope : m.sockets ≠ [] → m.timerId.isSome ∨ ∃ i, m.Pending i

theorem retries_start : Retries start where
  timers := { retries := rfl
              updates := fun _ h => absurd h (by simp [start])
              fresh := by simp [start]
              apart := by simp [start, Manager.live] }
  attached := by simp [Attached, start]
  hope := fun h => absurd rfl h

/-- A new socket is connecting. -/
theorem pending_initServer (m : Manager) : m.initServer.Pending m.sockets.length := by
  refine Or.inl ?_
  rw [Manager.readyState, Manager.initServer, List.getElem?_concat_length]
  rfl

/-- **The retry invariant is preserved by every step.** -/
theorem retries_step {m m' : Manager} {e : Event} (h : Retries m) (hs : Step m e m') :
    Retries m' := by
  have ha : Attached m' := attached_step h.attached hs
  have hinit : Timers m.initServer := h.timers.frame rfl rfl rfl rfl
  cases step_effect h.attached hs with
  | created => exact ⟨hinit, ha, fun _ => Or.inr ⟨_, pending_initServer m⟩⟩
  | retried _ => exact ⟨hinit, ha, fun _ => Or.inr ⟨_, pending_initServer m⟩⟩
  | uploaded _ => exact ⟨h.timers.frame rfl rfl rfl rfl, ha, h.hope⟩
  | @opened i hi =>
      refine ⟨(onopen_spec (h.timers.setReadyState i .opened)).1, ha, ?_⟩
      -- the retries stop, but this socket will close
      intro _
      refine Or.inr ⟨i, Or.inr ?_⟩
      rw [Manager.readyState, sockets_onopen]
      show (m.setReadyState i .opened).readyState i = _
      rw [Manager.readyState_setReadyState, hi, Option.map_some, if_pos rfl]
  | @closed i r hi hne =>
      obtain ⟨h1, hsome, _, _⟩ := onclose_spec (h.timers.setReadyState i .closed)
      exact ⟨h1, ha, fun _ => Or.inl hsome⟩

theorem retries_run {m : Manager} {es : List Event} (h : Lts.Run Step start es m) : Retries m :=
  h.invariant (I := Retries) retries_step retries_start

/-- Sockets are never forgotten. -/
theorem sockets_ne_nil_step {m m' : Manager} {e : Event} (ha : Attached m) (hs : Step m e m')
    (h : m.sockets ≠ [] ∨ e = .initServer) : m'.sockets ≠ [] := by
  have hset : ∀ (i : Nat) (r : ReadyState), m.sockets ≠ [] →
      (m.setReadyState i r).sockets ≠ [] := by
    intro i r hne hc
    exact hne (List.modify_eq_nil_iff.mp hc)
  cases step_effect ha hs with
  | created => exact List.append_ne_nil_of_right_ne_nil _ (List.cons_ne_nil _ _)
  | retried _ => exact List.append_ne_nil_of_right_ne_nil _ (List.cons_ne_nil _ _)
  | uploaded _ => exact h.resolve_right (by rintro ⟨⟩)
  | opened _ =>
      rw [sockets_onopen]
      exact hset _ _ (h.resolve_right (by rintro ⟨⟩))
  | closed _ _ =>
      rw [(onclose_sockets _).1]
      exact hset _ _ (h.resolve_right (by rintro ⟨⟩))

theorem sockets_ne_nil_run {m : Manager} {es : List Event} (h : Lts.Run Step start es m)
    (hc : .initServer ∈ es) : m.sockets ≠ [] := by
  refine h.history (I := fun as s => Event.initServer ∈ as → s.sockets ≠ []) ?_ ?_ hc
  · intro as s a t hr hi hst hmem
    refine sockets_ne_nil_step (retries_run hr).attached hst ?_
    rcases List.mem_append.mp hmem with h' | h'
    · exact Or.inl (hi h')
    · exact Or.inr (List.mem_singleton.mp h').symm
  · intro hmem
    exact absurd hmem List.not_mem_nil

/-- What the connection manager owes its user: it keeps trying, with one timer. -/
structure Reconnecting (m : Manager) : Prop where
  /-- At most one retry interval is live. -/
  once : (m.live .retry).length ≤ 1
  /-- `timerId` is non-null exactly when one is. -/
  set_iff : m.timerId ≠ none ↔ m.live .retry ≠ []
  /-- It names the one that is live. -/
  named : ∀ id, m.timerId = some id → m.live .retry = [id]
  /-- With no socket left that could open or close, one is live. -/
  trying : (∀ i, ¬ m.Pending i) → (m.live .retry).length = 1

/--
**The app never gives up and never multiplies its retries.** From the first call of
`initServer` on, in every state a run can reach.
-/
theorem reconnecting_run {es : List Event} {m : Manager} (h : Lts.Run Step start es m)
    (hc : .initServer ∈ es) : Reconnecting m := by
  have hr := retries_run h
  have hlive := hr.timers.retries
  constructor
  · rw [hlive]
    cases m.timerId <;> simp
  · rw [hlive]
    cases m.timerId <;> simp
  · intro id hid
    rw [hlive, hid]
    rfl
  · intro hdead
    rcases hr.hope (sockets_ne_nil_run h hc) with hsome | ⟨i, hi⟩
    · obtain ⟨id, hid⟩ := Option.isSome_iff_exists.mp hsome
      rw [hlive, hid]
      rfl
    · exact absurd hi (hdead i)

/-- A first attempt that fails, and the second. -/
theorem reconnecting_retry : Reconnecting
    (handle (handle (handle start .initServer) (.closed 0)) (.tick 1)) := by
  have h : Lts.Run Step start [.initServer, .closed 0, .tick 1] _ :=
    .cons ⟨trivial, rfl⟩ (.cons ⟨⟨.connecting, rfl, by decide⟩, rfl⟩
      (.cons ⟨⟨.retry, rfl⟩, rfl⟩ .nil))
  exact reconnecting_run h List.mem_cons_self

end EssApp.Connection
