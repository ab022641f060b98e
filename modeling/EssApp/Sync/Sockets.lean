import EssApp.App.Connection
import EssApp.Lib.Trace
import EssApp.Server.Clients
import EssApp.Sync.Texts

/-!
# The sockets below the connections

What `Texts` calls a connection is a socket of the app's connection manager, and there
can be several of them at a time: the manager drops one without closing it and makes
another, and a dropped one can still open, and answers on it are processed. A unit
accepts a socket, enters it in its registry, and reads from it until it sees it close,
which may be long after the phone has closed it, and the other way round.

So here is the system once more, with everything that has a model of its own: phones
with their storage, managers with their intervals and sockets, units with their files
and registries. `Inv` says how the parts fit together, and with it the result about one
registry becomes one about the units of a system: `listed_iff` says when the arrays list
the sockets that are open. What goes over the sockets is a run of `Texts`, and so of
`Network` (`sockets_simulated`). As there, a unit can fail as a whole, but each read, write
and send of one that runs is taken to work.
-/

namespace EssApp.Sync.Sockets

open Js Texts
open Connection (Manager Attached)
open Clients (Registry)
open Network (forall_update)
open Restart (Phone)
open Storage (PlacesAll hasLatLng)

/-- A socket of a phone: the life of the app it was made in, and its place there. -/
abbrev Key := Nat × Nat

structure System (ι κ : Type) where
  phones : ι → Phone
  /-- How often the app was started again. Of an earlier life no handler is left. -/
  lives : ι → Nat
  managers : ι → Manager
  units : κ → WebSocketServer.Server
  registries : κ → Registry
  /-- The unit that accepted a socket, and its place among the connections of the unit. -/
  peers : ι × Key → Option (κ × Nat)
  /-- The sockets whose unit has seen them close, or has failed. -/
  gone : ι × Key → Bool
  /-- Requests on their way, oldest first. -/
  requests : ι × Key → List Text
  /-- Replies on their way, oldest first. -/
  replies : ι × Key → List Text

inductive Event (ι κ : Type) where
  /-- The user of phone `i` touches it. -/
  | phone (i : ι) (e : Storage.Event)
  /-- The app on phone `i` is closed and started. -/
  | restart (i : ι)
  /-- An interval or a socket of phone `i` fires, or it calls `initServer`. -/
  | manager (i : ι) (e : Connection.Event)
  /-- Unit `k` accepts the `j`-th socket of phone `i`. -/
  | accept (i : ι) (k : κ) (j : Nat)
  /-- The unit handles the oldest request on a socket of phone `i`. -/
  | handle (i : ι) (s : Key)
  /-- Phone `i` processes the oldest reply on its `j`-th socket. -/
  | process (i : ι) (j : Nat)
  /-- The unit sees a socket of phone `i` close. -/
  | close (i : ι) (s : Key)
  /-- A step of unit `k` on its own. -/
  | unit (k : κ) (e : WebSocketServer.Event)
  /-- Unit `k` fails and is started again. -/
  | reboot (k : κ)

variable {ι κ : Type}

/-- Phones and units that have not met yet. -/
def start (phones : ι → Phone) (units : κ → WebSocketServer.Server) : System ι κ where
  phones := phones
  lives _ := 0
  managers _ := Connection.start
  units := units
  registries _ := Clients.start
  peers _ := none
  gone _ := false
  requests _ := []
  replies _ := []

section

variable (places : Value → Bool) (toNumber : String → Number)
variable [DecidableEq ι] [DecidableEq κ]

inductive Step (w : System ι κ) : Event ι κ → System ι κ → Prop where
  | phone {i : ι} {e : Storage.Event} {p : Phone} : (∀ data, e ≠ .message data) →
      Restart.Step places toNumber (w.phones i) (.app e) p →
      Step w (.phone i e) { w with phones := Function.update w.phones i p }
  | restart {i : ι} {p : Phone} : Restart.Step places toNumber (w.phones i) .restart p →
      Step w (.restart i)
        { w with
          phones := Function.update w.phones i p
          lives := Function.update w.lives i (w.lives i + 1)
          managers := Function.update w.managers i Connection.start }
  /-- `initServer` is called by a controller that got so far; only what was accepted opens. -/
  | manager {i : ι} {e : Connection.Event} {m : Manager} :
      Connection.Step (w.managers i) e m → m.sent = (w.managers i).sent →
      (e = .initServer → (w.phones i).progress = .complete) →
      (∀ j, e = .opened j → (w.peers (i, w.lives i, j)).isSome) →
      Step w (.manager i e) { w with managers := Function.update w.managers i m }
  /-- The update interval fires, and `private.socket` is open. -/
  | upload {i : ι} {e : Connection.Event} {m : Manager} {j : Nat} :
      Connection.Step (w.managers i) e m → m.sent = (w.managers i).sent ++ [j] →
      Step w (.manager i e)
        { w with
          managers := Function.update w.managers i m
          requests := Function.update w.requests (i, w.lives i, j)
            (w.requests (i, w.lives i, j) ++ [upload (w.phones i).device]) }
  | accept {i : ι} {k : κ} {j : Nat} : (w.managers i).readyState j = some .connecting →
      w.peers (i, w.lives i, j) = none →
      Step w (.accept i k j)
        { w with
          registries := Function.update w.registries k (Clients.onConnection (w.registries k))
          peers := Function.update w.peers (i, w.lives i, j)
            (some (k, (w.registries k).connections.length)) }
  /--
  The unit reads, sends and writes without an error. A handler that throws does not come to
  its end; what follows is the unit's failure.
  -/
  | handle {i : ι} {s : Key} {k : κ} {n : Nat} {request reply : Text} {rest : List Text} :
      w.peers (i, s) = some (k, n) → w.gone (i, s) = false →
      w.requests (i, s) = request :: rest → answers (w.units k) request = [reply] →
      Step w (.handle i s)
        { w with
          units := Function.update w.units k
            (WebSocketServer.after (w.units k) (.clientMessage {} request))
          requests := Function.update w.requests (i, s) rest
          replies := Function.update w.replies (i, s) (w.replies (i, s) ++ [reply]) }
  /-- Every open socket has its `onmessage`, the one in `private.socket` or not. -/
  | process {i : ι} {j : Nat} {reply : Text} {rest : List Text} {p : Phone} :
      (w.managers i).readyState j = some .opened →
      w.replies (i, w.lives i, j) = reply :: rest →
      Restart.Step places toNumber (w.phones i) (.app (.message reply)) p →
      Step w (.process i j)
        { w with
          phones := Function.update w.phones i p
          replies := Function.update w.replies (i, w.lives i, j) rest }
  /-- What the unit has not read by then is lost. -/
  | close {i : ι} {s : Key} {k : κ} {n : Nat} :
      w.peers (i, s) = some (k, n) → w.gone (i, s) = false →
      Step w (.close i s)
        { w with
          registries := Function.update w.registries k (Clients.onClose (w.registries k) n)
          gone := Function.update w.gone (i, s) true }
  | unit {k : κ} {e : WebSocketServer.Event} {s : WebSocketServer.Server} :
      WebSocketServer.Step (w.units k) e s →
      Step w (.unit k e) { w with units := Function.update w.units k s }
  /-- Of a unit that fails the file is left, and no connection. -/
  | reboot {k : κ} :
      Step w (.reboot k)
        { w with
          units := Function.update w.units k { database := (w.units k).database }
          registries := Function.update w.registries k Clients.start
          gone := fun c => w.gone c || (w.peers c).any fun p => p.1 = k }

end

/-! ## What a step of the manager does -/

/-- A change of one socket's state leaves the others theirs. -/
theorem readyState_set {m : Manager} {i : Nat} {r' : Connection.ReadyState}
    (hi : m.readyState i = some r') (r : Connection.ReadyState) (j : Nat) :
    (m.setReadyState i r).readyState j = m.readyState j
      ∨ i = j ∧ (m.setReadyState i r).readyState j = some r := by
  rw [Connection.Manager.readyState_setReadyState]
  by_cases hij : i = j
  · subst hij
    rw [hi, Option.map_some, if_pos rfl]
    exact Or.inr ⟨rfl, rfl⟩
  · cases m.readyState j with
    | none => exact Or.inl rfl
    | some r'' => exact Or.inl (by rw [Option.map_some, if_neg hij])

/-- `initServer` makes one socket more. -/
theorem readyState_initServer (m : Manager) (j : Nat) :
    m.initServer.readyState j = m.readyState j
      ∨ m.readyState j = none ∧ m.initServer.readyState j = some .connecting := by
  simp only [Manager.readyState, Manager.initServer]
  rcases Nat.lt_trichotomy j m.sockets.length with hj | rfl | hj
  · exact Or.inl (by rw [List.getElem?_append_left hj])
  · rw [List.getElem?_concat_length, List.getElem?_eq_none (Nat.le_refl _)]
    exact Or.inr ⟨rfl, rfl⟩
  · refine Or.inl ?_
    rw [List.getElem?_eq_none (by simp; omega), List.getElem?_eq_none (by omega)]

/-- **What happens to one socket**: it is made, opens, or closes; closed it stays. -/
theorem readyState_step {m m' : Manager} {e : Connection.Event} (ha : Attached m)
    (hs : Connection.Step m e m') (j : Nat) :
    m'.readyState j = m.readyState j
      ∨ m.readyState j = none ∧ m'.readyState j = some .connecting
      ∨ m.readyState j = some .connecting ∧ m'.readyState j = some .opened ∧ e = .opened j
      ∨ m'.readyState j = some .closed := by
  cases Connection.step_effect ha hs with
  | created => exact (readyState_initServer m j).imp_right Or.inl
  | retried _ => exact (readyState_initServer m j).imp_right Or.inl
  | uploaded _ => exact Or.inl rfl
  | @opened i hi =>
      have hsame : (m.setReadyState i .opened).onopen.readyState j
          = (m.setReadyState i .opened).readyState j := by
        rw [Manager.readyState, Connection.sockets_onopen]
        rfl
      rw [hsame]
      rcases readyState_set hi .opened j with h | ⟨rfl, h⟩
      · exact Or.inl h
      · exact Or.inr (Or.inr (Or.inl ⟨hi, h, rfl⟩))
  | @closed i r hi _ =>
      have hsame : (m.setReadyState i .closed).onclose.readyState j
          = (m.setReadyState i .closed).readyState j := by
        rw [Manager.readyState, (Connection.onclose_sockets _).1]
        rfl
      rw [hsame]
      rcases readyState_set hi .closed j with h | ⟨_, h⟩
      · exact Or.inl h
      · exact Or.inr (Or.inr (Or.inr h))

/-- What is closed stays so. -/
theorem closed_stays {m m' : Manager} {e : Connection.Event} (ha : Attached m)
    (hs : Connection.Step m e m') {j : Nat} (hj : m.readyState j = some .closed) :
    m'.readyState j = some .closed := by
  rcases readyState_step ha hs j with h | ⟨h, _⟩ | ⟨h, _, _⟩ | h
  · exact h.trans hj
  · rw [hj] at h
    cases h
  · rw [hj] at h
    cases h
  · exact h

theorem sent_onopen (m : Manager) : m.onopen.sent = m.sent := by
  simp only [Manager.onopen, Manager.clearTimer, Manager.setInterval]
  split <;> rfl

theorem sent_onclose (m : Manager) : m.onclose.sent = m.sent := by
  have hstart : ∀ m : Manager, m.startTimer.sent = m.sent := by
    intro m
    unfold Manager.startTimer
    split <;> rfl
  have hclear : ∀ m : Manager, m.clearUpdTimer.sent = m.sent := by
    intro m
    unfold Manager.clearUpdTimer
    split <;> rfl
  unfold Manager.onclose
  dsimp only
  rw [hclear, hstart]
  split <;> rfl

/-- **An upload** is that of an interval, on an open socket. -/
theorem upload_spec {m m' : Manager} {e : Connection.Event} {j : Nat} (ha : Attached m)
    (hs : Connection.Step m e m') (h : m'.sent = m.sent ++ [j]) :
    (∃ id, e = .tick id) ∧ m.readyState j = some .opened := by
  have hnone : m.sent ≠ m.sent ++ [j] := by simp
  have hstep := hs.2
  cases Connection.step_effect ha hs with
  | created => exact absurd h hnone
  | retried _ => exact absurd h hnone
  | opened _ =>
      rw [sent_onopen] at h
      exact absurd h hnone
  | closed _ _ =>
      rw [sent_onclose] at h
      exact absurd h hnone
  | @uploaded id sent hget =>
      simp only [Connection.handle, hget] at hstep
      rw [hstep] at h
      unfold Manager.upload at h
      cases hcur : m.socket with
      | none =>
          simp only [hcur] at h
          exact absurd h hnone
      | some i =>
          simp only [hcur] at h
          split at h
          · rename_i hi
            have hsent : m.sent ++ [i] = m.sent ++ [j] := h
            obtain rfl : i = j := List.singleton_inj.mp (List.append_cancel_left hsent)
            exact ⟨⟨id, rfl⟩, hi⟩
          · exact absurd h hnone

/-! ## How the parts fit together -/

/-- The invariant of every run. -/
structure Inv (w : System ι κ) : Prop where
  /-- A manager has gone through a run of its own, since its life began, -/
  managers : ∀ i, ∃ es, Lts.Run Connection.Step Connection.start es (w.managers i)
  /-- and so has a registry. -/
  registries : ∀ k, ∃ es, Lts.Run Clients.Step Clients.start es (w.registries k)
  /-- Nothing connects before the app got through its initialisation. -/
  complete : ∀ i, w.managers i = Connection.start ∨ (w.phones i).progress = .complete
  /-- What is open was accepted. -/
  opened : ∀ i j, (w.managers i).readyState j = some .opened →
    (w.peers (i, w.lives i, j)).isSome
  /-- What was not accepted is empty. -/
  blank : ∀ c, w.peers c = none → w.gone c = false ∧ w.requests c = [] ∧ w.replies c = []
  /-- Nobody has accepted a socket of a life to come. -/
  fresh : ∀ i l j, w.lives i < l → w.peers (i, l, j) = none
  /-- A connection of a unit is a socket that it accepted and has not seen close, -/
  connected : ∀ k n, (w.registries k).Connected n
    ↔ ∃ c, w.peers c = some (k, n) ∧ w.gone c = false
  /-- and that is only one. -/
  once : ∀ c c' p, w.peers c = some p → w.gone c = false → w.peers c' = some p →
    w.gone c' = false → c = c'

theorem not_connected_start (n : Nat) : ¬ Clients.start.Connected n := by
  intro hex
  obtain ⟨cl, hcl, _⟩ := hex
  cases hcl

theorem inv_start (phones : ι → Phone) (units : κ → WebSocketServer.Server) :
    Inv (start phones units) where
  managers _ := ⟨[], .nil⟩
  registries _ := ⟨[], .nil⟩
  complete _ := Or.inl rfl
  opened _ j h := by
    have hnone : Connection.start.readyState j = some .opened := h
    cases hnone
  blank _ _ := ⟨rfl, rfl, rfl⟩
  fresh _ _ _ _ := rfl
  connected k n := by
    refine iff_of_false (not_connected_start n) ?_
    intro hex
    obtain ⟨c, hc, _⟩ := hex
    cases hc
  once c c' p h := by cases h

theorem attached {w : System ι κ} (h : Inv w) (i : ι) : Attached (w.managers i) := by
  obtain ⟨es, hrun⟩ := h.managers i
  exact (Connection.retries_run hrun).attached

/-- A manager that starts can only make a socket. -/
theorem eq_initServer_of_start {e : Connection.Event} {m : Manager}
    (hs : Connection.Step Connection.start e m) : e = .initServer := by
  obtain ⟨hen, _⟩ := hs
  cases e with
  | initServer => rfl
  | tick id =>
      obtain ⟨task, hget⟩ := hen
      cases hget
  | opened i => cases hen
  | closed i =>
      obtain ⟨r, hr, _⟩ := hen
      cases hr

/-- A registry's connections come behind those it has. -/
theorem lt_of_connected {r : Registry} {n : Nat} (h : r.Connected n) :
    n < r.connections.length := by
  obtain ⟨cl, hcl, _⟩ := h
  exact (List.getElem?_eq_some_iff.mp hcl).1

/-- A manager that does something belongs to an app that got through. -/
theorem complete_of_step {w : System ι κ} (h : Inv w) {i : ι} {e : Connection.Event} {m : Manager}
    (hs : Connection.Step (w.managers i) e m)
    (hinit : e = .initServer → (w.phones i).progress = .complete) :
    (w.phones i).progress = .complete := by
  rcases h.complete i with hstart | hcomplete
  · rw [hstart] at hs
    exact hinit (eq_initServer_of_start hs)
  · exact hcomplete

/-- Sockets that are gone leave those that are not as they were. -/
theorem once_gone {w : System ι κ} (h : Inv w) {g : ι × Key → Bool}
    (hg : ∀ c, g c = false → w.gone c = false) :
    ∀ c c' p, w.peers c = some p → g c = false → w.peers c' = some p → g c' = false → c = c' :=
  fun c c' p hc hgc hc' hgc' => h.once c c' p hc (hg c hgc) hc' (hg c' hgc')

section

variable [DecidableEq ι]

/-- One manager goes on. -/
theorem managers_update {w : System ι κ} (h : Inv w) {i : ι} {e : Connection.Event} {m : Manager}
    (hs : Connection.Step (w.managers i) e m) :
    ∀ i', ∃ es,
      Lts.Run Connection.Step Connection.start es (Function.update w.managers i m i') := by
  refine forall_update (P := fun m => ∃ es, Lts.Run Connection.Step Connection.start es m)
    h.managers ?_
  obtain ⟨es, hrun⟩ := h.managers i
  exact ⟨_, hrun.append (.single hs)⟩

/-- Only one phone with its manager has changed. -/
theorem complete_update {w : System ι κ} (h : Inv w) {i : ι} {ms : ι → Manager} {ps : ι → Phone}
    (hms : ∀ i', i' ≠ i → ms i' = w.managers i') (hps : ∀ i', i' ≠ i → ps i' = w.phones i')
    (hi : ms i = Connection.start ∨ (ps i).progress = .complete) :
    ∀ i', ms i' = Connection.start ∨ (ps i').progress = .complete := by
  intro i'
  by_cases hne : i' = i
  · subst hne
    exact hi
  · rw [hms i' hne, hps i' hne]
    exact h.complete i'

theorem opened_update {w : System ι κ} (h : Inv w) {i : ι} {e : Connection.Event} {m : Manager}
    (hs : Connection.Step (w.managers i) e m)
    (haccepted : ∀ j, e = .opened j → (w.peers (i, w.lives i, j)).isSome) :
    ∀ i' j, (Function.update w.managers i m i').readyState j = some .opened →
      (w.peers (i', w.lives i', j)).isSome := by
  intro i' j hj
  by_cases hi : i' = i
  · subst hi
    rw [Function.update_self] at hj
    rcases readyState_step (attached h i') hs j with hsame | ⟨_, hnew⟩ | ⟨_, _, he⟩ | hclosed
    · exact h.opened i' j (hsame ▸ hj)
    · rw [hnew] at hj
      cases hj
    · exact haccepted j he
    · rw [hclosed] at hj
      cases hj
  · rw [Function.update_of_ne hi] at hj
    exact h.opened i' j hj

/-- Its place is a new one. -/
theorem once_accept {w : System ι κ} (h : Inv w) {c₀ : ι × Key} {k : κ} :
    ∀ c c' p,
      Function.update w.peers c₀ (some (k, (w.registries k).connections.length)) c = some p →
      w.gone c = false →
      Function.update w.peers c₀ (some (k, (w.registries k).connections.length)) c' = some p →
      w.gone c' = false → c = c' := by
  have hnew : ∀ c, w.peers c = some (k, (w.registries k).connections.length) →
      w.gone c = false → False := by
    intro c hc hg
    exact Nat.lt_irrefl _ (lt_of_connected ((h.connected _ _).mpr ⟨c, hc, hg⟩))
  intro c c' p hc hg hc' hg'
  by_cases h₀ : c = c₀
  · by_cases h₀' : c' = c₀
    · rw [h₀, h₀']
    · rw [Function.update_of_ne h₀'] at hc'
      subst h₀
      rw [Function.update_self] at hc
      cases hc
      exact absurd hg' (fun hg' => hnew c' hc' hg')
  · rw [Function.update_of_ne h₀] at hc
    by_cases h₀' : c' = c₀
    · subst h₀'
      rw [Function.update_self] at hc'
      cases hc'
      exact absurd hg (fun hg => hnew c hc hg)
    · rw [Function.update_of_ne h₀'] at hc'
      exact h.once c c' p hc hg hc' hg'

/-- The sockets of a new life are those of a new manager, which has none. -/
theorem opened_restart {w : System ι κ} (h : Inv w) (i : ι) :
    ∀ i' j, (Function.update w.managers i Connection.start i').readyState j = some .opened →
      (w.peers (i', Function.update w.lives i (w.lives i + 1) i', j)).isSome := by
  intro i' j hj
  by_cases hi : i' = i
  · subst hi
    rw [Function.update_self] at hj
    cases hj
  · rw [Function.update_of_ne hi] at hj ⊢
    exact h.opened i' j hj

theorem fresh_restart {w : System ι κ} (h : Inv w) (i : ι) :
    ∀ i' l j, Function.update w.lives i (w.lives i + 1) i' < l → w.peers (i', l, j) = none := by
  intro i' l j hl
  by_cases hi : i' = i
  · subst hi
    rw [Function.update_self] at hl
    exact h.fresh i' l j (Nat.lt_of_succ_lt hl)
  · rw [Function.update_of_ne hi] at hl
    exact h.fresh i' l j hl

/-- A socket that is open was accepted, whatever was accepted since. -/
theorem opened_accept {w : System ι κ} (h : Inv w) (c₀ : ι × Key) (p : κ × Nat) :
    ∀ i j, (w.managers i).readyState j = some .opened →
      (Function.update w.peers c₀ (some p) (i, w.lives i, j)).isSome := by
  intro i j hj
  by_cases hc : (i, w.lives i, j) = c₀
  · rw [hc, Function.update_self]
    rfl
  · rw [Function.update_of_ne hc]
    exact h.opened i j hj

theorem blank_accept {w : System ι κ} (h : Inv w) (c₀ : ι × Key) (p : κ × Nat) :
    ∀ c, Function.update w.peers c₀ (some p) c = none →
      w.gone c = false ∧ w.requests c = [] ∧ w.replies c = [] := by
  intro c hc
  by_cases hc₀ : c = c₀
  · rw [hc₀, Function.update_self] at hc
    cases hc
  · rw [Function.update_of_ne hc₀] at hc
    exact h.blank c hc

/-- What is accepted is of the life that the app lives. -/
theorem fresh_accept {w : System ι κ} (h : Inv w) (i : ι) (j : Nat) (p : κ × Nat) :
    ∀ i' l j', w.lives i' < l →
      Function.update w.peers (i, w.lives i, j) (some p) (i', l, j') = none := by
  intro i' l j' hl
  rw [Function.update_of_ne ?_]
  · exact h.fresh i' l j' hl
  · intro he
    cases he
    exact Nat.lt_irrefl _ hl

/-- One socket more is gone. -/
theorem not_gone_of_close {w : System ι κ} {c₀ c : ι × Key}
    (hg : Function.update w.gone c₀ true c = false) : w.gone c = false := by
  by_cases hc : c = c₀
  · rw [hc, Function.update_self] at hg
    cases hg
  · rwa [Function.update_of_ne hc] at hg

/-- What was accepted may have something on it. -/
theorem blank_update {w : System ι κ} {f : ι × Key → List Text}
    (hf : ∀ c, w.peers c = none → f c = []) {c₀ : ι × Key} (hpeer : w.peers c₀ ≠ none)
    (q : List Text) : ∀ c, w.peers c = none → Function.update f c₀ q c = [] := by
  intro c hc
  rw [Function.update_of_ne ?_]
  · exact hf c hc
  · intro he
    subst he
    exact hpeer hc

end

section

variable [DecidableEq κ]

/-- One registry goes on. -/
theorem registries_update {w : System ι κ} (h : Inv w) {k : κ} {e : Clients.Event} {r : Registry}
    (hs : Clients.Step (w.registries k) e r) :
    ∀ k', ∃ es, Lts.Run Clients.Step Clients.start es (Function.update w.registries k r k') := by
  refine forall_update (P := fun r => ∃ es, Lts.Run Clients.Step Clients.start es r)
    h.registries ?_
  obtain ⟨es, hrun⟩ := h.registries k
  exact ⟨_, hrun.append (.single hs)⟩

/-- **After a failure**: none. -/
theorem connected_reboot {w : System ι κ} (h : Inv w) (k k' : κ) (n : Nat) :
    (Function.update w.registries k Clients.start k').Connected n
      ↔ ∃ c, w.peers c = some (k', n)
        ∧ (w.gone c || (w.peers c).any fun p => p.1 = k) = false := by
  by_cases hk : k' = k
  · subst hk
    rw [Function.update_self]
    refine iff_of_false (not_connected_start n) ?_
    intro hex
    obtain ⟨c, hc, hg⟩ := hex
    rw [hc] at hg
    simp at hg
  · rw [Function.update_of_ne hk, h.connected]
    refine exists_congr ?_
    intro c
    refine and_congr_right ?_
    intro hc
    rw [hc]
    simp [hk]

end

section

variable [DecidableEq ι] [DecidableEq κ]

/-- **The unit's open connections after an accept**: one more. -/
theorem connected_accept {w : System ι κ} (h : Inv w) {c₀ : ι × Key} {k : κ}
    (hnone : w.peers c₀ = none) (k' : κ) (n : Nat) :
    (Function.update w.registries k (Clients.onConnection (w.registries k)) k').Connected n
      ↔ ∃ c, Function.update w.peers c₀ (some (k, (w.registries k).connections.length)) c
        = some (k', n) ∧ w.gone c = false := by
  have hother : (∃ c, w.peers c = some (k', n) ∧ w.gone c = false)
      → ∃ c, Function.update w.peers c₀ (some (k, (w.registries k).connections.length)) c
        = some (k', n) ∧ w.gone c = false := by
    intro hex
    obtain ⟨c, hc, hg⟩ := hex
    refine ⟨c, ?_, hg⟩
    rw [Function.update_of_ne ?_]
    · exact hc
    · intro he
      subst he
      rw [hnone] at hc
      cases hc
  constructor
  · intro hcon
    by_cases hk : k' = k
    · subst hk
      rw [Function.update_self, Clients.connected_onConnection] at hcon
      rcases hcon with hcon | rfl
      · exact hother ((h.connected k' n).mp hcon)
      · exact ⟨c₀, Function.update_self .., (h.blank c₀ hnone).1⟩
    · rw [Function.update_of_ne hk] at hcon
      exact hother ((h.connected k' n).mp hcon)
  · intro hex
    obtain ⟨c, hc, hg⟩ := hex
    by_cases hc₀ : c = c₀
    · subst hc₀
      rw [Function.update_self] at hc
      cases hc
      rw [Function.update_self, Clients.connected_onConnection]
      exact Or.inr rfl
    · rw [Function.update_of_ne hc₀] at hc
      have hcon := (h.connected k' n).mpr ⟨c, hc, hg⟩
      by_cases hk : k' = k
      · subst hk
        rw [Function.update_self, Clients.connected_onConnection]
        exact Or.inl hcon
      · rw [Function.update_of_ne hk]
        exact hcon

/-- **After a close**: one less. -/
theorem connected_close {w : System ι κ} (h : Inv w) {c₀ : ι × Key} {k : κ} {n₀ : Nat}
    (hpeer : w.peers c₀ = some (k, n₀)) (hgone : w.gone c₀ = false) (k' : κ) (n : Nat) :
    (Function.update w.registries k (Clients.onClose (w.registries k) n₀) k').Connected n
      ↔ ∃ c, w.peers c = some (k', n) ∧ Function.update w.gone c₀ true c = false := by
  have hcon₀ := (h.connected k n₀).mpr ⟨c₀, hpeer, hgone⟩
  have hleft : (∃ c, w.peers c = some (k', n) ∧ Function.update w.gone c₀ true c = false)
      ↔ (w.registries k').Connected n ∧ (k', n) ≠ (k, n₀) := by
    rw [h.connected]
    constructor
    · intro hex
      obtain ⟨c, hc, hg⟩ := hex
      by_cases hc₀ : c = c₀
      · subst hc₀
        rw [Function.update_self] at hg
        cases hg
      · rw [Function.update_of_ne hc₀] at hg
        refine ⟨⟨c, hc, hg⟩, ?_⟩
        intro hp
        exact hc₀ (h.once c c₀ _ hc hg (hp ▸ hpeer) hgone)
    · intro hex
      obtain ⟨⟨c, hc, hg⟩, hne⟩ := hex
      refine ⟨c, hc, ?_⟩
      rw [Function.update_of_ne ?_]
      · exact hg
      · intro he
        subst he
        exact hne (Option.some.inj (hc.symm.trans hpeer))
  rw [hleft]
  by_cases hk : k' = k
  · subst hk
    rw [Function.update_self, Clients.connected_onClose hcon₀]
    simp
  · rw [Function.update_of_ne hk, and_iff_left]
    intro hp
    exact hk (congrArg Prod.fst hp)

/-- **The parts fit together in every state.** -/
theorem inv_step {places : Value → Bool} {toNumber : String → Number} {w w' : System ι κ}
    {e : Event ι κ} (h : Inv w) (hs : Step places toNumber w e w') : Inv w' := by
  have hrequests : ∀ c, w.peers c = none → w.requests c = [] := fun c hc => (h.blank c hc).2.1
  have hreplies : ∀ c, w.peers c = none → w.replies c = [] := fun c hc => (h.blank c hc).2.2
  -- what happens to the lists leaves the progress alone
  have hphone : ∀ {i : ι} {f : Storage.Event} {p : Phone},
      Restart.Step places toNumber (w.phones i) (.app f) p →
      ∀ i', w.managers i' = Connection.start
        ∨ (Function.update w.phones i p i').progress = .complete := by
    intro i f p hex
    obtain ⟨_, rfl⟩ := hex
    refine complete_update h (fun _ _ => rfl) (fun _ hi => Function.update_of_ne hi _ _) ?_
    rw [Function.update_self]
    exact h.complete i
  have hmanager : ∀ {i : ι} {f : Connection.Event} {m : Manager},
      Connection.Step (w.managers i) f m →
      (f = .initServer → (w.phones i).progress = .complete) →
      ∀ i', Function.update w.managers i m i' = Connection.start
        ∨ (w.phones i').progress = .complete := by
    intro i f m hm hinit
    exact complete_update h (fun _ hi => Function.update_of_ne hi _ _) (fun _ _ => rfl)
      (Or.inr (complete_of_step h hm hinit))
  cases hs with
  | phone _ hp =>
      exact ⟨h.managers, h.registries, hphone hp, h.opened, h.blank, h.fresh, h.connected, h.once⟩
  | @restart i p _ =>
      refine ⟨?_, h.registries, ?_, opened_restart h i, h.blank, fresh_restart h i, h.connected,
        h.once⟩
      · exact forall_update (P := fun m => ∃ es, Lts.Run Connection.Step Connection.start es m)
          h.managers ⟨[], .nil⟩
      · exact complete_update h (fun _ hi => Function.update_of_ne hi _ _)
          (fun _ hi => Function.update_of_ne hi _ _) (Or.inl (Function.update_self ..))
  | @manager i f m hm _ hinit haccepted =>
      exact ⟨managers_update h hm, h.registries, hmanager hm hinit, opened_update h hm haccepted,
        h.blank, h.fresh, h.connected, h.once⟩
  | @upload i f m j hm hsent =>
      obtain ⟨⟨id, rfl⟩, hopen⟩ := upload_spec (attached h i) hm hsent
      have hpeer : w.peers (i, w.lives i, j) ≠ none :=
        Option.isSome_iff_ne_none.mp (h.opened i j hopen)
      refine ⟨managers_update h hm, h.registries, hmanager hm nofun,
        opened_update h hm nofun, ?_, h.fresh, h.connected, h.once⟩
      exact fun c hc => ⟨(h.blank c hc).1, blank_update hrequests hpeer _ c hc, hreplies c hc⟩
  | @accept i k j _ hnone =>
      exact ⟨h.managers, registries_update h (e := .connection) ⟨trivial, rfl⟩, h.complete,
        opened_accept h _ _, blank_accept h _ _, fresh_accept h i j _, connected_accept h hnone,
        once_accept h⟩
  | @handle i s k n request reply rest hpeer _ _ _ =>
      have hsome : w.peers (i, s) ≠ none := by
        rw [hpeer]
        exact Option.some_ne_none _
      refine ⟨h.managers, h.registries, h.complete, h.opened, ?_, h.fresh, h.connected, h.once⟩
      exact fun c hc => ⟨(h.blank c hc).1, blank_update hrequests hsome _ c hc,
        blank_update hreplies hsome _ c hc⟩
  | @process i j reply rest p hopen _ hp =>
      have hpeer : w.peers (i, w.lives i, j) ≠ none :=
        Option.isSome_iff_ne_none.mp (h.opened i j hopen)
      refine ⟨h.managers, h.registries, hphone hp, h.opened, ?_, h.fresh, h.connected, h.once⟩
      exact fun c hc => ⟨(h.blank c hc).1, hrequests c hc, blank_update hreplies hpeer _ c hc⟩
  | @close i s k n hpeer hgone =>
      have hclose : Clients.Step (w.registries k) (.close n)
          (Clients.onClose (w.registries k) n) := ⟨(h.connected k n).mpr ⟨_, hpeer, hgone⟩, rfl⟩
      refine ⟨h.managers, registries_update h hclose, h.complete, h.opened, ?_, h.fresh,
        connected_close h hpeer hgone, once_gone h fun _ => not_gone_of_close⟩
      intro c hc
      dsimp only
      rw [Function.update_of_ne ?_]
      · exact h.blank c hc
      · intro he
        subst he
        rw [hpeer] at hc
        cases hc
  | unit _ =>
      exact ⟨h.managers, h.registries, h.complete, h.opened, h.blank, h.fresh, h.connected, h.once⟩
  | @reboot k =>
      refine ⟨h.managers, ?_, h.complete, h.opened, ?_, h.fresh, connected_reboot h k,
        once_gone h fun c hg => (Bool.or_eq_false_iff.mp hg).1⟩
      · exact forall_update (P := fun r => ∃ es, Lts.Run Clients.Step Clients.start es r)
          h.registries ⟨[], .nil⟩
      · intro c hc
        dsimp only
        rw [hc, (h.blank c hc).1]
        exact ⟨rfl, (h.blank c hc).2⟩

/-! ## What the registries list -/

/-- The array of every unit lists the sockets it has accepted and not seen close, each once. -/
def Listed (w : System ι κ) : Prop :=
  ∀ k, (w.registries k).clients.Nodup ∧ ∀ n, n ∈ (w.registries k).clients
    ↔ ∃ c, w.peers c = some (k, n) ∧ w.gone c = false

/-- The closes at which the index addresses the entry of the socket that closes. -/
def Orderly (w : System ι κ) : Event ι κ → Prop
  | .close i s => ∀ k n, w.peers (i, s) = some (k, n) →
      Clients.Orderly (w.registries k) (.close n)
  | _ => True

omit [DecidableEq ι] [DecidableEq κ] in
theorem listed_iff_registered {w : System ι κ} (h : Inv w) :
    Listed w ↔ ∀ k, Clients.Registered (w.registries k) := by
  refine forall_congr' ?_
  intro k
  constructor
  · intro hl
    exact ⟨hl.1, fun n => (hl.2 n).trans (h.connected k n).symm⟩
  · intro hr
    exact ⟨hr.nodup, fun n => (hr.mem_iff n).trans (h.connected k n)⟩

omit [DecidableEq ι] [DecidableEq κ] in
theorem ordered {w : System ι κ} (h : Inv w) (k : κ) : Clients.Ordered (w.registries k) := by
  obtain ⟨es, hrun⟩ := h.registries k
  exact hrun.invariant (I := Clients.Ordered) Clients.ordered_step Clients.ordered_start

/-- **What a step needs** to keep every array right. -/
theorem listed_step {places : Value → Bool} {toNumber : String → Number} {w w' : System ι κ}
    {e : Event ι κ} (h : Inv w) (hl : Listed w) (hs : Step places toNumber w e w') :
    Listed w' ↔ Orderly w e := by
  have hr := (listed_iff_registered h).mp hl
  rw [listed_iff_registered (inv_step h hs)]
  cases hs with
  | phone _ _ => exact iff_of_true hr trivial
  | restart _ => exact iff_of_true hr trivial
  | manager _ _ _ _ => exact iff_of_true hr trivial
  | upload _ _ => exact iff_of_true hr trivial
  | handle _ _ _ _ => exact iff_of_true hr trivial
  | process _ _ _ => exact iff_of_true hr trivial
  | unit _ => exact iff_of_true hr trivial
  | reboot => exact iff_of_true (forall_update hr Clients.registered_start) trivial
  | @accept i k j _ _ =>
      -- a connection is always entered in order
      have hconnection : Clients.Step (w.registries k) .connection
          (Clients.onConnection (w.registries k)) := ⟨trivial, rfl⟩
      exact iff_of_true (forall_update hr
        ((Clients.registered_step (ordered h k) (hr k) hconnection).mpr trivial)) trivial
  | @close i s k n hpeer hgone =>
      have hclose : Clients.Step (w.registries k) (.close n)
          (Clients.onClose (w.registries k) n) := ⟨(h.connected k n).mpr ⟨_, hpeer, hgone⟩, rfl⟩
      have hone := Clients.registered_step (ordered h k) (hr k) hclose
      constructor
      · intro hall k' n' hpeer'
        rw [hpeer] at hpeer'
        cases hpeer'
        have hk := hall k
        dsimp only at hk
        rw [Function.update_self] at hk
        exact hone.mp hk
      · intro ho
        exact forall_update hr (hone.mpr (ho k n hpeer))

theorem step_deterministic {places : Value → Bool} {toNumber : String → Number}
    (w : System ι κ) (e : Event ι κ) (w₁ w₂ : System ι κ) (h₁ : Step places toNumber w e w₁)
    (h₂ : Step places toNumber w e w₂) : w₁ = w₂ := by
  -- an interval that fires sends, or it does not
  have hquiet : ∀ {i : ι} {m : Manager} {j : Nat}, m.sent = (w.managers i).sent →
      m.sent ≠ (w.managers i).sent ++ [j] := by
    intro i m j hsame hsent
    rw [hsame] at hsent
    simp at hsent
  cases h₁ with
  | phone _ hp =>
      cases h₂ with
      | phone _ hp' => rw [hp.2, hp'.2]
  | restart hp =>
      cases h₂ with
      | restart hp' => rw [hp.2, hp'.2]
  | manager hm hsent _ _ =>
      cases h₂ with
      | manager hm' _ _ _ => rw [hm.2, hm'.2]
      | upload hm' hsent' =>
          obtain rfl := Connection.step_deterministic _ _ _ _ hm hm'
          exact absurd hsent' (hquiet hsent)
  | upload hm hsent =>
      cases h₂ with
      | manager hm' hsent' _ _ =>
          obtain rfl := Connection.step_deterministic _ _ _ _ hm hm'
          exact absurd hsent (hquiet hsent')
      | upload hm' hsent' =>
          obtain rfl := Connection.step_deterministic _ _ _ _ hm hm'
          obtain rfl := List.singleton_inj.mp (List.append_cancel_left (hsent.symm.trans hsent'))
          rfl
  | accept _ _ =>
      cases h₂ with
      | accept _ _ => rfl
  | handle hpeer _ hqueue hanswer =>
      cases h₂ with
      | handle hpeer' _ hqueue' hanswer' =>
          cases hpeer.symm.trans hpeer'
          cases hqueue.symm.trans hqueue'
          cases hanswer.symm.trans hanswer'
          rfl
  | process _ hqueue hp =>
      cases h₂ with
      | process _ hqueue' hp' =>
          cases hqueue.symm.trans hqueue'
          rw [hp.2, hp'.2]
  | close hpeer _ =>
      cases h₂ with
      | close hpeer' _ =>
          cases hpeer.symm.trans hpeer'
          rfl
  | unit hs =>
      cases h₂ with
      | unit hs' => rw [hs.2, hs'.2]
  | reboot =>
      cases h₂ with
      | reboot => rfl

/--
**The arrays of the units are right** over a whole run, phones and units failing and all,
exactly if at every close the index that the socket was given addresses its own entry.
-/
theorem listed_iff {places : Value → Bool} {toNumber : String → Number} {phones : ι → Phone}
    {units : κ → WebSocketServer.Server} {es : List (Event ι κ)} {w : System ι κ}
    (h : Lts.Run (Step places toNumber) (start phones units) es w) :
    Lts.Always (Step places toNumber) Listed (start phones units) es
      ↔ Lts.Run (Lts.Guarded (Step places toNumber) Orderly) (start phones units) es w := by
  have hstart : Listed (start phones units) :=
    (listed_iff_registered (inv_start phones units)).mpr fun _ => Clients.registered_start
  exact Lts.always_iff_guarded (I := Inv) step_deterministic (fun hi _ _ hs => inv_step hi hs)
    listed_step h (inv_start phones units) hstart

end

/-! ## What goes over the sockets -/

/-- The unit at the other end of a socket. -/
def System.unit (w : System ι κ) (i : ι) (s : Key) : List κ :=
  ((w.peers (i, s)).map Prod.fst).toList

/-- What a step is on connections. -/
def traffic (w : System ι κ) (e : Event ι κ) (w' : System ι κ) : List (Texts.Event ι κ Key) :=
  match e with
  | .phone i f => [.phone i (.app f)]
  | .restart i => [.phone i .restart]
  | .manager i _ =>
      ((w'.managers i).sent.drop (w.managers i).sent.length).flatMap fun j =>
        (w.unit i (w.lives i, j)).map fun k => .send i k (w.lives i, j)
  | .accept _ _ _ => []
  | .handle i s => (w.unit i s).map fun k => .handle i k s
  | .process i j => (w.unit i (w.lives i, j)).map fun k => .process i k (w.lives i, j)
  | .close _ _ => []
  | .unit k f => [.unit k f]
  | .reboot k => [.reboot k]

/-- The texts on a socket are those on the connection, at an end where they are still read. -/
structure Carries (w : System ι κ) (n : Texts.System ι κ Key) : Prop where
  phones : n.phones = w.phones
  units : n.units = w.units
  requests : ∀ i s k m, w.peers (i, s) = some (k, m) → w.gone (i, s) = false →
    n.requests (i, k, s) = w.requests (i, s)
  replies : ∀ i j k m, w.peers (i, w.lives i, j) = some (k, m) →
    (w.managers i).readyState j ≠ some .closed →
    n.replies (i, k, w.lives i, j) = w.replies (i, w.lives i, j)
  /-- Nothing is on a connection that was never made. -/
  idle : ∀ i s k, k ∉ w.unit i s → n.requests (i, k, s) = [] ∧ n.replies (i, k, s) = []

/-- The same phones and units, and nothing under way. -/
def texts (phones : ι → Phone) (units : κ → WebSocketServer.Server) : Texts.System ι κ Key where
  phones := phones
  units := units
  requests _ := []
  replies _ := []

theorem carries_start (phones : ι → Phone) (units : κ → WebSocketServer.Server) :
    Carries (start phones units) (texts phones units) where
  phones := rfl
  units := rfl
  requests _ _ _ _ h := by cases h
  replies _ _ _ _ h := by cases h
  idle _ _ _ _ := ⟨rfl, rfl⟩

theorem mem_unit {w : System ι κ} {i : ι} {s : Key} {k : κ} :
    k ∈ w.unit i s ↔ ∃ n, w.peers (i, s) = some (k, n) := by
  rw [System.unit, Option.mem_toList, Option.map_eq_some_iff]
  constructor
  · intro hex
    obtain ⟨⟨_, n⟩, hp, rfl⟩ := hex
    exact ⟨n, hp⟩
  · intro hex
    obtain ⟨n, hp⟩ := hex
    exact ⟨_, hp, rfl⟩

theorem unit_eq {w : System ι κ} {i : ι} {s : Key} {k : κ} {n : Nat}
    (h : w.peers (i, s) = some (k, n)) : w.unit i s = [k] := by
  rw [System.unit, h]
  rfl

/-- A unit reads from fewer sockets. -/
theorem carries_gone {w : System ι κ} {n : Texts.System ι κ Key} (hc : Carries w n)
    {g : ι × Key → Bool} (hg : ∀ c, g c = false → w.gone c = false) (rs : κ → Registry) :
    Carries { w with registries := rs, gone := g } n :=
  ⟨hc.phones, hc.units, fun i s k m hpeer hgone => hc.requests i s k m hpeer (hg _ hgone),
    hc.replies, hc.idle⟩

section

variable [DecidableEq κ]

/-- A unit has changed, on both sides. -/
theorem carries_units {w : System ι κ} {n : Texts.System ι κ Key} (hc : Carries w n) (k : κ)
    (s : WebSocketServer.Server) : Carries { w with units := Function.update w.units k s }
      { n with units := Function.update n.units k s } :=
  ⟨hc.phones, by rw [hc.units], hc.requests, hc.replies, hc.idle⟩

end

section

variable [DecidableEq ι]

/-- A phone has changed, on both sides. -/
theorem carries_phones {w : System ι κ} {n : Texts.System ι κ Key} (hc : Carries w n) (i : ι)
    (p : Phone) : Carries { w with phones := Function.update w.phones i p }
      { n with phones := Function.update n.phones i p } :=
  ⟨by rw [hc.phones], hc.units, hc.requests, hc.replies, hc.idle⟩

/-- A manager has gone on: what is not closed now was not closed before. -/
theorem carries_manager {w : System ι κ} {n : Texts.System ι κ Key} (h : Inv w)
    (hc : Carries w n) {i : ι} {f : Connection.Event} {m : Manager}
    (hm : Connection.Step (w.managers i) f m) :
    Carries { w with managers := Function.update w.managers i m } n := by
  refine ⟨hc.phones, hc.units, hc.requests, ?_, hc.idle⟩
  intro i' j k n hpeer hne
  refine hc.replies i' j k n hpeer ?_
  intro hclosed
  dsimp only at hne
  by_cases hi : i' = i
  · subst hi
    rw [Function.update_self] at hne
    exact hne (closed_stays (attached h i') hm hclosed)
  · rw [Function.update_of_ne hi] at hne
    exact hne hclosed

/-- An app has started again: nothing of its new life was accepted yet. -/
theorem carries_restart {w : System ι κ} {n : Texts.System ι κ Key} (h : Inv w)
    (hc : Carries w n) (i : ι) (m : Manager) :
    Carries { w with lives := Function.update w.lives i (w.lives i + 1)
                     managers := Function.update w.managers i m } n := by
  refine ⟨hc.phones, hc.units, hc.requests, ?_, hc.idle⟩
  intro i' j k n hpeer hne
  dsimp only at hpeer hne ⊢
  by_cases hi : i' = i
  · subst hi
    rw [Function.update_self, h.fresh i' _ j (Nat.lt_succ_self _)] at hpeer
    cases hpeer
  · rw [Function.update_of_ne hi] at hpeer hne ⊢
    exact hc.replies i' j k n hpeer hne

/-- A socket was accepted: nothing is on it, and nothing on any connection that could be its. -/
theorem carries_accept {w : System ι κ} {n : Texts.System ι κ Key} (h : Inv w)
    (hc : Carries w n) {i : ι} {s : Key} (hnone : w.peers (i, s) = none) (rs : κ → Registry)
    (p : κ × Nat) :
    Carries { w with registries := rs, peers := Function.update w.peers (i, s) (some p) } n := by
  have hblank := h.blank _ hnone
  have hnew : ∀ k, k ∉ w.unit i s := by
    intro k hk
    obtain ⟨m, hm⟩ := mem_unit.mp hk
    rw [hnone] at hm
    cases hm
  refine ⟨hc.phones, hc.units, ?_, ?_, ?_⟩
  · intro i' s' k' m' hpeer' hgone'
    dsimp only at hpeer' ⊢
    by_cases hs : (i', s') = (i, s)
    · cases hs
      rw [hblank.2.1]
      exact (hc.idle _ _ _ (hnew k')).1
    · rw [Function.update_of_ne hs] at hpeer'
      exact hc.requests i' s' k' m' hpeer' hgone'
  · intro i' j' k' m' hpeer' hne
    dsimp only at hpeer' ⊢
    by_cases hs : (i', w.lives i', j') = (i, s)
    · cases hs
      rw [hblank.2.2]
      exact (hc.idle _ _ _ (hnew k')).2
    · rw [Function.update_of_ne hs] at hpeer'
      exact hc.replies i' j' k' m' hpeer' hne
  · intro i' s' k' hk'
    refine hc.idle i' s' k' ?_
    intro hmem
    obtain ⟨m, hm⟩ := mem_unit.mp hmem
    refine hk' (mem_unit.mpr ⟨m, ?_⟩)
    dsimp only
    rw [Function.update_of_ne ?_]
    · exact hm
    · intro he
      cases he
      rw [hnone] at hm
      cases hm

end

section

variable [DecidableEq ι] [DecidableEq κ]

/-- **The same queue, changed on both sides**: that of a socket and that of its connection. -/
theorem queue_update {f : ι × κ × Key → List Text} {g : ι × Key → List Text} {i i' : ι}
    {k k' : κ} {s s' : Key} {q q' : List Text} (h : f (i', k', s') = g (i', s'))
    (hq : (i', s') = (i, s) → k' = k ∧ q = q') :
    Function.update f (i, k, s) q (i', k', s') = Function.update g (i, s) q' (i', s') := by
  by_cases hs : (i', s') = (i, s)
  · obtain ⟨rfl, rfl⟩ := hq hs
    cases hs
    rw [Function.update_self, Function.update_self]
  · rw [Function.update_of_ne hs, Function.update_of_ne ?_]
    · exact h
    · intro he
      cases he
      exact hs rfl

/-- Other connections are not touched. -/
theorem idle_update {w : System ι κ} {f : ι × κ × Key → List Text} {i : ι} {k : κ} {s : Key}
    (q : List Text) (h : ∀ i s k, k ∉ w.unit i s → f (i, k, s) = []) (hk : k ∈ w.unit i s) :
    ∀ i' s' k', k' ∉ w.unit i' s' → Function.update f (i, k, s) q (i', k', s') = [] := by
  intro i' s' k' hk'
  rw [Function.update_of_ne ?_]
  · exact h i' s' k' hk'
  · intro he
    cases he
    exact hk' hk

/-- The requests on a socket have changed, on both sides alike while the unit reads them. -/
theorem carries_requests {w : System ι κ} {n : Texts.System ι κ Key} (hc : Carries w n) {i : ι}
    {s : Key} {k : κ} {m : Nat} (hpeer : w.peers (i, s) = some (k, m)) {q q' : List Text}
    (hq : w.gone (i, s) = false → q = q') :
    Carries { w with requests := Function.update w.requests (i, s) q' }
      { n with requests := Function.update n.requests (i, k, s) q } := by
  refine ⟨hc.phones, hc.units, ?_, hc.replies, ?_⟩
  · intro i' s' k' m' hpeer' hgone'
    refine queue_update (hc.requests i' s' k' m' hpeer' hgone') ?_
    intro he
    cases he
    rw [hpeer] at hpeer'
    cases hpeer'
    exact ⟨rfl, hq hgone'⟩
  · intro i' s' k' hk'
    exact ⟨idle_update _ (fun i s k hk => (hc.idle i s k hk).1) (mem_unit.mpr ⟨m, hpeer⟩) i' s' k'
      hk', (hc.idle i' s' k' hk').2⟩

/-- The replies on a socket have changed, on both sides alike while the phone reads them. -/
theorem carries_replies {w : System ι κ} {n : Texts.System ι κ Key} (hc : Carries w n) {i : ι}
    {s : Key} {k : κ} {m : Nat} (hpeer : w.peers (i, s) = some (k, m)) {q q' : List Text}
    (hq : ∀ j, s = (w.lives i, j) → (w.managers i).readyState j ≠ some .closed → q = q') :
    Carries { w with replies := Function.update w.replies (i, s) q' }
      { n with replies := Function.update n.replies (i, k, s) q } := by
  refine ⟨hc.phones, hc.units, hc.requests, ?_, ?_⟩
  · intro i' j' k' m' hpeer' hne'
    refine queue_update (hc.replies i' j' k' m' hpeer' hne') ?_
    intro hs
    dsimp only at hs hpeer' hne' ⊢
    obtain ⟨rfl, rfl⟩ := Prod.mk.inj hs
    rw [hpeer] at hpeer'
    cases hpeer'
    exact ⟨rfl, hq j' rfl hne'⟩
  · intro i' s' k' hk'
    exact ⟨(hc.idle i' s' k' hk').1, idle_update _ (fun i s k hk => (hc.idle i s k hk).2)
      (mem_unit.mpr ⟨m, hpeer⟩) i' s' k' hk'⟩

/-- **One step of the system** is what it is on connections. -/
theorem carries_step {places : Value → Bool} {toNumber : String → Number} {w w' : System ι κ}
    {n : Texts.System ι κ Key} {e : Event ι κ} (h : Inv w) (hc : Carries w n)
    (hs : Step places toNumber w e w') :
    ∃ n', Lts.Run (Texts.Step places toNumber) n (traffic w e w') n' ∧ Carries w' n' := by
  cases hs with
  | @phone i f p hdata hp =>
      rw [← hc.phones] at hp
      refine ⟨_, .single (.phone ?_ hp), carries_phones hc i p⟩
      intro data he
      cases he
      exact hdata data rfl
  | @restart i p hp =>
      rw [← hc.phones] at hp
      exact ⟨_, .single (.phone nofun hp),
        carries_phones (carries_restart h hc i Connection.start) i p⟩
  | @manager i f m hm hsent _ _ =>
      have hquiet : traffic w (.manager i f)
          { w with managers := Function.update w.managers i m } = [] := by
        simp only [traffic, Function.update_self]
        rw [hsent, List.drop_length]
        rfl
      rw [hquiet]
      exact ⟨n, .nil, carries_manager h hc hm⟩
  | @upload i f m j hm hsent =>
      obtain ⟨⟨id, rfl⟩, hopen⟩ := upload_spec (attached h i) hm hsent
      obtain ⟨⟨k, o⟩, hpeer⟩ := Option.isSome_iff_exists.mp (h.opened i j hopen)
      have hcomplete := complete_of_step h hm nofun
      have hsends : ∀ ts, traffic w (.manager i (.tick id))
          { w with managers := Function.update w.managers i m, requests := ts }
          = [.send i k (w.lives i, j)] := by
        intro ts
        simp only [traffic, Function.update_self]
        rw [hsent, List.drop_left, List.flatMap_singleton, unit_eq hpeer]
        rfl
      have hi : n.phones i = w.phones i := congrFun hc.phones i
      rw [hsends]
      refine ⟨_, .single (.send (hi ▸ hcomplete)), ?_⟩
      rw [hi]
      refine carries_requests (carries_manager h hc hm) hpeer ?_
      intro hgone
      rw [hc.requests _ _ _ _ hpeer hgone]
  | @accept i k j _ hnone => exact ⟨n, .nil, carries_accept h hc hnone _ _⟩
  | @handle i s k o request reply rest hpeer hgone hqueue hanswer =>
      have hhandled : ∀ w', traffic w (.handle i s) w' = [.handle i k s] := by
        intro w'
        rw [traffic, unit_eq hpeer]
        rfl
      have hfront : n.requests (i, k, s) = request :: rest :=
        (hc.requests i s k o hpeer hgone).trans hqueue
      rw [hhandled]
      have hk : n.units k = w.units k := congrFun hc.units k
      refine ⟨_, .single (.handle hfront), ?_⟩
      rw [hk, hanswer]
      refine carries_replies (carries_requests (carries_units hc k _) hpeer fun _ => rfl) hpeer ?_
      intro j hs hne
      dsimp only at hs hne ⊢
      subst hs
      rw [hc.replies _ _ _ _ hpeer hne]
  | @process i j reply rest p hopen hqueue hp =>
      obtain ⟨⟨k, o⟩, hpeer⟩ := Option.isSome_iff_exists.mp (h.opened i j hopen)
      have hprocessed : ∀ w', traffic w (.process i j) w' = [.process i k (w.lives i, j)] := by
        intro w'
        rw [traffic, unit_eq hpeer]
        rfl
      have hne : (w.managers i).readyState j ≠ some .closed := by
        rw [hopen]
        decide
      have hfront : n.replies (i, k, w.lives i, j) = reply :: rest :=
        (hc.replies i j k o hpeer hne).trans hqueue
      rw [← hc.phones] at hp
      rw [hprocessed]
      exact ⟨_, .single (.process hfront hp),
        carries_replies (carries_phones hc i p) hpeer fun _ _ _ => rfl⟩
  | @close i s k o hpeer hgone =>
      exact ⟨n, .nil, carries_gone hc (fun _ => not_gone_of_close) _⟩
  | @unit k f s hs =>
      rw [← hc.units] at hs
      exact ⟨_, .single (.unit hs), carries_units hc k s⟩
  | @reboot k =>
      have hk : n.units k = w.units k := congrFun hc.units k
      refine ⟨_, .single .reboot, ?_⟩
      rw [hk]
      exact carries_gone (carries_units hc k _) (fun c hg => (Bool.or_eq_false_iff.mp hg).1) _

/-- **A run of the system** is what it is on connections. -/
theorem carries_run {places : Value → Bool} {toNumber : String → Number} {phones : ι → Phone}
    {units : κ → WebSocketServer.Server} {es : List (Event ι κ)}
    {fs : List (Texts.Event ι κ Key)} {w : System ι κ}
    (h : Lts.Trace (Step places toNumber) traffic (start phones units) es fs w) :
    ∃ n, Lts.Run (Texts.Step places toNumber) (texts phones units) fs n ∧ Carries w n := by
  have hsim : ∀ {w w' : System ι κ} {e : Event ι κ} {n : Texts.System ι κ Key},
      Inv w ∧ Carries w n → Step places toNumber w e w' →
      ∃ n', Lts.Run (Texts.Step places toNumber) n (traffic w e w') n'
        ∧ Inv w' ∧ Carries w' n' := by
    intro w w' e n hex hs
    obtain ⟨hi, hc⟩ := hex
    obtain ⟨n', hrun, hc'⟩ := carries_step hi hc hs
    exact ⟨n', hrun, inv_step hi hs, hc'⟩
  obtain ⟨n, hrun, _, hc⟩ := h.simulate_run (R := fun w n => Inv w ∧ Carries w n) hsim
    ⟨inv_start phones units, carries_start phones units⟩
  exact ⟨n, hrun, hc⟩

/--
**What goes over the sockets is a run of `Texts`**, and on README-format data a run of
`Network`: whatever the managers make of their sockets, however many of them are open at
a time and whichever end closes first, each phone and each unit holds what it would
hold on connections that simply carry the texts.
-/
theorem sockets_simulated {places : Value → Bool} {toNumber : String → Number}
    {phones : ι → Phone} {units : κ → WebSocketServer.Server} {es : List (Event ι κ)}
    {fs : List (Texts.Event ι κ Key)} {w : System ι κ}
    (h : Lts.Trace (Step places toNumber) traffic (start phones units) es fs w) :
    ∃ n, Lts.Run (Texts.Step places toNumber) (texts phones units) fs n
      ∧ n.phones = w.phones ∧ n.units = w.units
      ∧ ∀ n₀ : Network ι κ Key, PlacesAll places → SystemRep places (texts phones units) n₀ →
        ∀ gss, List.Forall₂ EventRep fs gss →
        ∃ n', Lts.Run Network.Step n₀ gss.flatten n'
          ∧ (∀ i, PhoneRep places (w.phones i) (n'.apps i))
          ∧ ∀ k, Readme.ServerRep (w.units k) (n'.units k) := by
  obtain ⟨n, hrun, hc⟩ := carries_run h
  refine ⟨n, hrun, hc.phones, hc.units, ?_⟩
  intro n₀ hplaces h0 gss hgss
  obtain ⟨n', hn', hrep⟩ := hrun.simulate_runs (step_rep hplaces) hgss h0
  refine ⟨n', hn', ?_, ?_⟩
  · intro i
    rw [← hc.phones]
    exact hrep.phones i
  · intro k
    rw [← hc.units]
    exact (hrep.units k).1

end

/-- A phone with nothing stored, and the README's unit without events. -/
def met : System Unit Unit :=
  start (Texts.start readmeUnit : Texts.System Unit Unit Key).phones
    (Texts.start readmeUnit : Texts.System Unit Unit Key).units

/-- The user reports an event, the phone connects, and its first upload is answered. -/
def reportConnectSync : List (Event Unit Unit) :=
  [.phone () (.create (some (Readme.readmeEvent Readme.idA).latlng) "fire" Readme.idA
      (Readme.readmeEvent Readme.idA).timestamp),
    .manager () .initServer, .accept () () 0, .manager () (.opened 0), .manager () (.tick 1),
    .handle () (0, 0), .process () 0]

/-- What of it goes over the connection. -/
def reportSync : List (Texts.Event Unit Unit Key) :=
  [.phone () (.app (.create (some (Readme.readmeEvent Readme.idA).latlng) "fire" Readme.idA
      (Readme.readmeEvent Readme.idA).timestamp)),
    .send () () (0, 0), .handle () () (0, 0), .process () () (0, 0)]

theorem trace_reportConnectSync :
    ∃ w, Lts.Trace (Step hasLatLng Number.mk) traffic met reportConnectSync reportSync w := by
  have hfire : "fire" ∈ Draw.event_types.map Prod.fst := by decide
  exact ⟨_, .cons_eq (.phone nofun ⟨⟨rfl, hfire⟩, rfl⟩)
    (.cons_eq (.manager ⟨trivial, rfl⟩ rfl (fun _ => rfl) nofun)
      (.cons_eq (.accept rfl rfl)
        (.cons_eq (.manager ⟨rfl, rfl⟩ rfl nofun (by rintro j ⟨⟩; rfl))
          (.cons_eq (.upload ⟨⟨.update, rfl⟩, rfl⟩ rfl)
            (.cons_eq (.handle rfl rfl rfl rfl)
              (.cons_eq (.process rfl rfl ⟨⟨rfl, trivial⟩, rfl⟩) .nil rfl) rfl) rfl) rfl) rfl)
      rfl) rfl⟩

theorem run_reportConnectSync :
    ∃ w, Lts.Run (Step hasLatLng Number.mk) met reportConnectSync w := by
  obtain ⟨w, htrace⟩ := trace_reportConnectSync
  exact ⟨w, htrace.run⟩

/-- The phone and the unit hold what an app and a server of `Network` hold after the same. -/
theorem sockets_simulated_reportConnectSync : ∃ w n n',
    Lts.Trace (Step hasLatLng Number.mk) traffic met reportConnectSync reportSync w
      ∧ Lts.Run (Texts.Step hasLatLng Number.mk) (texts met.phones met.units) reportSync n
      ∧ n.phones = w.phones ∧ n.units = w.units
      ∧ Lts.Run Network.Step (Network.opened (fun _ => {}) readmeUnit)
        [.create () (Readme.readmeEvent Readme.idA).latlng "fire" Readme.idA
            (Readme.readmeEvent Readme.idA).timestamp,
          .send () () (0, 0), .handle () () (0, 0), .process () () (0, 0)] n'
      ∧ (∀ i, PhoneRep hasLatLng (w.phones i) (n'.apps i))
      ∧ ∀ k, Readme.ServerRep (w.units k) (n'.units k) := by
  obtain ⟨w, htrace⟩ := trace_reportConnectSync
  obtain ⟨n, hn, hphones, hunits, hnetwork⟩ := sockets_simulated htrace
  have hrep : SystemRep hasLatLng (texts met.phones met.units)
      (Network.opened (fun _ => {}) readmeUnit : Network Unit Unit Key) :=
    start_rep hasLatLng fun _ _ hm => absurd hm List.not_mem_nil
  have hlabels : List.Forall₂ EventRep reportSync [_, _, _, _] :=
    .cons .create (.cons .send (.cons .handle (.cons .process .nil)))
  obtain ⟨n', hn', hphones', hunits'⟩ := hnetwork _ placesAll_hasLatLng hrep _ hlabels
  exact ⟨w, n, n', htrace, hn, hphones, hunits, hn', hphones', hunits'⟩

/-- The phone connects, and drops the connection again. -/
def comeAndGo : List (Event Unit Unit) :=
  [.manager () .initServer, .accept () () 0, .manager () (.opened 0), .close () (0, 0)]

theorem run_comeAndGo :
    ∃ w, Lts.Run (Lts.Guarded (Step hasLatLng Number.mk) Orderly) met comeAndGo w := by
  have hclose : ∀ w : System Unit Unit, (w.registries ()).connections = [⟨-1, false⟩] →
      w.peers ((), 0, 0) = some ((), 0) → Orderly w (.close () (0, 0)) := by
    intro w hconnections hpeer k n hpeer' cl hcl
    rw [hpeer] at hpeer'
    cases hpeer'
    rw [hconnections] at hcl
    cases hcl
    -- there is no younger connection
    intro j hj
    have hlt := lt_of_connected hj
    rw [hconnections] at hlt
    exact Nat.le_of_lt_succ hlt
  exact ⟨_, .cons ⟨.manager ⟨trivial, rfl⟩ rfl (fun _ => rfl) nofun, trivial⟩
    (.cons ⟨.accept rfl rfl, trivial⟩
      (.cons ⟨.manager ⟨rfl, rfl⟩ rfl nofun (by rintro j ⟨⟩; rfl), trivial⟩
        (.single ⟨.close rfl rfl, hclose _ rfl rfl⟩)))⟩

/-- The unit enters the one socket and, when it sees it close, takes it out again. -/
theorem listed_iff_comeAndGo : Lts.Always (Step hasLatLng Number.mk) Listed met comeAndGo := by
  obtain ⟨w, hrun⟩ := run_comeAndGo
  exact (listed_iff hrun.unguard).mpr hrun

end EssApp.Sync.Sockets
