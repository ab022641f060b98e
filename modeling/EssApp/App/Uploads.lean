import EssApp.App.Connection

/-!
# The periodic upload

An update interval is meant to run exactly while the app is connected, that is
while the socket in `private.socket` is open. Every `onopen` starts one and every
`onclose` stops one, whichever socket it belongs to, and this is where it fails: a
connection that takes longer than a retry period is dropped and replaced, and when
it opens after all, its `onopen` starts an upload for a socket nobody asked about.

`uploads_iff` is the exact account. The uploads follow the connection as long as a
socket is only replaced while it is not open, only the current one opens, and only
the current one closes while that one is open; any other step breaks it at once.
-/

namespace EssApp.Connection

namespace Manager

/-- The socket in `private.socket` is open. -/
def CurrentOpen (m : Manager) : Prop :=
  ∃ i, m.socket = some i ∧ m.readyState i = some .opened

theorem currentOpen_congr {m m' : Manager} (hs : m'.sockets = m.sockets)
    (hc : m'.socket = m.socket) : m'.CurrentOpen ↔ m.CurrentOpen := by
  simp only [CurrentOpen, readyState, hs, hc]

/-- A socket that was just created is not open. -/
theorem not_currentOpen_initServer (m : Manager) : ¬ m.initServer.CurrentOpen := by
  rintro ⟨i, hi, hopen⟩
  obtain rfl := Option.some.inj hi
  rw [readyState, initServer, List.getElem?_concat_length] at hopen
  cases hopen

theorem currentOpen_setReadyState_self {m : Manager} {i : Nat} {r r' : ReadyState}
    (hc : m.socket = some i) (hr : m.readyState i = some r') :
    (m.setReadyState i r).CurrentOpen ↔ r = .opened := by
  have hself : (m.setReadyState i r).readyState i = some r := by
    rw [readyState_setReadyState, hr, Option.map_some, if_pos rfl]
  constructor
  · rintro ⟨j, hj, hopen⟩
    have hij : i = j := Option.some.inj (hc.symm.trans hj)
    rw [← hij, hself] at hopen
    exact Option.some.inj hopen
  · intro h
    exact ⟨i, hc, by rw [hself, h]⟩

theorem currentOpen_setReadyState_ne {m : Manager} {i : Nat} (r : ReadyState)
    (hc : m.socket ≠ some i) : (m.setReadyState i r).CurrentOpen ↔ m.CurrentOpen := by
  refine exists_congr ?_
  intro j
  refine and_congr_right ?_
  intro hj
  have hij : i ≠ j := fun h => hc (h ▸ hj)
  rw [readyState_setReadyState]
  cases m.readyState j with
  | none => rfl
  | some r' => rw [Option.map_some, if_neg hij]

end Manager

/-- What the upload owes its user. -/
structure UploadsWhileOpen (m : Manager) : Prop where
  /-- At most one update interval is live. -/
  once : (m.live .update).length ≤ 1
  /-- One is live exactly while the current socket is open. -/
  live_iff : m.live .update ≠ [] ↔ m.CurrentOpen

/-- The steps that do not disturb it. -/
def Orderly (m : Manager) : Event → Prop
  | .initServer => ¬ m.CurrentOpen
  | .tick id => Table.get m.intervals id = some .retry → ¬ m.CurrentOpen
  | .opened i => m.socket = some i
  | .closed i => m.socket = some i ∨ ¬ m.CurrentOpen

/-- As long as nothing went wrong, no update interval is lost. -/
structure Tracked (m : Manager) : Prop where
  retries : Retries m
  /-- `updTimerId` is the only update interval. -/
  updates : m.live .update = m.updTimerId.toList

theorem tracked_start : Tracked start := ⟨retries_start, rfl⟩

theorem uploadsWhileOpen_start : UploadsWhileOpen start where
  once := Nat.zero_le 1
  live_iff := by
    refine ⟨fun h => absurd rfl h, ?_⟩
    rintro ⟨i, hi, _⟩
    cases hi

/-- With no update interval live, what is owed is that no connection stands. -/
theorem uploadsWhileOpen_of_nil {m : Manager} (h : m.live .update = []) :
    UploadsWhileOpen m ↔ ¬ m.CurrentOpen := by
  constructor
  · intro hu hc
    exact hu.live_iff.mpr hc h
  · intro hc
    refine ⟨by rw [h]; exact Nat.zero_le 1, ?_⟩
    exact ⟨fun hne => absurd h hne, fun ho => absurd ho hc⟩

/-- A new socket is no connection, so what ran for the old one is one too many. -/
theorem uploadsWhileOpen_initServer {m : Manager} (h : UploadsWhileOpen m) :
    UploadsWhileOpen m.initServer ↔ ¬ m.CurrentOpen := by
  have hlive : m.initServer.live .update = m.live .update := rfl
  constructor
  · intro hu hc
    have hne : m.initServer.live .update ≠ [] := hlive ▸ h.live_iff.mpr hc
    exact Manager.not_currentOpen_initServer m (hu.live_iff.mp hne)
  · intro hc
    have hnil : m.live .update = [] := by
      by_contra hne
      exact hc (h.live_iff.mp hne)
    exact (uploadsWhileOpen_of_nil (hlive.trans hnil)).mpr (Manager.not_currentOpen_initServer m)

/-- An `onopen` is in order if it is the current socket's. -/
theorem uploadsWhileOpen_opened {m : Manager} {i : Nat} (ht : Tracked m)
    (h : UploadsWhileOpen m) (hi : m.readyState i = some .connecting) :
    UploadsWhileOpen (m.setReadyState i .opened).onopen ↔ m.socket = some i := by
  obtain ⟨_, _, _, hlive⟩ := onopen_spec (ht.retries.timers.setReadyState i .opened)
  have hlive' : (m.setReadyState i .opened).onopen.live .update
      = m.live .update ++ [m.nextId] := hlive
  have hcur := Manager.currentOpen_congr (sockets_onopen (m.setReadyState i .opened))
    (socket_onopen (m.setReadyState i .opened))
  constructor
  · intro hu
    by_contra hne
    rw [Manager.currentOpen_setReadyState_ne _ hne] at hcur
    -- there is an upload now, so the current socket, another one, is open, and had its own
    have hopen : m.CurrentOpen := by
      refine hcur.mp (hu.live_iff.mp ?_)
      rw [hlive']
      exact List.concat_ne_nil _ _
    have hpos := List.length_pos_iff.mpr (h.live_iff.mpr hopen)
    have honce := hu.once
    rw [hlive', List.length_append, List.length_singleton] at honce
    omega
  · intro hc
    rw [Manager.currentOpen_setReadyState_self hc hi] at hcur
    -- the current socket was connecting, so there was no upload before
    have hnot : ¬ m.CurrentOpen := by
      rintro ⟨j, hj, hopen⟩
      have hij : i = j := Option.some.inj (hc.symm.trans hj)
      rw [← hij, hi] at hopen
      cases hopen
    have hnil : m.live .update = [] := by
      by_contra hne
      exact hnot (h.live_iff.mp hne)
    rw [hnil, List.nil_append] at hlive'
    refine ⟨by rw [hlive']; exact Nat.le_refl 1, ?_⟩
    refine ⟨fun _ => hcur.mpr rfl, fun _ => ?_⟩
    rw [hlive']
    exact List.cons_ne_nil _ _

/-- An `onclose` is in order if it is the current socket's, or no connection stands. -/
theorem uploadsWhileOpen_closed {m : Manager} {i : Nat} {r : ReadyState} (ht : Tracked m)
    (hi : m.readyState i = some r) :
    (m.setReadyState i .closed).onclose.live .update = []
      ∧ (UploadsWhileOpen (m.setReadyState i .closed).onclose
        ↔ m.socket = some i ∨ ¬ m.CurrentOpen) := by
  obtain ⟨_, _, _, hlive⟩ := onclose_spec (ht.retries.timers.setReadyState i .closed)
  -- the one interval there was is the one it stops
  have hnil : (m.setReadyState i .closed).onclose.live .update = [] := by
    rw [hlive]
    show (m.live .update).filter _ = []
    rw [ht.updates]
    show List.filter (fun j => some j ≠ m.updTimerId) _ = []
    cases m.updTimerId <;> simp
  refine ⟨hnil, ?_⟩
  have hcur := Manager.currentOpen_congr (onclose_sockets (m.setReadyState i .closed)).1
    (onclose_sockets (m.setReadyState i .closed)).2
  rw [uploadsWhileOpen_of_nil hnil, hcur]
  by_cases hc : m.socket = some i
  · rw [Manager.currentOpen_setReadyState_self hc hi]
    exact ⟨fun _ => Or.inl hc, fun _ h => by cases h⟩
  · rw [Manager.currentOpen_setReadyState_ne _ hc]
    exact ⟨Or.inr, fun h => h.resolve_left hc⟩

/-- **What a step needs** to keep the uploads in line with the connection. -/
theorem uploadsWhileOpen_step {m m' : Manager} {e : Event} (ht : Tracked m)
    (h : UploadsWhileOpen m) (hs : Step m e m') : UploadsWhileOpen m' ↔ Orderly m e := by
  cases step_effect ht.retries.attached hs with
  | created => exact uploadsWhileOpen_initServer h
  | retried hget =>
      refine (uploadsWhileOpen_initServer h).trans ?_
      exact ⟨fun hc _ => hc, fun hc => hc hget⟩
  | uploaded hget =>
      -- an upload changes no timer and no socket
      refine ⟨fun _ hc => ?_, fun _ => ⟨h.once, h.live_iff⟩⟩
      rw [hget] at hc
      cases hc
  | opened hi => exact uploadsWhileOpen_opened ht h hi
  | closed hi _ => exact (uploadsWhileOpen_closed ht hi).2

theorem tracked_step {m m' : Manager} {e : Event} (ht : Tracked m) (h : UploadsWhileOpen m)
    (ho : Orderly m e) (hs : Step m e m') : Tracked m' := by
  refine ⟨retries_step ht.retries hs, ?_⟩
  have hu := (uploadsWhileOpen_step ht h hs).mpr ho
  cases step_effect ht.retries.attached hs with
  | created => exact ht.updates
  | retried _ => exact ht.updates
  | uploaded _ => exact ht.updates
  | @opened i hi =>
      obtain ⟨_, _, hid, hlive⟩ := onopen_spec (ht.retries.timers.setReadyState i .opened)
      -- of at most one interval, the one just started is the one
      have honce := hu.once
      rw [hlive, List.length_append, List.length_singleton] at honce
      have hnil : (m.setReadyState i .opened).live .update = [] :=
        List.eq_nil_of_length_eq_zero (by omega)
      rw [hlive, hid, hnil]
      rfl
  | @closed i r hi _ =>
      obtain ⟨_, _, hnone, _⟩ := onclose_spec (ht.retries.timers.setReadyState i .closed)
      rw [(uploadsWhileOpen_closed ht hi).1, hnone]
      rfl

/-- **The upload runs exactly while the app is connected** in the runs of orderly steps. -/
theorem uploads_iff {es : List Event} {m : Manager} (h : Lts.Run Step start es m) :
    Lts.Always Step UploadsWhileOpen start es
      ↔ Lts.Run (Lts.Guarded Step Orderly) start es m :=
  Lts.always_iff_guarded (I := Tracked) step_deterministic tracked_step uploadsWhileOpen_step h
    tracked_start uploadsWhileOpen_start

/-- A first attempt fails, the second connects, and the Witness Unit goes away. -/
theorem uploads_iff_of_retry :
    Lts.Always Step UploadsWhileOpen start
        [.initServer, .closed 0, .tick 1, .opened 1, .closed 1]
      ↔ Lts.Run (Lts.Guarded Step Orderly) start
        [.initServer, .closed 0, .tick 1, .opened 1, .closed 1]
        ([.initServer, .closed 0, .tick 1, .opened 1, .closed 1].foldl handle start) :=
  uploads_iff (.cons ⟨trivial, rfl⟩ (.cons ⟨⟨.connecting, rfl, by decide⟩, rfl⟩
    (.cons ⟨⟨.retry, rfl⟩, rfl⟩ (.cons ⟨rfl, rfl⟩
      (.cons ⟨⟨.opened, rfl, by decide⟩, rfl⟩ .nil)))))

/-- After a failed attempt, the second takes longer than a retry period, and so does the third. -/
def slowConnection : List Event :=
  [.initServer, .closed 0, .tick 1, .tick 1, .opened 1, .opened 2]

/-- **The code does not keep this**: both connections open, and the app uploads twice over. -/
theorem slowConnection_uploads_twice :
    Lts.Run Step start slowConnection (slowConnection.foldl handle start)
      ∧ ((slowConnection.foldl handle start).live .update).length = 2
      ∧ ¬ UploadsWhileOpen (slowConnection.foldl handle start) := by
  refine ⟨?_, rfl, ?_⟩
  · exact .cons ⟨trivial, rfl⟩ (.cons ⟨⟨.connecting, rfl, by decide⟩, rfl⟩
      (.cons ⟨⟨.retry, rfl⟩, rfl⟩ (.cons ⟨⟨.retry, rfl⟩, rfl⟩
        (.cons ⟨rfl, rfl⟩ (.cons ⟨rfl, rfl⟩ .nil)))))
  · intro h
    exact absurd h.once (by decide)

end EssApp.Connection
