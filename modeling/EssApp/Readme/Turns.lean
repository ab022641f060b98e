import EssApp.Lib.Places
import EssApp.Readme.Server

/-!
# Every event gets its turn

The transmission loop when the broker is quick: the callback of a tick's publish
comes before anything else, without an error. Such a tick and its callback are one
turn, every message is one by itself.

The file then behaves like a queue that nothing is taken out of. A message only
appends to it (`prefix_merge`), and a tick sets the flag of the first event that has
none. So the events in front of an event are the same at all times, and each tick
leaves one less of them unreported.
-/

namespace EssApp.Readme

/-- **One turn**: a tick with the callback of its publish, if it made one; or a message alone. -/
inductive TurnStep (s : Server) : Event → Server → Prop where
  | connect {t : Server} : Step s .connect t → TurnStep s .connect t
  | client {remote_db : Database} {t : Server} :
      Step s (.clientMessage remote_db) t → TurnStep s (.clientMessage remote_db) t
  | mqtt {remote_db : Database} {t : Server} :
      Step s (.mqttMessage remote_db) t → TurnStep s (.mqttMessage remote_db) t
  | idle {t : Server} :
      Step s .tick t → t.publishes.length = s.publishes.length → TurnStep s .tick t
  | sent {u t : Server} :
      Step s .tick u → s.publishes.length < u.publishes.length →
      Step u (.published s.publishes.length .success) t → TurnStep s .tick t

/-- Between two moments one publish was made, it sent `m`, and its callback has run. -/
def Transmits (s t : Server) (m : Marker) : Prop :=
  ∃ p : Publish, t.publishes = s.publishes ++ [p] ∧ p.data = some m ∧ p.delivery = some .success

def isTick : Event → Bool
  | .tick => true
  | _ => false

def ticks (es : List Event) : Nat := es.countP isTick

/-- How many of the events still wait for their transmission. -/
def unreported (ms : List Marker) : Nat := ms.countP fun m => !m.reported

/-! ## What a turn does -/

/-- The server is connected to the broker, and the ids in its file are distinct. -/
structure ReadyInv (s : Server) : Prop where
  txEnabled : s.txEnabled = true
  distinct : (ids s.database.markers).Nodup

/-- The state behind a turn that transmits the event at `k`. -/
def transmitted (s : Server) (k : Nat) : Server :=
  { s with
    publishes := s.publishes ++
      [{ local_db := setReported s.database k, k := k, delivery := some .success }],
    database := setReported s.database k }

/-- **Everything a turn can do.** -/
inductive TurnEffect (s : Server) : Event → Server → Prop where
  | connect : TurnEffect s .connect s
  | client {remote_db : Database} : TurnEffect s (.clientMessage remote_db)
      { s with database := mergeDatabases s.database remote_db }
  | mqtt {remote_db : Database} : TurnEffect s (.mqttMessage remote_db)
      { s with database := mergeDatabases s.database remote_db }
  | idle : firstUnreported s.database.markers = none → TurnEffect s .tick s
  | sent {k : Nat} : firstUnreported s.database.markers = some k →
      TurnEffect s .tick (transmitted s k)

theorem onTimer_none {s : Server} (h : firstUnreported s.database.markers = none) :
    onTimer s = s := by
  rw [onTimer, h]
  exact ite_self s

theorem onTimer_some {s : Server} {k : Nat} (htx : s.txEnabled = true)
    (h : firstUnreported s.database.markers = some k) :
    onTimer s = { s with
      publishes := s.publishes ++ [{ local_db := setReported s.database k, k := k }] } := by
  rw [onTimer, if_pos htx, h]

/-- The callback sets a flag that its snapshot has already. -/
theorem onPublished_last (s : Server) (k : Nat) :
    onPublished { s with
        publishes := s.publishes ++ [{ local_db := setReported s.database k, k := k }] }
      s.publishes.length .success = transmitted s k := by
  have hget : ∀ p : Publish, (s.publishes ++ [p])[s.publishes.length]? = some p :=
    fun _ => List.getElem?_concat_length
  simp only [onPublished, hget, setReported_setReported]
  rw [List.set_append_right _ _ (Nat.le_refl _), Nat.sub_self]
  rfl

theorem turn_effect {s t : Server} {e : Event} (htx : s.txEnabled = true)
    (h : TurnStep s e t) : TurnEffect s e t := by
  cases h with
  | connect h =>
      obtain ⟨_, rfl⟩ := h
      have hs : handle s .connect = s := by
        show ({ s with txEnabled := true } : Server) = s
        rw [← htx]
      rw [hs]
      exact .connect
  | client h =>
      obtain ⟨_, rfl⟩ := h
      exact .client
  | mqtt h =>
      obtain ⟨_, rfl⟩ := h
      exact .mqtt
  | idle h hlen =>
      obtain ⟨_, rfl⟩ := h
      cases hf : firstUnreported s.database.markers with
      | none =>
          rw [show handle s .tick = s from onTimer_none hf]
          exact .idle hf
      | some k =>
          -- with something to send, the tick makes one publish more
          rw [show handle s .tick = _ from onTimer_some htx hf] at hlen
          exact absurd hlen (by simp)
  | sent h hlen hcb =>
      obtain ⟨_, rfl⟩ := h
      obtain ⟨_, rfl⟩ := hcb
      cases hf : firstUnreported s.database.markers with
      | none =>
          rw [show handle s .tick = s from onTimer_none hf] at hlen
          exact absurd hlen (Nat.lt_irrefl _)
      | some k =>
          rw [show handle s .tick = _ from onTimer_some htx hf, handle, onPublished_last]
          exact .sent hf

/-- A run in turns is a run of the server, with each callback right behind its tick. -/
theorem exists_run_of_turns {s t : Server} {es : List Event} (h : Lts.Run TurnStep s es t) :
    ∃ es', Lts.Run Step s es' t := by
  induction h with
  | nil => exact ⟨[], .nil⟩
  | cons hs _ ih =>
      obtain ⟨es', hr⟩ := ih
      cases hs with
      | connect h => exact ⟨_, .cons h hr⟩
      | client h => exact ⟨_, .cons h hr⟩
      | mqtt h => exact ⟨_, .cons h hr⟩
      | idle h _ => exact ⟨_, .cons h hr⟩
      | sent h _ hcb => exact ⟨_, .cons h (.cons hcb hr)⟩

theorem readyInv_turn {s t : Server} {e : Event} (h : ReadyInv s) (hs : TurnStep s e t) :
    ReadyInv t := by
  cases turn_effect h.txEnabled hs with
  | connect => exact h
  | client => exact ⟨h.txEnabled, nodup_merge _ _⟩
  | mqtt => exact ⟨h.txEnabled, nodup_merge _ _⟩
  | idle _ => exact h
  | @sent k _ =>
      refine ⟨h.txEnabled, ?_⟩
      show (ids (setReported s.database k).markers).Nodup
      rw [ids_setReported]
      exact h.distinct

/-- The timer can always fire, and the callback of what it sends can always run. -/
theorem exists_turn {s : Server} (htx : s.txEnabled = true) : ∃ t, TurnStep s .tick t := by
  have htick : Step s .tick (onTimer s) := ⟨trivial, rfl⟩
  cases hf : firstUnreported s.database.markers with
  | none => exact ⟨_, .idle htick (by rw [onTimer_none hf])⟩
  | some k =>
      rw [onTimer_some htx hf] at htick
      have hen : Enabled { s with publishes := s.publishes ++
          [{ local_db := setReported s.database k, k := k }] }
          (.published s.publishes.length .success) := ⟨_, List.getElem?_concat_length, rfl⟩
      refine ⟨_, .sent htick ?_ ⟨hen, rfl⟩⟩
      rw [List.length_append]
      exact Nat.lt_succ_self _

/-! ## Which event is the first -/

theorem unreported_eq_zero {ms : List Marker} :
    unreported ms = 0 ↔ ∀ m ∈ ms, m.reported = true := by
  simp [unreported, List.countP_eq_zero]

/-- One flag more, one event less to wait for. -/
theorem unreported_flag {before after : List Marker} {m : Marker} (hm : m.reported = false) :
    1 + unreported (before ++ m.report :: after) = unreported (before ++ m :: after) := by
  simp only [unreported, List.countP_append, List.countP_cons, Marker.report, hm]
  show 1 + (_ + (_ + 0)) = _ + (_ + 1)
  omega

theorem firstUnreported_eq_none {ms : List Marker} :
    firstUnreported ms = none ↔ ∀ m ∈ ms, m.reported = true := by
  simp [firstUnreported, List.findIdx?_eq_none_iff]

theorem firstUnreported_eq_some {before after : List Marker} {m : Marker}
    (hb : ∀ x ∈ before, x.reported = true) (hm : m.reported = false) :
    firstUnreported (before ++ m :: after) = some before.length :=
  Places.findIdx?_append_cons (fun x hx => by rw [hb x hx]; rfl) (by rw [hm]; rfl)

/-- **A tick that finds an event** transmits the first and sets its flag in the file. -/
theorem tick_first {s t : Server} {before after : List Marker} {m : Marker}
    (htx : s.txEnabled = true) (hs : TurnStep s .tick t)
    (hms : s.database.markers = before ++ m :: after) (hb : ∀ x ∈ before, x.reported = true)
    (hm : m.reported = false) :
    Transmits s t m.report
      ∧ t.database = { s.database with markers := before ++ m.report :: after } := by
  have hfirst : firstUnreported s.database.markers = some before.length := by
    rw [hms]
    exact firstUnreported_eq_some hb hm
  have hset : setReported s.database before.length
      = { s.database with markers := before ++ m.report :: after } := by
    rw [setReported, hms, Places.modify_append_cons]
  cases turn_effect htx hs with
  | idle hnone =>
      rw [hnone] at hfirst
      cases hfirst
  | @sent k hk =>
      obtain rfl := Option.some.inj (hk.symm.trans hfirst)
      refine ⟨⟨_, rfl, ?_, rfl⟩, hset⟩
      -- the snapshot holds the flagged event where the search stopped
      show (setReported s.database before.length).markers[before.length]? = some m.report
      rw [hset]
      show (before ++ m.report :: after)[before.length]? = _
      rw [List.getElem?_append_right (Nat.le_refl _), Nat.sub_self]
      rfl

/-- **A tick that finds none** changes nothing. -/
theorem tick_none {s t : Server} (htx : s.txEnabled = true) (hs : TurnStep s .tick t)
    (hall : ∀ m ∈ s.database.markers, m.reported = true) : t = s := by
  cases turn_effect htx hs with
  | idle _ => rfl
  | sent hk =>
      rw [firstUnreported_eq_none.mpr hall] at hk
      cases hk

/-! ## Who is in front -/

/-- A message puts nothing in front of an event, and changes nothing there. -/
theorem behind_merge {db : Database} {before after : List Marker} {m : Marker}
    (hn : (ids db.markers).Nodup) (hms : db.markers = before ++ m :: after)
    (remote_db : Database) :
    ∃ after', (mergeDatabases db remote_db).markers = before ++ m :: after' := by
  obtain ⟨new, hnew⟩ := prefix_merge hn remote_db
  refine ⟨after ++ new, ?_⟩
  rw [← hnew, hms, List.append_assoc, List.cons_append]

/--
**The step lemma.** While events in front of it wait, an event stays as it is, and
each tick leaves one less of them.
-/
theorem behind_turn {s t : Server} {e : Event} {before after : List Marker} {m : Marker}
    (h : ReadyInv s) (hs : TurnStep s e t) (hms : s.database.markers = before ++ m :: after)
    (hle : ticks [e] ≤ unreported before) :
    ∃ before' after', t.database.markers = before' ++ m :: after'
      ∧ ticks [e] + unreported before' = unreported before := by
  have htick : e = .tick → ∃ before' after', t.database.markers = before' ++ m :: after'
      ∧ 1 + unreported before' = unreported before := by
    rintro rfl
    -- the first of all is one of those in front
    obtain ⟨b₁, x, b₂, hb, hrep, hx⟩ := Places.exists_first (List.countP_pos_iff.mp hle)
    subst hb
    rw [List.append_assoc, List.cons_append] at hms
    obtain ⟨_, hdb⟩ := tick_first h.txEnabled hs hms
      (fun y hy => by simpa using hrep y hy) (by simpa using hx)
    refine ⟨b₁ ++ x.report :: b₂, after, ?_, unreported_flag (by simpa using hx)⟩
    rw [hdb, List.append_assoc, List.cons_append]
  have htx := h.txEnabled
  cases turn_effect htx hs with
  | connect => exact ⟨before, after, hms, Nat.zero_add _⟩
  | client =>
      obtain ⟨after', ha⟩ := behind_merge h.distinct hms _
      exact ⟨before, after', ha, Nat.zero_add _⟩
  | mqtt =>
      obtain ⟨after', ha⟩ := behind_merge h.distinct hms _
      exact ⟨before, after', ha, Nat.zero_add _⟩
  | idle _ => exact htick rfl
  | sent _ => exact htick rfl

/-- **The run lemma**: as many ticks, as many events less in front. -/
theorem behind_run {s u : Server} {es : List Event} (hrun : Lts.Run TurnStep s es u)
    {before after : List Marker} {m : Marker} (h : ReadyInv s)
    (hms : s.database.markers = before ++ m :: after) (hle : ticks es ≤ unreported before) :
    ∃ before' after', u.database.markers = before' ++ m :: after'
      ∧ ticks es + unreported before' = unreported before := by
  induction hrun generalizing before after with
  | nil => exact ⟨before, after, hms, Nat.zero_add _⟩
  | @cons s t u e es hs _ ih =>
      have hsplit : ticks (e :: es) = ticks [e] + ticks es := by
        show List.countP isTick ([e] ++ es) = _
        exact List.countP_append
      obtain ⟨b₁, a₁, hms₁, hc₁⟩ := behind_turn h hs hms (by omega)
      obtain ⟨b₂, a₂, hms₂, hc₂⟩ := ih (readyInv_turn h hs) hms₁ (by omega)
      exact ⟨b₂, a₂, hms₂, by omega⟩

/--
**The transmission loop serves every event in turn.** At every moment of a run in
turns, a tick can come; if there are unreported events, it publishes exactly the
first in the stored order, flagged, and leaves the file with that flag set and
otherwise as it was; if there are none, it changes nothing. An event with `j`
unreported ones in front of it is published by the tick that follows `j` others,
whatever messages come in between.
-/
theorem served_in_turn {s₀ s : Server} {es : List Event} (htx : s₀.txEnabled = true)
    (hn : (ids s₀.database.markers).Nodup) (hrun : Lts.Run TurnStep s₀ es s) :
    (∃ t, TurnStep s .tick t)
      ∧ (∀ before m after t, s.database.markers = before ++ m :: after →
        (∀ x ∈ before, x.reported = true) → m.reported = false → TurnStep s .tick t →
        Transmits s t m.report
          ∧ t.database = { s.database with markers := before ++ m.report :: after })
      ∧ (∀ t, (∀ m ∈ s.database.markers, m.reported = true) → TurnStep s .tick t → t = s)
      ∧ (∀ before m after es' u v, s.database.markers = before ++ m :: after →
        m.reported = false → Lts.Run TurnStep s es' u → ticks es' = unreported before →
        TurnStep u .tick v → Transmits u v m.report) := by
  have hinv : ReadyInv s :=
    hrun.invariant (I := ReadyInv) readyInv_turn ⟨htx, hn⟩
  refine ⟨exists_turn hinv.txEnabled, ?_, ?_, ?_⟩
  · intro before m after t hms hb hm hs
    exact tick_first hinv.txEnabled hs hms hb hm
  · intro t hall hs
    exact tick_none hinv.txEnabled hs hall
  · intro before m after es' u v hms hm hrun' hticks hs
    have hu : ReadyInv u := hrun'.invariant (I := ReadyInv) readyInv_turn hinv
    obtain ⟨b, a, hms', hcount⟩ := behind_run hrun' hinv hms (Nat.le_of_eq hticks)
    -- after that many ticks nothing in front is left
    have hzero : unreported b = 0 := by omega
    exact (tick_first hu.txEnabled hs hms' (unreported_eq_zero.mp hzero) hm).1

/-- Two events wait, and the server is connected. -/
def waiting : Server :=
  { boot (readmeDatabase [readmeEvent idA, readmeEvent idB]) with txEnabled := true }

/-- A phone brings the first event once more, after that was transmitted. -/
def repeated : Event := .clientMessage (readmeDatabase [readmeEvent idA])

/-- The second event is the second tick's, message or not. -/
theorem served_in_turn_second :
    Transmits (handle (transmitted waiting 0) repeated)
      (transmitted (handle (transmitted waiting 0) repeated) 1) (readmeEvent idB).report := by
  have h₁ : TurnStep waiting .tick (transmitted waiting 0) :=
    .sent ⟨trivial, rfl⟩ (by decide) ⟨⟨_, rfl, rfl⟩, rfl⟩
  have h₂ : TurnStep (transmitted waiting 0) repeated (handle (transmitted waiting 0) repeated) :=
    .client ⟨trivial, rfl⟩
  have h₃ : TurnStep (handle (transmitted waiting 0) repeated) .tick
      (transmitted (handle (transmitted waiting 0) repeated) 1) :=
    .sent ⟨trivial, rfl⟩ (by decide) ⟨⟨_, rfl, rfl⟩, rfl⟩
  have h₀ : Lts.Run TurnStep waiting [] waiting := .nil
  obtain ⟨_, _, _, hserved⟩ := served_in_turn rfl (by decide) h₀
  exact hserved [readmeEvent idA] (readmeEvent idB) [] _ _ _ rfl rfl (.cons h₁ (.single h₂))
    rfl h₃

end EssApp.Readme
