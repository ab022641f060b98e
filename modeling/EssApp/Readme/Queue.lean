import EssApp.Lib.Fifo
import EssApp.Readme.Turns

/-!
# The file as a queue

With a quick broker the unreported events of the file are a queue in the exact sense
of `Fifo`: a message puts in, in its order, the first event of each id that the file lacks,
unless that is reported already, and a tick takes the first out and transmits it
(`turn_queue`). So what is transmitted over any run is what waited at its start and
what was put in since, in this order, each event once, and nothing else.
-/

namespace EssApp.Readme

/-- What still has to be transmitted. -/
def waits (m : Marker) : Bool := !m.reported

def queue (s : Server) : List Marker := s.database.markers.filter waits

/-- What was handed to the broker between two moments of a run. -/
def since (s t : Server) : List Marker :=
  (t.publishes.drop s.publishes.length).filterMap Publish.data

/-- What a message puts in: of the ids that the file lacks, the first event each, if it waits. -/
def arrivals (s : Server) (ms : List Marker) : List Marker :=
  (((Keyed.firsts Marker.id ms).filter fun m => m.id ∉ ids s.database.markers).map
    Marker.validate).filter waits

/-- The operation of the queue that an event of the server is. -/
def operation (s : Server) : Event → Fifo.Op Marker
  | .tick => .take
  | e => .put (arrivals s (payload e))

/-- **A merge appends**, in the order of the message, the first event of each new id. -/
theorem merge_appends {local_db : Database} (hn : (ids local_db.markers).Nodup)
    (remote_db : Database) :
    (mergeDatabases local_db remote_db).markers = local_db.markers
      ++ ((Keyed.firsts Marker.id remote_db.markers).filter fun m =>
        m.id ∉ ids local_db.markers).map Marker.validate := by
  rw [markers_mergeDatabases, collapsed, Keyed.collapse_of_nodup hn,
    Keyed.absorb_eq Marker.validate_id]
  rfl

/-- The file is split at the first event that waits, if there is one. -/
theorem queue_cases (ms : List Marker) :
    (∀ m ∈ ms, m.reported = true) ∨ ∃ before m after, ms = before ++ m :: after
      ∧ (∀ x ∈ before, x.reported = true) ∧ m.reported = false := by
  by_cases h : ∃ m ∈ ms, waits m = true
  · obtain ⟨before, m, after, hms, hb, hm⟩ := Places.exists_first h
    exact Or.inr ⟨before, m, after, hms, fun x hx => by simpa [waits] using hb x hx,
      by simpa [waits] using hm⟩
  · refine Or.inl ?_
    intro m hm
    by_contra hr
    exact h ⟨m, hm, by simpa [waits] using hr⟩

theorem filter_waits_of_reported {ms : List Marker} (h : ∀ m ∈ ms, m.reported = true) :
    ms.filter waits = [] := by
  refine List.filter_eq_nil_iff.mpr ?_
  intro m hm
  simp [waits, h m hm]

/-- What waits, split at the first. -/
theorem filter_waits_first {before after : List Marker} {m : Marker}
    (hb : ∀ x ∈ before, x.reported = true) (hm : m.reported = false) :
    (before ++ m :: after).filter waits = m :: after.filter waits
      ∧ (before ++ m.report :: after).filter waits = after.filter waits := by
  have hwaits : waits m = true := by simp [waits, hm]
  have hreport : ¬ waits m.report = true := by simp [waits, Marker.report]
  rw [List.filter_append, List.filter_append, filter_waits_of_reported hb,
    List.filter_cons_of_pos hwaits, List.filter_cons_of_neg hreport]
  exact ⟨rfl, rfl⟩

theorem since_self (s : Server) : since s s = [] := by
  rw [since, List.drop_length]
  rfl

theorem since_transmits {s t : Server} {m : Marker} (h : Transmits s t m) : since s t = [m] := by
  obtain ⟨p, hp, hdata, _⟩ := h
  rw [since, hp, List.drop_left, List.filterMap_cons_some hdata]
  rfl

/-- **What a turn does to the queue**, and what it hands to the broker. -/
theorem turn_queue {s t : Server} {e : Event} (h : ReadyInv s) (hs : TurnStep s e t) :
    Fifo.Step (queue s) (operation s e) (queue t)
      ∧ since s t = (Fifo.taken (queue s) (operation s e) (queue t)).map Marker.report := by
  have hput : ∀ db : Database, Fifo.Step (queue s) (.put (arrivals s db.markers))
      ((mergeDatabases s.database db).markers.filter waits) := by
    intro db
    rw [merge_appends h.distinct db, List.filter_append]
    exact .put
  have htick : e = .tick → Fifo.Step (queue s) (operation s e) (queue t)
      ∧ since s t = (Fifo.taken (queue s) (operation s e) (queue t)).map Marker.report := by
    intro he
    subst he
    rw [operation]
    rcases queue_cases s.database.markers with hall | ⟨before, m, after, hms, hb, hm⟩
    · obtain rfl := tick_none h.txEnabled hs hall
      have hempty : queue t = [] := filter_waits_of_reported hall
      rw [hempty, since_self]
      exact ⟨.idle, rfl⟩
    · obtain ⟨htransmits, hdb⟩ := tick_first h.txEnabled hs hms hb hm
      have hq : queue s = m :: after.filter waits := by
        rw [queue, hms, (filter_waits_first hb hm).1]
      have hq' : queue t = after.filter waits := by
        rw [queue, hdb, (filter_waits_first hb hm).2]
      rw [hq, hq', since_transmits htransmits]
      exact ⟨.take, rfl⟩
  have htx := h.txEnabled
  cases turn_effect htx hs with
  | connect =>
      refine ⟨?_, since_self s⟩
      have hstep : Fifo.Step (queue s) (.put []) (queue s ++ []) := .put
      rwa [List.append_nil] at hstep
  | @client db => exact ⟨hput db, since_self s⟩
  | @mqtt db => exact ⟨hput db, since_self s⟩
  | idle _ => exact htick rfl
  | sent _ => exact htick rfl

/-! ## Runs -/

/-- A turn only adds to what was handed to the broker. -/
theorem prefix_turn {s t : Server} {e : Event} (h : ReadyInv s) (hs : TurnStep s e t) :
    s.publishes <+: t.publishes := by
  have htx := h.txEnabled
  cases turn_effect htx hs with
  | sent _ => exact List.prefix_append _ _
  | _ => exact List.prefix_refl _

theorem since_trans {s t u : Server} (h : s.publishes <+: t.publishes)
    (h' : t.publishes <+: u.publishes) : since s u = since s t ++ since t u := by
  obtain ⟨ps, hps⟩ := h
  obtain ⟨qs, hqs⟩ := h'
  have hu : u.publishes = s.publishes ++ (ps ++ qs) := by rw [← hqs, ← hps, List.append_assoc]
  have hps' : t.publishes.drop s.publishes.length = ps := by rw [← hps, List.drop_left]
  have hqs' : u.publishes.drop t.publishes.length = qs := by rw [← hqs, List.drop_left]
  rw [since, since, since, hps', hqs', hu, List.drop_left, List.filterMap_append]

/-- The turns of a run put out what was handed to the broker over the run. -/
theorem trace_since {s t : Server} {es : List Event} (h : ReadyInv s)
    (hrun : Lts.Run TurnStep s es t) :
    Lts.Trace TurnStep (fun u _ v => since u v) s es (since s t) t := by
  obtain ⟨bs, htrace⟩ : ∃ bs, Lts.Trace TurnStep (fun u _ v => since u v) s es bs t :=
    Lts.Trace.exists_of_run hrun
  have hinv := htrace.invariant
    (I := fun bs u => ReadyInv u ∧ s.publishes <+: u.publishes ∧ bs = since s u) ?_
    ⟨h, List.prefix_refl _, (since_self s).symm⟩
  · rw [← hinv.2.2]
    exact htrace
  · intro bs u e v hex hs
    obtain ⟨hu, hpre, rfl⟩ := hex
    have hpre' := prefix_turn hu hs
    exact ⟨readyInv_turn hu hs, hpre.trans hpre', (since_trans hpre hpre').symm⟩

/-- As many ticks as attempts to take something out. -/
theorem takes_eq_ticks {s t : Server} {es : List Event} {ops : List (Fifo.Op Marker)}
    (h : Lts.Trace TurnStep (fun u e _ => [operation u e]) s es ops t) :
    Fifo.takes ops = ticks es := by
  induction h with
  | nil => rfl
  | @cons s t u e es ops hs _ ih =>
      cases e with
      | tick =>
          show Fifo.takes ops + 1 = _
          rw [ih]
          exact (List.countP_cons_of_pos rfl).symm
      | _ =>
          show Fifo.takes ops = _
          rw [ih]
          exact (List.countP_cons_of_neg (by simp [isTick])).symm

/--
**The transmission loop is a queue**: every run in turns is one of `Fifo`, in which a
message puts in the first event of each id that the file then lacks, if it waits, a tick
takes one out, and what is handed to the broker is what was taken out, marked. So nothing
that was put in is lost, and after as many ticks as events waited at the start, all of these
have been handed over, first to last.
-/
theorem queue_simulated {s t : Server} {es : List Event} (htx : s.txEnabled = true)
    (hn : (ids s.database.markers).Nodup) (hrun : Lts.Run TurnStep s es t) :
    ∃ ops xs, Lts.Trace TurnStep (fun u e _ => [operation u e]) s es ops t
      ∧ Lts.Trace Fifo.Step Fifo.taken (queue s) ops xs (queue t)
      ∧ since s t = xs.map Marker.report
      ∧ xs ++ queue t = queue s ++ Fifo.puts ops
      ∧ (unreported s.database.markers ≤ ticks es →
        (queue s).map Marker.report <+: since s t) := by
  have hready : ReadyInv s := ⟨htx, hn⟩
  have hsim : ∀ {u : Server} {e : Event} {v : Server} {q : List Marker},
      ReadyInv u ∧ q = queue u → TurnStep u e v →
      ∃ q', Fifo.Step q (operation u e) q' ∧ (ReadyInv v ∧ q' = queue v)
        ∧ since u v = (Fifo.taken q (operation u e) q').map Marker.report := by
    intro u e v q hex hs
    obtain ⟨hu, rfl⟩ := hex
    obtain ⟨hstep, hout⟩ := turn_queue hu hs
    exact ⟨queue v, hstep, ⟨readyInv_turn hu hs, rfl⟩, hout⟩
  have hsimulated := (trace_since hready hrun).simulate (R := fun u q => ReadyInv u ∧ q = queue u)
    (f := operation) (g := Marker.report) hsim ⟨hready, rfl⟩
  obtain ⟨ops, xs, q, hops, htrace, ⟨_, rfl⟩, hsince⟩ := hsimulated
  refine ⟨ops, xs, hops, htrace, hsince, Fifo.conservation htrace, ?_⟩
  intro hle
  have hlen : (queue s).length ≤ Fifo.takes ops := by
    rw [takes_eq_ticks hops, queue, ← List.countP_eq_length_filter]
    exact hle
  rw [hsince]
  exact (Fifo.served htrace (List.prefix_refl _) hlen).map Marker.report

/-- Two ticks, and a message between them that brings nothing new. -/
theorem run_waiting :
    Lts.Run TurnStep waiting [.tick, repeated, .tick]
      (transmitted (handle (transmitted waiting 0) repeated) 1) := by
  have h₁ : TurnStep waiting .tick (transmitted waiting 0) :=
    .sent ⟨trivial, rfl⟩ (by decide) ⟨⟨_, rfl, rfl⟩, rfl⟩
  have h₂ : TurnStep (transmitted waiting 0) repeated (handle (transmitted waiting 0) repeated) :=
    .client ⟨trivial, rfl⟩
  have h₃ : TurnStep (handle (transmitted waiting 0) repeated) .tick
      (transmitted (handle (transmitted waiting 0) repeated) 1) :=
    .sent ⟨trivial, rfl⟩ (by decide) ⟨⟨_, rfl, rfl⟩, rfl⟩
  exact .cons h₁ (.cons h₂ (.single h₃))

/-- Both events that waited have been handed over, in this order. -/
theorem queue_simulated_waiting :
    [(readmeEvent idA).report, (readmeEvent idB).report]
      <+: since waiting (transmitted (handle (transmitted waiting 0) repeated) 1) := by
  have hn : (ids waiting.database.markers).Nodup := by decide
  obtain ⟨_, _, _, _, _, _, hserved⟩ := queue_simulated rfl hn run_waiting
  exact hserved (by decide)

/-! ## The order of the file -/

/-- What was sent and what waits stand in the file in this order. -/
def InOrder (bs : List Marker) (s : Server) : Prop :=
  (ids bs ++ ids (queue s)).Sublist (ids s.database.markers)

theorem ids_append (ms ms' : List Marker) : ids (ms ++ ms') = ids ms ++ ids ms' :=
  List.map_append

/-- **A turn keeps the order**: what it sends is the first that waits. -/
theorem inOrder_turn {bs : List Marker} {s t : Server} {e : Event} (h : ReadyInv s)
    (ho : InOrder bs s) (hs : TurnStep s e t) : InOrder (bs ++ since s t) t := by
  have hmerge : ∀ db : Database, (ids (bs ++ []) ++
      ids ((mergeDatabases s.database db).markers.filter waits)).Sublist
        (ids (mergeDatabases s.database db).markers) := by
    intro db
    rw [merge_appends h.distinct db, List.append_nil, List.filter_append, ids_append, ids_append,
      ← List.append_assoc]
    exact ho.append (List.filter_sublist.map _)
  have htick : e = .tick → ids t.database.markers = ids s.database.markers →
      InOrder (bs ++ since s t) t := by
    intro he hids
    subst he
    obtain ⟨hstep, hsince⟩ := turn_queue h hs
    rw [operation] at hstep hsince
    -- the front of the queue moves over to what was sent
    have hfront : ids (since s t) ++ ids (queue t) = ids (queue s) := by
      rw [hsince]
      generalize queue s = q at hstep
      generalize queue t = q' at hstep
      cases hstep <;> rfl
    rw [InOrder, ids_append, List.append_assoc, hfront, hids]
    exact ho
  have htx := h.txEnabled
  cases turn_effect htx hs with
  | connect =>
      rw [since_self, List.append_nil]
      exact ho
  | @client db =>
      have hnone : since s { s with database := mergeDatabases s.database db } = [] := since_self s
      rw [hnone]
      exact hmerge db
  | @mqtt db =>
      have hnone : since s { s with database := mergeDatabases s.database db } = [] := since_self s
      rw [hnone]
      exact hmerge db
  | idle _ => exact htick rfl rfl
  | sent _ => exact htick rfl (ids_setReported _ _)

/--
**Each event is transmitted once, in the order of the file.** Over any run in turns, what
was handed to the broker and what still waits stand in the file in this order, which
has no id twice.
-/
theorem transmitted_once {s t : Server} {es : List Event} (htx : s.txEnabled = true)
    (hn : (ids s.database.markers).Nodup) (hrun : Lts.Run TurnStep s es t) :
    (ids (since s t) ++ ids (queue t)).Sublist (ids t.database.markers)
      ∧ (ids t.database.markers).Nodup := by
  have hready : ReadyInv s := ⟨htx, hn⟩
  have htrace := trace_since hready hrun
  have hinv := htrace.invariant (I := fun bs u => ReadyInv u ∧ InOrder bs u)
    (fun hi hs => ⟨readyInv_turn hi.1 hs, inOrder_turn hi.1 hi.2 hs⟩)
    ⟨hready, List.filter_sublist.map _⟩
  exact ⟨hinv.2, hinv.1.distinct⟩

/-- The message that repeats the first event does not have it transmitted again. -/
theorem transmitted_once_waiting :
    (ids (since waiting (transmitted (handle (transmitted waiting 0) repeated) 1))
        ++ ids (queue (transmitted (handle (transmitted waiting 0) repeated) 1))).Sublist
      [idA, idB] := by
  have hn : (ids waiting.database.markers).Nodup := by decide
  exact (transmitted_once rfl hn run_waiting).1

end EssApp.Readme
