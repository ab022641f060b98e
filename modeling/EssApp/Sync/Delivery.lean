import EssApp.Readme.Reboot
import EssApp.Sync.Provenance

/-!
# From a phone to the broker

The network again, with a quick broker: a unit's tick and the callback of what it sends
are one turn, as in `Turns`; everything else may still happen in any order, messages
may be late or lost, phones may delete, other units may fail.

Then an event that has reached a connected unit is delivered. Either some copy of it
was marked before it came, and then some unit had transmitted it already
(`flagged_turn`), or it waits in this unit's file, and each tick of the unit leaves one
event less in front of it (`due_step`). Both say the same in the end: after as many
ticks as events waited, the event has been handed to a broker (`delivered`).
-/

namespace EssApp.Sync.Delivery

open Readme Network

variable {ι κ γ : Type} [DecidableEq ι] [DecidableEq κ] [DecidableEq γ]

/-- A step of the network in which the units take turns. -/
inductive Turn (w : Network ι κ γ) : Network.Event ι κ γ → Network ι κ γ → Prop where
  | other {e : Network.Event ι κ γ} {w' : Network ι κ γ} : (∀ k f, e ≠ .unit k f) →
      Network.Step w e w' → Turn w e w'
  | unit {k : κ} {f : Readme.Event} {s : Server} : TurnStep (w.units k) f s →
      Turn w (.unit k f) { w with units := Function.update w.units k s }

/-- Turns are runs of the network, each callback right behind its tick. -/
theorem exists_run_of_turns {w w' : Network ι κ γ} {es : List (Network.Event ι κ γ)}
    (h : Lts.Run Turn w es w') : ∃ es', Lts.Run Network.Step w es' w' := by
  induction h with
  | nil => exact ⟨[], .nil⟩
  | @cons w _ _ _ _ hs _ ih =>
      obtain ⟨es', hr⟩ := ih
      cases hs with
      | other _ hstep => exact ⟨_, .cons hstep hr⟩
      | @unit k f s hturn =>
          have hsingle : Readme.Step _ f s → ∃ es', Lts.Run Network.Step _ es' _ :=
            fun hstep => ⟨_, .cons (.unit hstep) hr⟩
          cases hturn with
          | connect h => exact hsingle h
          | client h => exact hsingle h
          | mqtt h => exact hsingle h
          | idle h _ => exact hsingle h
          | @sent t _ h _ hcb =>
              -- the unit is overwritten twice
              rw [← Function.update_idem (v := t)] at hr
              have hcb' : Readme.Step (Function.update w.units k t k)
                  (.published (w.units k).publishes.length .success) s := by
                rw [Function.update_self]
                exact hcb
              exact ⟨_, .cons (.unit h) (.cons (.unit hcb') hr)⟩

/-- The ticks of unit `k`. -/
def ticksAt (k : κ) : List (Network.Event ι κ γ) → Nat
  | [] => 0
  | .unit j .tick :: es => ticksAt k es + if j = k then 1 else 0
  | _ :: es => ticksAt k es

/-- In some turn of the run, some unit handed the event to its broker. -/
def Transmitted (apps : ι → App) (dbs : κ → Database) (es : List (Network.Event ι κ γ))
    (id : EventId) : Prop :=
  ∃ pre k post u s m, es = pre ++ .unit k .tick :: post ∧ Lts.Run Turn (opened apps dbs) pre u
    ∧ TurnStep (u.units k) .tick s ∧ m ∈ since (u.units k) s ∧ m.id = id

/-- Nothing is left to do about the event. -/
def Done (apps : ι → App) (dbs : κ → Database) (es : List (Network.Event ι κ γ)) (id : EventId) :
    Prop :=
  ToldReported apps dbs es id ∨ Transmitted apps dbs es id

theorem Done.later {apps : ι → App} {dbs : κ → Database} {es : List (Network.Event ι κ γ)}
    {id : EventId} (h : Done apps dbs es id) (e : Network.Event ι κ γ) :
    Done apps dbs (es ++ [e]) id := by
  rcases h with ⟨m, hm, hr, hid⟩ | ⟨pre, k, post, u, s, m, rfl, hrun, hturn, hm, hid⟩
  · exact Or.inl ⟨m, hm.later e, hr, hid⟩
  · refine Or.inr ⟨pre, k, post ++ [e], u, s, m, ?_, hrun, hturn, hm, hid⟩
    rw [List.append_assoc]
    rfl

/-- What a tick hands over is done with. -/
theorem done_of_since {apps : ι → App} {dbs : κ → Database} {es : List (Network.Event ι κ γ)}
    {w : Network ι κ γ} (hrun : Lts.Run Turn (opened apps dbs) es w) {k : κ} {s : Server}
    {m : Marker} (hturn : TurnStep (w.units k) .tick s) (hm : m ∈ since (w.units k) s) :
    Done apps dbs (es ++ [.unit k .tick]) m.id :=
  Or.inr ⟨es, k, [], w, s, m, rfl, hrun, hturn, hm, rfl⟩

/-! ## What is marked is done with -/

/-- The marks of every copy are accounted for. -/
def Flagged (apps : ι → App) (dbs : κ → Database) (es : List (Network.Event ι κ γ))
    (w : Network ι κ γ) : Prop :=
  Copies (fun m => m.reported = true → Done apps dbs es m.id) w

theorem flagged_init (apps : ι → App) (dbs : κ → Database) :
    Flagged apps dbs [] (opened apps dbs : Network ι κ γ) where
  apps _ m hm hr := Or.inl ⟨m, .app hm, hr, rfl⟩
  units k m hm hr := Or.inl ⟨m, .unit (k := k) hm, hr, rfl⟩
  requests _ _ hr := absurd hr List.not_mem_nil
  replies _ _ hr := absurd hr List.not_mem_nil

/-- **Nobody marks an event that was not transmitted.** -/
theorem flagged_turn {apps : ι → App} {dbs : κ → Database} {es : List (Network.Event ι κ γ)}
    {e : Network.Event ι κ γ} {w w' : Network ι κ γ} (hrun : Lts.Run Turn (opened apps dbs) es w)
    (h : Flagged apps dbs es w) (hs : Turn w e w') : Flagged apps dbs (es ++ [e]) w' := by
  have hkept : ∀ m : Marker, (m.reported = true → Done apps dbs es m.id) →
      m.reported = true → Done apps dbs (es ++ [e]) m.id :=
    fun m hm hr => (hm hr).later e
  cases hs with
  | other hne hstep =>
      refine copies_step h hstep hkept hkept ?_ ?_ ?_
      · nofun
      · intro k f he
        exact absurd he (hne k f)
      · intro m hex
        obtain ⟨k, i, d, p, he, _⟩ := hex
        exact absurd he (hne k _)
  | @unit k f s hturn =>
      have hall := h.imp hkept
      refine ⟨hall.apps, ?_, hall.requests, hall.replies⟩
      refine forall_update (P := fun s : Server => ∀ m ∈ s.database.markers,
        m.reported = true → Done apps dbs (es ++ [.unit k f]) m.id) hall.units ?_
      have heff := life_effect (.turn hturn)
      generalize hout : handed (w.units k) (.turn f) s = out at heff
      cases heff with
      | quiet hdb =>
          rw [hdb]
          exact hall.units k
      | merged hpay hdb =>
          rw [hdb]
          intro m hm hr
          rcases mem_merge hm with hm | ⟨x, hx, _, rfl⟩
          · exact hall.units k m hm hr
          · -- it came as a reported one
            have hlast : Network.Event.unit k f ∈ es ++ [.unit k f] :=
              List.mem_append_right es (List.mem_singleton_self _)
            exact Or.inl ⟨x, .message hlast (hpay ▸ hx), hr, rfl⟩
      | @answered before after m₀ _ hms _ hdb =>
          rw [hdb]
          have hsince : m₀.report ∈ since (w.units k) s := by
            obtain ⟨m, hm, heq⟩ := List.map_eq_singleton_iff.mp hout
            rw [hm]
            cases heq
            exact List.mem_singleton_self _
          intro m hm hr
          rcases List.mem_append.mp hm with hm | hm
          · exact hall.units k m (hms ▸ List.mem_append_left _ hm) hr
          · rcases List.mem_cons.mp hm with rfl | hm
            · exact done_of_since hrun hturn hsince
            · exact hall.units k m
                (hms ▸ List.mem_append_right _ (List.mem_cons_of_mem _ hm)) hr

/-! ## What waits gets nearer -/

/-- The event is in the file of unit `k`, with fewer than `n` unreported ones in front of it. -/
def Waits (k : κ) (X : EventId) (n : Nat) (w : Network ι κ γ) : Prop :=
  ∃ before m after, (w.units k).database.markers = before ++ m :: after ∧ m.id = X
    ∧ m.reported = false ∧ unreported before < n

/-- **What the rest of the network does to a unit** that does not fail is a message, or nothing. -/
theorem turn_unit {w w' : Network ι κ γ} {e : Network.Event ι κ γ} (hs : Turn w e w') {k : κ}
    (hne : e ≠ .reboot k) :
    (w'.units k = w.units k ∧ ticksAt k [e] = 0)
      ∨ ∃ f, TurnStep (w.units k) f (w'.units k) ∧ ticks [f] = ticksAt k [e]
        ∧ (f = .tick → e = .unit k .tick) := by
  cases hs with
  | @unit j f s hturn =>
      by_cases hj : j = k
      · subst hj
        refine Or.inr ⟨f, ?_, ?_, ?_⟩
        · dsimp only
          rw [Function.update_self]
          exact hturn
        · cases f <;> simp [ticksAt, ticks, isTick]
        · intro heq₁
          subst heq₁
          rfl
      · refine Or.inl ⟨Function.update_of_ne (Ne.symm hj) _ _, ?_⟩
        cases f <;> simp [ticksAt, hj]
  | other hunit hstep =>
      cases hstep with
      | create => exact Or.inl ⟨rfl, rfl⟩
      | delete => exact Or.inl ⟨rfl, rfl⟩
      | send => exact Or.inl ⟨rfl, rfl⟩
      | process _ => exact Or.inl ⟨rfl, rfl⟩
      | drop => exact Or.inl ⟨rfl, rfl⟩
      | unit _ => exact absurd rfl (hunit _ _)
      | @reboot j =>
          have hj : k ≠ j := fun hkj => hne (by rw [hkj])
          exact Or.inl ⟨Function.update_of_ne hj _ _, rfl⟩
      | @handle i j c request rest hreq =>
          by_cases hj : k = j
          · subst hj
            refine Or.inr ⟨.clientMessage request, ?_, rfl, fun h => by cases h⟩
            dsimp only
            rw [Function.update_self]
            exact .client ⟨trivial, rfl⟩
          · exact Or.inl ⟨Function.update_of_ne hj _ _, rfl⟩

theorem ready_turn {w w' : Network ι κ γ} {e : Network.Event ι κ γ} {k : κ}
    (h : ReadyInv (w.units k)) (hs : Turn w e w') (hne : e ≠ .reboot k) :
    ReadyInv (w'.units k) := by
  rcases turn_unit hs hne with ⟨heq, _⟩ | ⟨f, hturn, _⟩
  · rw [heq]
    exact h
  · exact readyInv_turn h hturn

/-- **The step lemma**: each tick of the unit leaves one event less in front of it. -/
theorem due_step {apps : ι → App} {dbs : κ → Database} {es : List (Network.Event ι κ γ)}
    {e : Network.Event ι κ γ} {w w' : Network ι κ γ} {k : κ} {X : EventId} {n : Nat}
    (hrun : Lts.Run Turn (opened apps dbs) es w) (hready : ReadyInv (w.units k))
    (h : Done apps dbs es X ∨ Waits k X n w) (hs : Turn w e w') (hne : e ≠ .reboot k) :
    Done apps dbs (es ++ [e]) X ∨ Waits k X (n - ticksAt k [e]) w' := by
  rcases h with hdone | ⟨before, m, after, hms, rfl, hm, hlt⟩
  · exact Or.inl (hdone.later e)
  · rcases turn_unit hs hne with ⟨heq, hzero⟩ | ⟨f, hturn, hticks, htick⟩
    · rw [hzero]
      exact Or.inr ⟨before, m, after, heq ▸ hms, rfl, hm, hlt⟩
    · by_cases hle : ticks [f] ≤ unreported before
      · obtain ⟨before', after', hms', hcount⟩ := behind_turn hready hturn hms hle
        exact Or.inr ⟨before', m, after', hms', rfl, hm, by omega⟩
      · -- a tick, and nothing in front of the event: it is its turn
        have hf : f = .tick := by
          cases f with
          | tick => rfl
          | _ => exact absurd (Nat.zero_le _) hle
        subst hf
        have hone : ticks [Readme.Event.tick] = 1 := rfl
        have hb := unreported_eq_zero.mp (by omega : unreported before = 0)
        obtain ⟨htransmits, _⟩ := tick_first hready.txEnabled hturn hms hb hm
        have hsince : m.report ∈ since (w.units k) (w'.units k) := by
          rw [since_transmits htransmits]
          exact List.mem_singleton_self _
        have hdone : Done apps dbs (es ++ [.unit k .tick]) m.report.id :=
          done_of_since hrun hturn hsince
        rw [htick rfl]
        exact Or.inl hdone

omit [DecidableEq ι] [DecidableEq γ] in
theorem ticksAt_cons (k : κ) (e : Network.Event ι κ γ) (es : List (Network.Event ι κ γ)) :
    ticksAt k (e :: es) = ticksAt k [e] + ticksAt k es := by
  cases e with
  | unit j f => cases f <;> simp [ticksAt, Nat.add_comm]
  | _ => simp [ticksAt]

/-- **The run lemma.** -/
theorem due_run {apps : ι → App} {dbs : κ → Database} {k : κ} {X : EventId}
    {u v : Network ι κ γ} {es : List (Network.Event ι κ γ)} (hrun : Lts.Run Turn u es v)
    (hne : .reboot k ∉ es) {pre : List (Network.Event ι κ γ)} {n : Nat}
    (hpre : Lts.Run Turn (opened apps dbs) pre u) (hready : ReadyInv (u.units k))
    (h : Done apps dbs pre X ∨ Waits k X n u) :
    Done apps dbs (pre ++ es) X ∨ Waits k X (n - ticksAt k es) v := by
  induction hrun generalizing pre n with
  | nil =>
      rw [List.append_nil]
      exact h
  | @cons u u' v e es hs _ ih =>
      have he : e ≠ .reboot k := fun he => hne (he ▸ List.mem_cons_self)
      have hrest := ih (fun hmem => hne (List.mem_cons_of_mem _ hmem)) (hpre.append (.single hs))
        (ready_turn hready hs he) (due_step hpre hready h hs he)
      rw [List.append_assoc, List.singleton_append, Nat.sub_sub, ← ticksAt_cons] at hrest
      exact hrest

/-- What is in the file is done with after as many ticks as events wait there. -/
theorem done_run {apps : ι → App} {dbs : κ → Database} {pre es : List (Network.Event ι κ γ)}
    {u v : Network ι κ γ} (hpre : Lts.Run Turn (opened apps dbs) pre u) {k : κ} {X : EventId}
    (hX : X ∈ ids (u.units k).database.markers) (hready : ReadyInv (u.units k))
    (hrun : Lts.Run Turn u es v) (hne : .reboot k ∉ es)
    (hticks : unreported (u.units k).database.markers ≤ ticksAt k es) :
    Done apps dbs (pre ++ es) X := by
  have hflags := hpre.history (I := Flagged apps dbs) flagged_turn (flagged_init apps dbs)
  obtain ⟨m, hm, rfl⟩ := mem_ids.mp hX
  have h : Done apps dbs pre m.id
      ∨ Waits k m.id (unreported (u.units k).database.markers) u := by
    by_cases hr : m.reported = true
    · exact Or.inl (hflags.units k m hm hr)
    · obtain ⟨before, after, hms⟩ := List.append_of_mem hm
      have hr' : m.reported = false := by simpa using hr
      refine Or.inr ⟨before, m, after, hms, rfl, hr', ?_⟩
      rw [hms, unreported, unreported, List.countP_append, List.countP_cons_of_pos (by simp [hr'])]
      omega
  rcases due_run hrun hne hpre hready h with hdone | ⟨_, _, _, _, _, _, hlt⟩
  · exact hdone
  · omega

/--
**Whatever reaches a connected unit is delivered.** If an event is in the file of a unit
that is connected and does not fail meanwhile, then after as many ticks of that unit as
events wait in its file, whatever else goes on in the network, some unit has handed the
event to its broker, or it came marked as reported.
-/
theorem delivered {apps : ι → App} {dbs : κ → Database} {pre es : List (Network.Event ι κ γ)}
    {u v : Network ι κ γ} (hpre : Lts.Run Turn (opened apps dbs) pre u) {k : κ} {X : EventId}
    (hX : X ∈ ids (u.units k).database.markers) (htx : (u.units k).txEnabled = true)
    (hn : (ids (u.units k).database.markers).Nodup) (hrun : Lts.Run Turn u es v)
    (hne : .reboot k ∉ es) (hticks : unreported (u.units k).database.markers ≤ ticksAt k es) :
    ToldReported apps dbs (pre ++ es) X
      ∨ ∃ pre' j post u' s m, pre ++ es = pre' ++ .unit j .tick :: post
        ∧ Lts.Run Turn (opened apps dbs) pre' u' ∧ TurnStep (u'.units j) .tick s
        ∧ m ∈ since (u'.units j) s ∧ m.id = X :=
  done_run hpre hX ⟨htx, hn⟩ hrun hne hticks

/-- The user reports an event, the phone's request is handled, the unit finds its broker. -/
def reportAndSend : List (Network.Event Unit Unit Unit) :=
  [.create () (readmeEvent idA).latlng "fire" idA (readmeEvent idA).timestamp,
    .send () () (), .handle () () (), .unit () .connect]

/-- Then the unit is connected and has one event to transmit. -/
theorem run_reportAndSend :
    ∃ u, Lts.Run Turn met reportAndSend u ∧ idA ∈ ids (u.units ()).database.markers
      ∧ (u.units ()).txEnabled = true ∧ (ids (u.units ()).database.markers).Nodup
      ∧ unreported (u.units ()).database.markers = 1 := by
  refine ⟨_, .cons (.other nofun .create) (.cons (.other nofun .send)
    (.cons (.other nofun (.handle rfl))
      (.single (.unit (.connect ⟨trivial, rfl⟩))))), ?_⟩
  decide

/-- One tick later it has been transmitted, although the connection to the phone is gone. -/
theorem delivered_reportAndSend :
    ToldReported (fun _ => {}) (fun _ => readmeDatabase [])
        (reportAndSend ++ [.drop () () (), .unit () .tick]) idA
      ∨ ∃ pre' j post u' s m,
        reportAndSend ++ [.drop () () (), .unit () .tick] = pre' ++ .unit j .tick :: post
        ∧ Lts.Run Turn met pre' u' ∧ TurnStep (u'.units j) .tick s
        ∧ m ∈ since (u'.units j) s ∧ m.id = idA := by
  obtain ⟨u, hpre, hX, htx, hn, hone⟩ := run_reportAndSend
  obtain ⟨t, ht⟩ := exists_turn htx
  have hrun : Lts.Run Turn u [.drop () () (), .unit () .tick] _ :=
    .cons (.other nofun .drop) (.single (.unit ht))
  exact delivered hpre hX htx hn hrun (by simp) (by rw [hone]; decide)

end EssApp.Sync.Delivery
