import EssApp.Sync.Delivery

/-!
# Where a report gets to

What is in an app's list goes to a unit with the next upload. The upload waits behind
the requests that are on the connection already, and the unit handles them in order:
each that it handles leaves one less in front (`coming_step`). So unless the connection
breaks, the event is in the unit's file once one request more has been handled than
were on their way when it was sent (`in_file`). From there it goes two ways: to the
broker, by the ticks of the unit, as in `Delivery` (`reaches_broker`); and to the other
phones, with the replies to their own uploads, which come in order too
(`answering_step`, `reaches_phones`).
-/

namespace EssApp.Sync.Delivery

open Readme Network

variable {ι κ γ : Type} [DecidableEq ι] [DecidableEq κ] [DecidableEq γ]

/-- The requests that are handled on the connection `c`. -/
def handlesAt (c : ι × κ × γ) : List (Network.Event ι κ γ) → Nat
  | [] => 0
  | .handle i k d :: es => handlesAt c es + if (i, k, d) = c then 1 else 0
  | _ :: es => handlesAt c es

/-- The replies that are processed on it. -/
def processesAt (c : ι × κ × γ) : List (Network.Event ι κ γ) → Nat
  | [] => 0
  | .process i k d :: es => processesAt c es + if (i, k, d) = c then 1 else 0
  | _ :: es => processesAt c es

/-- The event is in the file of the unit, or in one of the next `n` requests on `c`. -/
def Coming (c : ι × κ × γ) (X : EventId) (n : Nat) (w : Network ι κ γ) : Prop :=
  X ∈ ids (w.units c.2.1).database.markers
    ∨ ∃ before r after, w.requests c = before ++ r :: after ∧ X ∈ ids r.markers
      ∧ before.length < n

/-! ## The file of a unit -/

theorem ids_subset_of_covers {ms ms' : List Marker} (h : Covers ms' ms) : ids ms ⊆ ids ms' := by
  intro X hX
  obtain ⟨m, hm, rfl⟩ := mem_ids.mp hX
  obtain ⟨m', hm', hid, _⟩ := h m hm
  exact mem_ids.mpr ⟨m', hm', hid⟩

/-- **A turn** loses nothing from a file, and has no id in it twice. -/
theorem file_turn {w w' : Network ι κ γ} {e : Network.Event ι κ γ} {k : κ}
    (hn : (ids (w.units k).database.markers).Nodup) (hs : Turn w e w') :
    Grows (w.units k) (w'.units k) ∧ (ids (w'.units k).database.markers).Nodup := by
  by_cases he : e = .reboot k
  · -- of a unit that fails the file is left
    subst he
    cases hs with
    | other _ hstep =>
        cases hstep with
        | reboot =>
            dsimp only
            rw [Function.update_self]
            exact ⟨covers_refl _, hn⟩
  · rcases turn_unit hs he with ⟨heq, _⟩ | ⟨f, hturn, _⟩
    · rw [heq]
      exact ⟨covers_refl _, hn⟩
    · exact ⟨grows_life hn (.turn hturn), nodup_life hn (.turn hturn)⟩

theorem nodup_turns {u v : Network ι κ γ} {es : List (Network.Event ι κ γ)} {k : κ}
    (h : Lts.Run Turn u es v) (hn : (ids (u.units k).database.markers).Nodup) :
    (ids (v.units k).database.markers).Nodup :=
  h.invariant (I := fun w => (ids (w.units k).database.markers).Nodup)
    (fun hn hs => (file_turn hn hs).2) hn

/-! ## What is on its way comes nearer -/

/-- **What a turn does to a connection**: the requests it handles and the replies it processes. -/
inductive Served (c : ι × κ × γ) (w w' : Network ι κ γ) : Nat → Nat → Prop where
  | neither {new : List Database} : w'.requests c = w.requests c ++ new →
      w'.replies c = w.replies c → Served c w w' 0 0
  | handled {r : Database} {rest : List Database} : w.requests c = r :: rest →
      w'.requests c = rest → w'.units c.2.1 = (onClientMessage (w.units c.2.1) r).2 →
      w'.replies c = w.replies c ++ [(w'.units c.2.1).database] → Served c w w' 1 0
  | processed {r : Database} {rest : List Database} : w.replies c = r :: rest →
      w'.requests c = w.requests c → w'.replies c = rest →
      w'.apps c.1 = (w.apps c.1).onmessage r → Served c w w' 0 1

theorem served_turn {w w' : Network ι κ γ} {e : Network.Event ι κ γ} (hs : Turn w e w')
    {c : ι × κ × γ} (hne : e ≠ .drop c.1 c.2.1 c.2.2) :
    Served c w w' (handlesAt c [e]) (processesAt c [e]) := by
  have hsame : ∀ {w' : Network ι κ γ}, w'.requests c = w.requests c →
      w'.replies c = w.replies c → Served c w w' 0 0 :=
    fun hreq hrep => .neither (hreq.trans (List.append_nil _).symm) hrep
  cases hs with
  | unit _ => exact hsame rfl rfl
  | other _ hstep =>
      cases hstep with
      | create => exact hsame rfl rfl
      | delete => exact hsame rfl rfl
      | unit _ => exact hsame rfl rfl
      | reboot => exact hsame rfl rfl
      | @send i k d =>
          by_cases hc : (i, k, d) = c
          · subst hc
            exact .neither (Function.update_self _ _ _) rfl
          · exact hsame (Function.update_of_ne (Ne.symm hc) _ _) rfl
      | @drop i k d =>
          have hc : c ≠ (i, k, d) := fun hc => hne (by rw [hc])
          exact hsame (Function.update_of_ne hc _ _) (Function.update_of_ne hc _ _)
      | @handle i k d r rest hreq =>
          by_cases hc : (i, k, d) = c
          · subst hc
            have hunit : Function.update w.units k (onClientMessage (w.units k) r).2 k
                = (onClientMessage (w.units k) r).2 := Function.update_self _ _ _
            rw [handlesAt, if_pos rfl]
            refine .handled hreq (Function.update_self _ _ _) hunit ?_
            dsimp only
            rw [hunit, Function.update_self]
            rfl
          · rw [handlesAt, if_neg hc]
            exact hsame (Function.update_of_ne (Ne.symm hc) _ _)
              (Function.update_of_ne (Ne.symm hc) _ _)
      | @process i k d r rest hrep =>
          by_cases hc : (i, k, d) = c
          · subst hc
            rw [processesAt, if_pos rfl]
            exact .processed hrep rfl (Function.update_self _ _ _) (Function.update_self _ _ _)
          · rw [processesAt, if_neg hc]
            exact hsame rfl (Function.update_of_ne (Ne.symm hc) _ _)

/-- **The step lemma**: each request that is handled leaves one less in front. -/
theorem coming_step {w w' : Network ι κ γ} {e : Network.Event ι κ γ} {c : ι × κ × γ}
    {X : EventId} {n : Nat} (hn : (ids (w.units c.2.1).database.markers).Nodup)
    (h : Coming c X n w) (hs : Turn w e w') (hne : e ≠ .drop c.1 c.2.1 c.2.2) :
    Coming c X (n - handlesAt c [e]) w' := by
  rcases h with hX | ⟨before, r, after, hq, hX, hlt⟩
  · exact Or.inl (ids_subset_of_covers (file_turn hn hs).1 hX)
  · have hserved := served_turn hs hne
    generalize handlesAt c [e] = p at hserved ⊢
    generalize processesAt c [e] = q at hserved
    cases hserved with
    | @neither new hreq _ =>
        refine Or.inr ⟨before, r, after ++ new, ?_, hX, hlt⟩
        rw [hreq, hq, List.append_assoc]
        rfl
    | processed _ hreq _ _ => exact Or.inr ⟨before, r, after, hreq.trans hq, hX, hlt⟩
    | handled hhead hreq hunit _ =>
        rw [hq] at hhead
        cases before with
        | nil =>
            -- it is the one that is handled
            obtain ⟨rfl, _⟩ := List.cons.inj hhead
            refine Or.inl ?_
            rw [hunit]
            exact mem_ids_merge.mpr (Or.inr hX)
        | cons b before =>
            obtain ⟨_, rfl⟩ := List.cons.inj hhead
            exact Or.inr ⟨before, r, after, hreq, hX, Nat.lt_sub_of_add_lt hlt⟩

theorem handlesAt_cons (c : ι × κ × γ) (e : Network.Event ι κ γ) (es : List (Network.Event ι κ γ)) :
    handlesAt c (e :: es) = handlesAt c [e] + handlesAt c es := by
  cases e with
  | handle i k d => simp [handlesAt, Nat.add_comm]
  | _ => simp [handlesAt]

/-- **The run lemma.** -/
theorem coming_run {u v : Network ι κ γ} {es : List (Network.Event ι κ γ)} {c : ι × κ × γ}
    {X : EventId} {n : Nat} (hrun : Lts.Run Turn u es v)
    (hn : (ids (u.units c.2.1).database.markers).Nodup) (hdrop : .drop c.1 c.2.1 c.2.2 ∉ es)
    (h : Coming c X n u) : Coming c X (n - handlesAt c es) v := by
  induction hrun generalizing n with
  | nil => exact h
  | @cons u u' v e es hs _ ih =>
      have hne : e ≠ .drop c.1 c.2.1 c.2.2 := fun he => hdrop (he ▸ List.mem_cons_self)
      have hrest := ih (file_turn hn hs).2 (fun hmem => hdrop (List.mem_cons_of_mem _ hmem))
        (coming_step hn h hs hne)
      rw [Nat.sub_sub, ← handlesAt_cons] at hrest
      exact hrest

/-- An upload is behind the requests that were there. -/
theorem coming_send {u w : Network ι κ γ} {i : ι} {k : κ} {c : γ} {X : EventId}
    (hX : X ∈ ids (u.apps i).marker_list) (hs : Turn u (.send i k c) w) :
    Coming (i, k, c) X ((u.requests (i, k, c)).length + 1) w := by
  cases hs with
  | other _ hstep =>
      cases hstep with
      | send =>
          exact Or.inr ⟨_, (u.apps i).database, [], Function.update_self _ _ _, hX,
            Nat.lt_succ_self _⟩

/-- **An upload gets into the file**, once as many requests are handled as were in front, and it. -/
theorem in_file {u v : Network ι κ γ} {mid : List (Network.Event ι κ γ)} {i : ι} {k : κ} {c : γ}
    {X : EventId} (hn : (ids (u.units k).database.markers).Nodup)
    (hX : X ∈ ids (u.apps i).marker_list) (hmid : Lts.Run Turn u (.send i k c :: mid) v)
    (hdrop : .drop i k c ∉ mid)
    (hhandles : (u.requests (i, k, c)).length < handlesAt (i, k, c) mid) :
    X ∈ ids (v.units k).database.markers := by
  cases hmid with
  | cons hs hmid =>
      have hcoming := coming_run hmid (file_turn hn hs).2 hdrop (coming_send hX hs)
      rw [Nat.sub_eq_zero_of_le hhandles] at hcoming
      rcases hcoming with hreached | ⟨_, _, _, _, _, hlt⟩
      · exact hreached
      · exact absurd hlt (Nat.not_lt_zero _)

/--
**A report reaches the broker.** If an event is in the app's list when the app uploads,
the connection stays and the unit handles as many requests on it as were on their way
and one more, then the event is in the unit's file; and if the unit is connected then
and does not fail, after as many ticks as events wait in its file some unit has handed
the event to its broker, or it was told as reported. It does not matter what else
happens, nor whether the user has deleted the event in the app meanwhile.
-/
theorem reaches_broker {apps : ι → App} {dbs : κ → Database}
    {pre mid es : List (Network.Event ι κ γ)} {u v w : Network ι κ γ} {i : ι} {k : κ} {c : γ}
    {X : EventId} (hn : (ids (dbs k).markers).Nodup) (hpre : Lts.Run Turn (opened apps dbs) pre u)
    (hX : X ∈ ids (u.apps i).marker_list) (hmid : Lts.Run Turn u (.send i k c :: mid) v)
    (hdrop : .drop i k c ∉ mid)
    (hhandles : (u.requests (i, k, c)).length < handlesAt (i, k, c) mid)
    (htx : (v.units k).txEnabled = true) (hes : Lts.Run Turn v es w) (hne : .reboot k ∉ es)
    (hticks : unreported (v.units k).database.markers ≤ ticksAt k es) :
    X ∈ ids (v.units k).database.markers
      ∧ (ToldReported apps dbs (pre ++ .send i k c :: mid ++ es) X
        ∨ ∃ pre' j post u' s m, pre ++ .send i k c :: mid ++ es = pre' ++ .unit j .tick :: post
          ∧ Lts.Run Turn (opened apps dbs) pre' u' ∧ TurnStep (u'.units j) .tick s
          ∧ m ∈ since (u'.units j) s ∧ m.id = X) := by
  have hfile := nodup_turns hpre hn
  have hready : ReadyInv (v.units k) := ⟨htx, nodup_turns hmid hfile⟩
  have hreached := in_file hfile hX hmid hdrop hhandles
  exact ⟨hreached, done_run (hpre.append hmid) hreached hready hes hne hticks⟩

/-- The user reports an event. -/
def firstReport : List (Network.Event Unit Unit Unit) :=
  [.create () (readmeEvent idA).latlng "fire" idA (readmeEvent idA).timestamp]

/-- Behind the upload, the unit handles it and finds its broker; the user deletes the event. -/
def firstSync : List (Network.Event Unit Unit Unit) :=
  [.handle () () (), .unit () .connect, .delete () idA]

theorem run_firstReport :
    ∃ u v, Lts.Run Turn met firstReport u ∧ Lts.Run Turn u (.send () () () :: firstSync) v
      ∧ idA ∈ ids (u.apps ()).marker_list ∧ (u.requests ((), (), ())).length = 0
      ∧ (v.units ()).txEnabled = true ∧ unreported (v.units ()).database.markers = 1 := by
  refine ⟨_, _, .single (.other nofun .create),
    .cons (.other nofun .send) (.cons (.other nofun (.handle rfl))
      (.cons (.unit (.connect ⟨trivial, rfl⟩)) (.single (.other nofun .delete)))), ?_⟩
  decide

/-- One tick later it has been transmitted. -/
theorem reaches_broker_firstReport :
    ∃ v : Network Unit Unit Unit, idA ∈ ids (v.units ()).database.markers
      ∧ (ToldReported (fun _ => {}) (fun _ => readmeDatabase [])
          (firstReport ++ .send () () () :: firstSync ++ [.unit () .tick]) idA
        ∨ ∃ pre' j post u' s m,
          firstReport ++ .send () () () :: firstSync ++ [.unit () .tick]
              = pre' ++ .unit j .tick :: post
            ∧ Lts.Run Turn met pre' u' ∧ TurnStep (u'.units j) .tick s
            ∧ m ∈ since (u'.units j) s ∧ m.id = idA) := by
  obtain ⟨u, v, hpre, hmid, hX, hempty, htx, hone⟩ := run_firstReport
  obtain ⟨t, ht⟩ := exists_turn htx
  have hes : Lts.Run Turn v [.unit () .tick] _ := .single (.unit ht)
  refine ⟨v, reaches_broker ?_ hpre hX hmid (by simp [firstSync]) (by rw [hempty]; decide) htx
    hes (by simp) (by rw [hone]; decide)⟩
  exact List.nodup_nil

/-! ## From the unit to the phones -/

/--
The unit's file covers `ms`, and so does one of the next `n` replies on `c`, if it is on
its way, or will, if it is yet to be the answer to a request.
-/
structure Answering (c : ι × κ × γ) (ms : List Marker) (n : Nat) (w : Network ι κ γ) : Prop where
  file : Covers (w.units c.2.1).database.markers ms
  coming : (∃ before r after, w.replies c = before ++ r :: after ∧ Covers r.markers ms
      ∧ before.length < n)
    ∨ ∃ before r after, w.requests c = before ++ r :: after
      ∧ (w.replies c).length + before.length < n

omit [DecidableEq ι] [DecidableEq κ] [DecidableEq γ] in
theorem Answering.pos {c : ι × κ × γ} {ms : List Marker} {n : Nat} {w : Network ι κ γ}
    (h : Answering c ms n w) : 0 < n := by
  rcases h.coming with ⟨_, _, _, _, _, hlt⟩ | ⟨_, _, _, _, hlt⟩
  · exact Nat.zero_lt_of_lt hlt
  · exact Nat.zero_lt_of_lt hlt

/-- **The step lemma**: each reply that is processed leaves one less in front, or is the one. -/
theorem answering_step {w w' : Network ι κ γ} {e : Network.Event ι κ γ} {c : ι × κ × γ}
    {ms : List Marker} {n : Nat} (hn : (ids (w.units c.2.1).database.markers).Nodup)
    (h : Answering c ms n w) (hs : Turn w e w') (hne : e ≠ .drop c.1 c.2.1 c.2.2) :
    Answering c ms (n - processesAt c [e]) w'
      ∨ (processesAt c [e] ≠ 0 ∧ Covers (w'.apps c.1).marker_list ms) := by
  have hfile := h.file.trans (file_turn hn hs).1
  have hserved := served_turn hs hne
  generalize handlesAt c [e] = p at hserved
  generalize processesAt c [e] = q at hserved ⊢
  cases hserved with
  | @neither new hreq hrep =>
      refine Or.inl ⟨hfile, ?_⟩
      rw [hrep]
      refine h.coming.imp_right ?_
      intro hex
      obtain ⟨before, r, after, hq, hlt⟩ := hex
      refine ⟨before, r, after ++ new, ?_, hlt⟩
      rw [hreq, hq, List.append_assoc]
      rfl
  | @handled r' rest hhead hreq _ hrep =>
      refine Or.inl ⟨hfile, ?_⟩
      rw [hrep]
      rcases h.coming with ⟨before, r, after, hq, hc, hlt⟩ | ⟨before, r, after, hq, hlt⟩
      · refine Or.inl ⟨before, r, after ++ [(w'.units c.2.1).database], ?_, hc, hlt⟩
        rw [hq, List.append_assoc]
        rfl
      · rw [hq] at hhead
        cases before with
        | nil => exact Or.inl ⟨w.replies c, _, [], rfl, hfile, hlt⟩
        | cons b before =>
            obtain ⟨_, rfl⟩ := List.cons.inj hhead
            refine Or.inr ⟨before, r, after, hreq, ?_⟩
            rw [List.length_append, List.length_singleton]
            rw [List.length_cons] at hlt
            omega
  | @processed r' rest hhead hreq hrep happ =>
      rcases h.coming with ⟨before, r, after, hq, hc, hlt⟩ | ⟨before, r, after, hq, hlt⟩
      · rw [hq] at hhead
        cases before with
        | nil =>
            obtain ⟨rfl, _⟩ := List.cons.inj hhead
            refine Or.inr ⟨Nat.one_ne_zero, ?_⟩
            rw [happ]
            exact hc
        | cons b before =>
            obtain ⟨_, rfl⟩ := List.cons.inj hhead
            exact Or.inl ⟨hfile, Or.inl ⟨before, r, after, hrep, hc, Nat.lt_sub_of_add_lt hlt⟩⟩
      · refine Or.inl ⟨hfile, Or.inr ⟨before, r, after, hreq.trans hq, ?_⟩⟩
        rw [hhead, List.length_cons] at hlt
        rw [hrep]
        omega

theorem processesAt_cons (c : ι × κ × γ) (e : Network.Event ι κ γ)
    (es : List (Network.Event ι κ γ)) :
    processesAt c (e :: es) = processesAt c [e] + processesAt c es := by
  cases e with
  | process i k d => simp [processesAt, Nat.add_comm]
  | _ => simp [processesAt]

theorem eq_process {c : ι × κ × γ} {e : Network.Event ι κ γ} (h : processesAt c [e] ≠ 0) :
    e = .process c.1 c.2.1 c.2.2 := by
  cases e with
  | process i k d =>
      by_cases hc : (i, k, d) = c
      · subst hc
        rfl
      · exact absurd (by simp [processesAt, hc]) h
  | _ => exact absurd rfl h

/-- **The run lemma**: among so many replies is the one. -/
theorem answering_run {u v : Network ι κ γ} {es : List (Network.Event ι κ γ)} {c : ι × κ × γ}
    {ms : List Marker} {n : Nat} (hrun : Lts.Run Turn u es v)
    (hn : (ids (u.units c.2.1).database.markers).Nodup) (hdrop : .drop c.1 c.2.1 c.2.2 ∉ es)
    (h : Answering c ms n u) (hle : n ≤ processesAt c es) :
    ∃ es₁ es₂ t, es = es₁ ++ .process c.1 c.2.1 c.2.2 :: es₂
      ∧ Lts.Run Turn u (es₁ ++ [.process c.1 c.2.1 c.2.2]) t
      ∧ Covers (t.apps c.1).marker_list ms := by
  induction hrun generalizing n with
  | nil => exact absurd (h.pos.trans_le hle) (Nat.lt_irrefl _)
  | @cons u u' v e es hs _ ih =>
      have hne : e ≠ .drop c.1 c.2.1 c.2.2 := fun he => hdrop (he ▸ List.mem_cons_self)
      rcases answering_step hn h hs hne with h' | ⟨hprocess, hcovers⟩
      · rw [processesAt_cons] at hle
        obtain ⟨es₁, es₂, t, rfl, hrun, hcovers⟩ := ih (file_turn hn hs).2
          (fun hmem => hdrop (List.mem_cons_of_mem _ hmem)) h' (by omega)
        exact ⟨e :: es₁, es₂, t, rfl, .cons hs hrun, hcovers⟩
      · obtain rfl := eq_process hprocess
        exact ⟨[], es, u', rfl, .single hs, hcovers⟩

/-- The answer to an upload is behind all that is on its way on the connection. -/
theorem answering_send {u w : Network ι κ γ} {j : ι} {k : κ} {d : γ}
    (hs : Turn u (.send j k d) w) :
    Answering (j, k, d) (u.units k).database.markers
      ((u.requests (j, k, d)).length + (u.replies (j, k, d)).length + 1) w := by
  cases hs with
  | other _ hstep =>
      cases hstep with
      | send =>
          refine ⟨covers_refl _, Or.inr ⟨u.requests (j, k, d), (u.apps j).database, [], ?_, ?_⟩⟩
          · exact Function.update_self _ _ _
          · rw [Nat.add_comm (u.requests _).length]
            exact Nat.lt_succ_self _

/--
**What one phone reports another one shows.** A report gets into the file of unit `k` as
in `reaches_broker`. Another app uploads to the same unit; if its connection stays, then
by the time it has processed as many replies as requests and replies were on their way
and one more, it has processed one that leaves it with every event of that file, marks
included, and so with the report.
-/
theorem reaches_phones {apps : ι → App} {dbs : κ → Database}
    {pre mid es : List (Network.Event ι κ γ)} {u v w : Network ι κ γ} {i j : ι} {k : κ} {c d : γ}
    {X : EventId} (hn : (ids (dbs k).markers).Nodup) (hpre : Lts.Run Turn (opened apps dbs) pre u)
    (hX : X ∈ ids (u.apps i).marker_list) (hmid : Lts.Run Turn u (.send i k c :: mid) v)
    (hdrop : .drop i k c ∉ mid)
    (hhandles : (u.requests (i, k, c)).length < handlesAt (i, k, c) mid)
    (hes : Lts.Run Turn v (.send j k d :: es) w) (hdrop' : .drop j k d ∉ es)
    (hprocesses : (v.requests (j, k, d)).length + (v.replies (j, k, d)).length
      < processesAt (j, k, d) es) :
    ∃ es₁ es₂ t, es = es₁ ++ .process j k d :: es₂
      ∧ Lts.Run Turn v (.send j k d :: es₁ ++ [.process j k d]) t
      ∧ Covers (t.apps j).marker_list (v.units k).database.markers
      ∧ X ∈ ids (t.apps j).marker_list := by
  have hfile := nodup_turns hpre hn
  have hreached := in_file hfile hX hmid hdrop hhandles
  have hfile' := nodup_turns hmid hfile
  cases hes with
  | cons hs hes =>
      obtain ⟨es₁, es₂, t, he, hrun, hcovers⟩ :=
        answering_run hes (file_turn hfile' hs).2 hdrop' (answering_send hs) hprocesses
      exact ⟨es₁, es₂, t, he, .cons hs hrun, hcovers, ids_subset_of_covers hcovers hreached⟩

/-- Two phones and a unit. -/
def twoPhones : Network Bool Unit Unit := opened (fun _ => {}) fun _ => readmeDatabase []

theorem run_twoPhones :
    ∃ u v w, Lts.Run Turn twoPhones
        [.create true (readmeEvent idA).latlng "fire" idA (readmeEvent idA).timestamp] u
      ∧ Lts.Run Turn u [.send true () (), .handle true () ()] v
      ∧ Lts.Run Turn v [.send false () (), .handle false () (), .process false () ()] w
      ∧ idA ∈ ids (u.apps true).marker_list ∧ (u.requests (true, (), ())).length = 0
      ∧ (v.requests (false, (), ())).length + (v.replies (false, (), ())).length = 0 := by
  refine ⟨_, _, _, .single (.other nofun .create),
    .cons (.other nofun .send) (.single (.other nofun (.handle rfl))),
    .cons (.other nofun .send) (.cons (.other nofun (.handle rfl))
      (.single (.other nofun (.process rfl)))), ?_⟩
  decide

/-- The second phone has the event after its first sync. -/
theorem reaches_phones_twoPhones : ∃ v : Network Bool Unit Unit, ∃ es₁ es₂ t,
    [.handle false () (), .process false () ()] = es₁ ++ .process false () () :: es₂
      ∧ Lts.Run Turn v (.send false () () :: es₁ ++ [.process false () ()]) t
      ∧ Covers (t.apps false).marker_list (v.units ()).database.markers
      ∧ idA ∈ ids (t.apps false).marker_list := by
  obtain ⟨u, v, w, hpre, hmid, hes, hX, hempty, hempty'⟩ := run_twoPhones
  refine ⟨v, reaches_phones ?_ hpre hX hmid (by simp) (by rw [hempty]; decide) hes (by simp)
    (by rw [hempty']; decide)⟩
  exact List.nodup_nil

end EssApp.Sync.Delivery
