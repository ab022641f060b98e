import EssApp.Lib.Pipeline
import EssApp.Sync.Sockets

/-!
# What a reply acknowledges

A phone may have several sockets open at a time, uploads on the newest and processes what
comes on any of them, and a unit answers what is still on a socket that the phone has
long dropped. Nothing in a reply says which upload it answers. It need not: each socket
is a pipeline of its own, so the `n`-th reply on it answers the `n`-th upload on it. There
is a moment of the run at which the unit at the other end took this upload from the
socket, and the reply is the upload merged into the file the unit had then
(`acknowledged`).
-/

namespace EssApp.Sync.Sockets

open Js Texts
open Pipeline (sent received)
open Readme (Database EventId ids mergeDatabases)
open Storage (PlacesAll hasLatLng)

variable {ι κ : Type}

/-- The inputs that the README and the menu provide for. -/
def Formatted : Event ι κ → Prop
  | .phone _ (.confirm ident _) => ∃ id : EventId, ident = .str id.text
  | .unit _ e => ∃ f, Readme.EventRep e f ∧ Draw.Typed (Readme.payload f)
  | _ => True

/-- What the phone has, and what is under way, is in the README's format. -/
def Represented (places : Value → Bool) (w : System ι κ) : Prop :=
  ∃ n n', Carries w n ∧ SystemRep places n n'

/-- On the socket `c` the request `up` is next, and the file of the unit at its end is `db`. -/
def Finds (w : System ι κ) (c : ι × Key) (up : Text) (db : Database) : Prop :=
  ∃ k n rest v, w.peers c = some (k, n) ∧ w.requests c = up :: rest
    ∧ (w.units k).database = some (.json v) ∧ Readme.DatabaseRep v db

/-- The reply is the upload, merged into `db`, and so has all of its events. -/
def Acknowledges (db : Database) (up down : Text) : Prop :=
  ∃ up', TextRep up up' ∧ TextRep down (mergeDatabases db up')
    ∧ ids up'.markers ⊆ ids (mergeDatabases db up').markers

/-- What phone `i` sees of a step on its socket `s`. -/
def passed (i : ι) (s : Key) [DecidableEq ι] (w : System ι κ) (e : Event ι κ) (w' : System ι κ) :
    List (Text ⊕ Text) :=
  match e with
  | .manager i' _ =>
      (((w'.managers i').sent.drop (w.managers i').sent.length).filter fun j =>
        (i', w.lives i', j) = (i, s)).map fun _ => .inl (upload (w.phones i').device)
  | .process i' j =>
      if (i', w.lives i', j) = (i, s) then ((w.replies (i, s)).take 1).map .inr else []
  | _ => []

/-- A socket as a pipeline. -/
def System.pipeline (w : System ι κ) (c : ι × Key) : Pipeline.State Text Text where
  pending := w.requests c
  answered := w.replies c

/-- **What a unit answers acknowledges the request**, with the file it has. -/
theorem acknowledges_of_answers {places : Value → Bool} {w : System ι κ} {i : ι} {s : Key} {k : κ}
    {n : Nat} {request reply : Text} {rest : List Text} (h : Represented places w)
    (hpeer : w.peers (i, s) = some (k, n)) (hgone : w.gone (i, s) = false)
    (hqueue : w.requests (i, s) = request :: rest)
    (hanswer : answers (w.units k) request = [reply]) :
    ∃ db, Finds w (i, s) request db ∧ Acknowledges db request reply := by
  obtain ⟨m, m', hc, hrep⟩ := h
  obtain ⟨db, _, _, hdb, _⟩ :=
    queue_rep (hrep.requests (i, k, s)) ((hc.requests i s k n hpeer hgone).trans hqueue)
  obtain ⟨hserver, htyped⟩ := hrep.units k
  have hreplies := (answers_rep hserver htyped hdb).2
  rw [hc.units, hanswer] at hreplies
  rw [hc.units] at hserver
  obtain ⟨v, hv, hvrep⟩ := hserver.database
  cases hreplies with
  | cons hreply _ =>
      exact ⟨_, ⟨k, n, rest, v, hpeer, hqueue, hv, hvrep⟩, db, hdb, hreply,
        fun id hid => Readme.mem_ids_merge.mpr (Or.inr hid)⟩

/-- A step that leaves both queues of a socket alone. -/
theorem pipeline_skip {R : Text → Text → Prop} {w w' : System ι κ} {i : ι} {s : Key}
    (hreq : w'.requests (i, s) = w.requests (i, s)) (hrep : w'.replies (i, s) = w.replies (i, s)) :
    Pipeline.Step R (w.pipeline (i, s)) .skip (w'.pipeline (i, s)) := by
  rw [System.pipeline, System.pipeline, hreq, hrep]
  exact .skip

/-- What a manager that has sent `js` passes to the socket `s` of phone `i`. -/
theorem passed_manager [DecidableEq ι] {w w' : System ι κ} {i' : ι} {f : Connection.Event}
    {js : List Nat} (hsent : (w'.managers i').sent = (w.managers i').sent ++ js) (i : ι) (s : Key) :
    passed i s w (.manager i' f) w'
      = (js.filter fun j => (i', w.lives i', j) = (i, s)).map fun _ =>
          .inl (upload (w.phones i').device) := by
  rw [passed, hsent, List.drop_left]

section

variable [DecidableEq ι] [DecidableEq κ]

/-- What is in the README's format has events of `Network` that stand for it. -/
theorem exists_eventRep {places : Value → Bool} {toNumber : String → Number} {w w' : System ι κ}
    {e : Event ι κ} (hs : Step places toNumber w e w') (hf : Formatted e) :
    ∀ f ∈ traffic w e w', ∃ gs, EventRep f gs := by
  intro f hmem
  cases e with
  | phone i e =>
      obtain rfl := List.mem_singleton.mp hmem
      cases e with
      | create latlng type id timestamp =>
          cases latlng with
          | some latlng => exact ⟨_, .create⟩
          | none => exact ⟨_, .nowhere⟩
      | confirm ident same =>
          obtain ⟨id, rfl⟩ := hf
          exact ⟨_, .confirm⟩
      | message data =>
          cases hs with
          | phone hdata _ => exact absurd rfl (hdata data)
  | restart i =>
      obtain rfl := List.mem_singleton.mp hmem
      exact ⟨_, .restart⟩
  | manager i e =>
      obtain ⟨j, _, hmem⟩ := List.mem_flatMap.mp hmem
      obtain ⟨k, _, rfl⟩ := List.mem_map.mp hmem
      exact ⟨_, .send⟩
  | accept i k j => cases hmem
  | handle i s =>
      obtain ⟨k, _, rfl⟩ := List.mem_map.mp hmem
      exact ⟨_, .handle⟩
  | process i j =>
      obtain ⟨k, _, rfl⟩ := List.mem_map.mp hmem
      exact ⟨_, .process⟩
  | close i s => cases hmem
  | unit k e =>
      obtain rfl := List.mem_singleton.mp hmem
      obtain ⟨f, hef, hty⟩ := hf
      exact ⟨_, .unit hef hty⟩
  | reboot k =>
      obtain rfl := List.mem_singleton.mp hmem
      exact ⟨_, .reboot⟩

theorem represented_step {places : Value → Bool} {toNumber : String → Number}
    (hplaces : PlacesAll places) {w w' : System ι κ} {e : Event ι κ} (hi : Inv w)
    (h : Represented places w) (hs : Step places toNumber w e w') (hf : Formatted e) :
    Represented places w' := by
  obtain ⟨n, n', hc, hrep⟩ := h
  obtain ⟨m, hrun, hc'⟩ := carries_step hi hc hs
  obtain ⟨gss, hgss⟩ := Places.exists_forall₂ (exists_eventRep hs hf)
  obtain ⟨m', _, hrep'⟩ := hrun.simulate_runs (step_rep hplaces) hgss hrep
  exact ⟨m, m', hc', hrep'⟩

/-- **What a step is to one socket**, if what the unit answers there is an answer in `R`. -/
theorem pipeline_step {places : Value → Bool} {toNumber : String → Number} {w w' : System ι κ}
    {e : Event ι κ} {R : Text → Text → Prop} {i : ι} {s : Key} (h : Represented places w)
    (hs : Step places toNumber w e w')
    (hR : e = .handle i s → ∀ db up down, Finds w (i, s) up db → Acknowledges db up down →
      R up down) :
    ∃ op, Pipeline.Step R (w.pipeline (i, s)) op (w'.pipeline (i, s))
      ∧ passed i s w e w' = Pipeline.seen (w.pipeline (i, s)) op (w'.pipeline (i, s)) := by
  cases hs with
  | phone _ _ => exact ⟨_, pipeline_skip rfl rfl, rfl⟩
  | restart _ => exact ⟨_, pipeline_skip rfl rfl, rfl⟩
  | accept _ _ => exact ⟨_, pipeline_skip rfl rfl, rfl⟩
  | close _ _ => exact ⟨_, pipeline_skip rfl rfl, rfl⟩
  | unit _ => exact ⟨_, pipeline_skip rfl rfl, rfl⟩
  | reboot => exact ⟨_, pipeline_skip rfl rfl, rfl⟩
  | @manager i' f m hm hsent _ _ =>
      refine ⟨_, pipeline_skip rfl rfl, ?_⟩
      have hnone : (Function.update w.managers i' m i').sent = (w.managers i').sent ++ [] := by
        rw [Function.update_self, hsent, List.append_nil]
      rw [passed_manager hnone]
      rfl
  | @upload i' f m j hm hsent =>
      have hone : (Function.update w.managers i' m i').sent = (w.managers i').sent ++ [j] := by
        rw [Function.update_self, hsent]
      by_cases hc : (i', w.lives i', j) = (i, s)
      · refine ⟨.send (upload (w.phones i').device), ?_, ?_⟩
        · rw [System.pipeline, System.pipeline]
          dsimp only
          rw [hc, Function.update_self]
          exact .send
        · rw [passed_manager hone, List.filter_cons_of_pos (by simpa using hc)]
          rfl
      · refine ⟨_, pipeline_skip (Function.update_of_ne (Ne.symm hc) _ _) rfl, ?_⟩
        rw [passed_manager hone, List.filter_cons_of_neg (by simpa using hc)]
        rfl
  | @handle i' s' k n request reply rest hpeer hgone hqueue hanswer =>
      by_cases hc : (i', s') = (i, s)
      · obtain ⟨rfl, rfl⟩ := Prod.mk.inj hc
        obtain ⟨db, hfinds, hack⟩ := acknowledges_of_answers h hpeer hgone hqueue hanswer
        refine ⟨.answer, ?_, rfl⟩
        rw [System.pipeline, System.pipeline, hqueue]
        dsimp only
        rw [Function.update_self, Function.update_self]
        exact .answer (hR rfl db request reply hfinds hack)
      · exact ⟨_, pipeline_skip (Function.update_of_ne (Ne.symm hc) _ _)
          (Function.update_of_ne (Ne.symm hc) _ _), rfl⟩
  | @process i' j reply rest p hopen hqueue hp =>
      by_cases hc : (i', w.lives i', j) = (i, s)
      · rw [hc] at hqueue
        refine ⟨.receive, ?_, ?_⟩
        · rw [System.pipeline, System.pipeline, hqueue]
          dsimp only
          rw [hc, Function.update_self]
          exact .receive
        · rw [passed, if_pos hc]
          rfl
      · refine ⟨_, pipeline_skip rfl (Function.update_of_ne (Ne.symm hc) _ _), ?_⟩
        rw [passed, if_neg hc]
        rfl

/-- Some moment of the run `es` has the unit take `up` from the socket, and answer `down`. -/
def Answered (places : Value → Bool) (toNumber : String → Number) (w₀ : System ι κ)
    (es : List (Event ι κ)) (i : ι) (s : Key) (up down : Text) : Prop :=
  ∃ pre post v db, es = pre ++ .handle i s :: post ∧ Lts.Run (Step places toNumber) w₀ pre v
    ∧ Finds v (i, s) up db ∧ Acknowledges db up down

theorem Answered.append {places : Value → Bool} {toNumber : String → Number} {w₀ : System ι κ}
    {es : List (Event ι κ)} {i : ι} {s : Key} {up down : Text}
    (h : Answered places toNumber w₀ es i s up down) (e : Event ι κ) :
    Answered places toNumber w₀ (es ++ [e]) i s up down := by
  obtain ⟨pre, post, v, db, rfl, hrun, hfinds, hack⟩ := h
  exact ⟨pre, post ++ [e], v, db, List.append_assoc _ _ _, hrun, hfinds, hack⟩

/--
**The `n`-th reply acknowledges the `n`-th upload** of its socket, and no reply comes
without one: over every run on README-format data, on every socket, whatever became of
the other sockets, of the app and of the units meanwhile. It is the upload merged into the file
that the unit had when it took the upload from the socket.
-/
theorem acknowledged {places : Value → Bool} {toNumber : String → Number}
    (hplaces : PlacesAll places) {phones : ι → Restart.Phone}
    {units : κ → WebSocketServer.Server} {n₀ : Network ι κ Key}
    (h0 : SystemRep places (texts phones units) n₀) (i : ι) (s : Key) {es : List (Event ι κ)}
    {xs : List (Text ⊕ Text)} {w : System ι κ}
    (h : Lts.Trace (Lts.Guarded (Step places toNumber) fun _ => Formatted) (passed i s)
      (start phones units) es xs w) :
    (received xs).length ≤ (sent xs).length
      ∧ List.Forall₂ (Answered places toNumber (start phones units) es i s)
        ((sent xs).take (received xs).length) (received xs) := by
  have hstep : ∀ {as : List (Event ι κ)} {ys : List (Text ⊕ Text)} {v : System ι κ}
      {e : Event ι κ} {v' : System ι κ},
      (Lts.Run (Step places toNumber) (start phones units) as v ∧ Inv v ∧ Represented places v
        ∧ ∃ handled, Pipeline.Paired (Answered places toNumber (start phones units) as i s) ys
          (v.pipeline (i, s)) handled) →
      Lts.Guarded (Step places toNumber) (fun _ => Formatted) v e v' →
      Lts.Run (Step places toNumber) (start phones units) (as ++ [e]) v' ∧ Inv v'
        ∧ Represented places v'
        ∧ ∃ handled, Pipeline.Paired (Answered places toNumber (start phones units) (as ++ [e]) i s)
          (ys ++ passed i s v e v') (v'.pipeline (i, s)) handled := by
    intro as ys v e v' hex hboth
    obtain ⟨hrun, hi, hr, handled, hpaired⟩ := hex
    obtain ⟨hs, hf⟩ := hboth
    -- what the step answers, it answers at this moment
    obtain ⟨op, hop, hseen⟩ := pipeline_step
      (R := Answered places toNumber (start phones units) (as ++ [e]) i s) (i := i) (s := s)
      hr hs (by
        intro he db up down hfinds hack
        subst he
        exact ⟨as, [], v, db, rfl, hrun, hfinds, hack⟩)
    rw [hseen]
    exact ⟨hrun.append (.single hs), inv_step hi hs, represented_step hplaces hi hr hs hf,
      Pipeline.paired_step ⟨handled, hpaired.mono fun up down hab => hab.append e⟩ hop⟩
  have hinit : Represented places (start phones units) :=
    ⟨_, n₀, carries_start phones units, h0⟩
  obtain ⟨_, _, _, handled, hpaired⟩ := h.history
    (I := fun as ys v => Lts.Run (Step places toNumber) (start phones units) as v ∧ Inv v
      ∧ Represented places v
      ∧ ∃ handled, Pipeline.Paired (Answered places toNumber (start phones units) as i s) ys
        (v.pipeline (i, s)) handled)
    hstep ⟨.nil, inv_start phones units, hinit, [], Pipeline.paired_start _⟩
  exact hpaired.answered

end

theorem formatted_reportConnectSync : ∃ w,
    Lts.Run (Lts.Guarded (Step hasLatLng Number.mk) fun _ => Formatted) met
      reportConnectSync w := by
  obtain ⟨w, hrun⟩ := run_reportConnectSync
  have hformatted : ∀ e ∈ reportConnectSync, Formatted e := by
    simp [reportConnectSync, Formatted]
  exact ⟨w, hrun.guard fun pre e post u v hes _ _ =>
    hformatted e (hes ▸ List.mem_append_right pre List.mem_cons_self)⟩

/-- The phone has received one reply, to the one upload it has made. -/
theorem acknowledged_reportConnectSync : ∃ xs w,
    Lts.Trace (Lts.Guarded (Step hasLatLng Number.mk) fun _ => Formatted) (passed () (0, 0)) met
        reportConnectSync xs w
      ∧ (received xs).length ≤ (sent xs).length
      ∧ List.Forall₂ (Answered hasLatLng Number.mk met reportConnectSync () (0, 0))
        ((sent xs).take (received xs).length) (received xs) := by
  obtain ⟨w, hguarded⟩ := formatted_reportConnectSync
  obtain ⟨xs, htrace⟩ : ∃ xs, Lts.Trace (Lts.Guarded (Step hasLatLng Number.mk) fun _ => Formatted)
      (passed () (0, 0)) met reportConnectSync xs w := Lts.Trace.exists_of_run hguarded
  have hty : ∀ k, Draw.Typed (readmeUnit k).markers :=
    fun _ _ hm => absurd hm List.not_mem_nil
  exact ⟨xs, w, htrace,
    acknowledged placesAll_hasLatLng (start_rep hasLatLng hty) () (0, 0) htrace⟩

end EssApp.Sync.Sockets
