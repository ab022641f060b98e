import EssApp.Readme.Growth
import EssApp.Readme.Queue

/-!
# Lives of the server

A Witness Unit runs where power fails. Of a server that is killed only the file stays:
the next one starts without a connection to the broker, and what the last one had
under way is forgotten. With a quick broker, a server can be killed between two turns,
or within one, when the event has been handed to the broker and its flag is not yet in
the file.

Over any number of lives, nothing in the file is lost, and an event is transmitted
again only if its last transmission was cut short (`again_after_crash`).
-/

namespace EssApp.Readme

inductive Life where
  /-- A turn of the running server. -/
  | turn (e : Event)
  /-- The server dies between two turns, and the next one starts. -/
  | killed
  /-- It dies after a tick, before the callback. -/
  | cutShort

inductive LifeStep (s : Server) : Life → Server → Prop where
  | turn {e : Event} {t : Server} : TurnStep s e t → LifeStep s (.turn e) t
  | killed : LifeStep s .killed (boot s.database)
  | cutShort {t : Server} : Step s .tick t → s.publishes.length < t.publishes.length →
      LifeStep s .cutShort (boot t.database)

/-- An event that was handed to the broker, and whether that server heard the answer. -/
structure Transmission where
  marker : Marker
  answered : Bool

/-- What a step hands to the broker. -/
def handed (s : Server) : Life → Server → List Transmission
  | .turn _, t => (since s t).map fun m => ⟨m, true⟩
  | .killed, _ => []
  | .cutShort, _ => (since s (onTimer s)).map fun m => ⟨m, false⟩

/-- **What a step does to the file**, and what it hands to the broker. -/
inductive LifeEffect (s : Server) : Life → List Transmission → Server → Prop where
  | quiet {l : Life} {t : Server} : t.database = s.database → LifeEffect s l [] t
  | merged {e : Event} {db : Database} {t : Server} : payload e = db.markers →
      t.database = mergeDatabases s.database db → LifeEffect s (.turn e) [] t
  | answered {before after : List Marker} {m : Marker} {t : Server} :
      s.database.markers = before ++ m :: after → m.reported = false →
      t.database = { s.database with markers := before ++ m.report :: after } →
      LifeEffect s (.turn .tick) [⟨m.report, true⟩] t
  | cutShort {before after : List Marker} {m : Marker} {t : Server} :
      s.database.markers = before ++ m :: after → m.reported = false →
      t.database = s.database → LifeEffect s .cutShort [⟨m.report, false⟩] t

/-- A tick that publishes nothing changes nothing. -/
theorem onTimer_same {s : Server} (hlen : (onTimer s).publishes.length = s.publishes.length) :
    onTimer s = s := by
  have htick : Step s .tick (onTimer s) := ⟨trivial, rfl⟩
  generalize onTimer s = t at hlen htick
  cases step_effect htick with
  | quiet => rfl
  | started _ _ => exact absurd hlen (by simp)

/-- **What a tick publishes**, if it publishes anything. -/
theorem onTimer_publishes {s : Server}
    (hlen : s.publishes.length < (onTimer s).publishes.length) :
    s.txEnabled = true ∧ (onTimer s).database = s.database
      ∧ ∃ before m after, s.database.markers = before ++ m :: after
        ∧ (∀ x ∈ before, x.reported = true) ∧ m.reported = false
        ∧ since s (onTimer s) = [m.report] := by
  have htick : Step s .tick (onTimer s) := ⟨trivial, rfl⟩
  generalize onTimer s = t at hlen htick
  cases step_effect htick with
  | quiet => exact absurd hlen (Nat.lt_irrefl _)
  | @started k htx hk =>
      refine ⟨htx, rfl, ?_⟩
      rcases queue_cases s.database.markers with hall | ⟨before, m, after, hms, hb, hm⟩
      · rw [firstUnreported_eq_none.mpr hall] at hk
        cases hk
      · have hfirst : firstUnreported s.database.markers = some before.length := by
          rw [hms]
          exact firstUnreported_eq_some hb hm
        obtain rfl := Option.some.inj (hk.symm.trans hfirst)
        refine ⟨before, m, after, hms, hb, hm, ?_⟩
        -- the snapshot has the flag set where the search stopped
        have hdata : Publish.data ⟨setReported s.database before.length, before.length, none⟩
            = some m.report := by
          rw [Publish.data, getElem?_setReported, hms, List.getElem?_append_right (Nat.le_refl _),
            Nat.sub_self]
          simp
        rw [since, List.drop_left, List.filterMap_cons_some hdata]
        rfl

theorem since_same {s t : Server} (h : t.publishes = s.publishes) : since s t = [] := by
  rw [since, h, List.drop_length]
  rfl

theorem life_effect {s t : Server} {l : Life} (hs : LifeStep s l t) :
    LifeEffect s l (handed s l t) t := by
  cases hs with
  | killed => exact .quiet rfl
  | cutShort h hlen =>
      obtain ⟨_, rfl⟩ := h
      obtain ⟨_, hdb, before, m, after, hms, _, hm, hsince⟩ := onTimer_publishes hlen
      rw [handed, hsince]
      exact .cutShort hms hm hdb
  | @turn e _ hturn =>
      -- without a publish nothing is handed over
      have hnone : t.publishes = s.publishes → handed s (.turn e) t = [] := by
        intro h
        rw [handed, since_same h]
        rfl
      cases hturn with
      | connect h =>
          obtain ⟨_, rfl⟩ := h
          rw [hnone rfl]
          exact .quiet rfl
      | @client db _ h =>
          obtain ⟨_, rfl⟩ := h
          rw [hnone rfl]
          exact .merged rfl rfl
      | @mqtt db _ h =>
          obtain ⟨_, rfl⟩ := h
          rw [hnone rfl]
          exact .merged rfl rfl
      | idle h hlen =>
          obtain ⟨_, rfl⟩ := h
          have hsame : handle s .tick = s := onTimer_same hlen
          rw [hsame] at hnone ⊢
          rw [hnone rfl]
          exact .quiet rfl
      | @sent u _ h hlen hcb =>
          obtain ⟨_, rfl⟩ := h
          obtain ⟨htx, _, before, m, after, hms, hb, hm, _⟩ := onTimer_publishes hlen
          have hturn : TurnStep s .tick t := .sent ⟨trivial, rfl⟩ hlen hcb
          obtain ⟨htransmits, hdb⟩ := tick_first htx hturn hms hb hm
          rw [handed, since_transmits htransmits]
          exact .answered hms hm hdb

/-! ## What every life keeps -/

/-- The event was told as a reported one: it was in the first file so, or came so. -/
def CameReported (db : Database) (ls : List Life) (id : EventId) : Prop :=
  (∃ m ∈ db.markers, m.id = id ∧ m.reported = true)
    ∨ ∃ e, .turn e ∈ ls ∧ ∃ m ∈ payload e, m.id = id ∧ m.reported = true

/-- The invariant of the lives `ls`, in which `xs` was handed to the broker, for the file. -/
structure LifeInv (db : Database) (ls : List Life) (xs : List Transmission) (file : Database) :
    Prop where
  distinct : (ids file.markers).Nodup
  /-- What was handed over is in the file, -/
  known : ∀ x ∈ xs, x.marker.id ∈ ids file.markers
  /-- and marked there, once it was answered. -/
  marked : ∀ x ∈ xs, x.answered = true →
    ∀ m ∈ file.markers, m.id = x.marker.id → m.reported = true
  /-- Nothing else is marked. -/
  accounted : ∀ m ∈ file.markers, m.reported = true →
    CameReported db ls m.id ∨ ∃ x ∈ xs, x.marker.id = m.id ∧ x.answered = true
  /-- What comes after an answered transmission is about other events. -/
  again : xs.Pairwise fun x y => x.marker.id = y.marker.id → x.answered = false

theorem lifeInv_init {db : Database} (hn : (ids db.markers).Nodup) :
    LifeInv db [] [] db where
  distinct := hn
  known := by simp
  marked := by simp
  accounted m hm hr := Or.inl (Or.inl ⟨m, hm, rfl, hr⟩)
  again := .nil

theorem CameReported.later {db : Database} {ls : List Life} {id : EventId}
    (h : CameReported db ls id) (l : Life) : CameReported db (ls ++ [l]) id := by
  refine h.imp_right ?_
  intro hex
  obtain ⟨e, he, hm⟩ := hex
  exact ⟨e, List.mem_append_left _ he, hm⟩

theorem ids_flagged (before after : List Marker) (m : Marker) :
    ids (before ++ m.report :: after) = ids (before ++ m :: after) := by
  rw [ids, ids, List.map_append, List.map_append]
  rfl

/-- Of the events in a file whose flag was set, the others have other ids. -/
theorem mem_flagged {before after : List Marker} {m m' : Marker}
    (hn : (ids (before ++ m :: after)).Nodup) (h : m' ∈ before ++ m.report :: after) :
    m' = m.report ∨ m' ∈ before ++ m :: after ∧ m'.id ≠ m.id := by
  rw [ids, List.map_append, List.map_cons, List.nodup_middle, List.nodup_cons] at hn
  have hother : m' ∈ before ∨ m' ∈ after → m'.id ≠ m.id := by
    intro hm' hid
    rw [← hid, ← List.map_append] at hn
    exact hn.1 (List.mem_map_of_mem (List.mem_append.mpr hm'))
  rcases List.mem_append.mp h with hm' | hm'
  · exact Or.inr ⟨List.mem_append_left _ hm', hother (Or.inl hm')⟩
  · rcases List.mem_cons.mp hm' with rfl | hm'
    · exact Or.inl rfl
    · exact Or.inr ⟨List.mem_append_right _ (List.mem_cons_of_mem _ hm'), hother (Or.inr hm')⟩

/-- An event that waits was not answered before. -/
theorem LifeInv.again_concat {db file : Database} {ls : List Life} {xs : List Transmission}
    (h : LifeInv db ls xs file) {m : Marker} (hm : m ∈ file.markers) (hr : m.reported = false)
    (b : Bool) :
    (xs ++ [(⟨m.report, b⟩ : Transmission)]).Pairwise
      fun x y => x.marker.id = y.marker.id → x.answered = false := by
  refine List.pairwise_append.mpr ⟨h.again, List.pairwise_singleton _ _, ?_⟩
  intro x hx y hy hid
  obtain rfl := List.mem_singleton.mp hy
  by_contra ha
  have hmarked := h.marked x hx (by simpa using ha) m hm hid.symm
  rw [hr] at hmarked
  cases hmarked

/-- A merge brings no event that was handed over already. -/
theorem lifeInv_merged {db file : Database} {ls : List Life} {xs : List Transmission} {e : Event}
    {remote_db : Database} (h : LifeInv db ls xs file) (hpay : payload e = remote_db.markers) :
    LifeInv db (ls ++ [.turn e]) xs (mergeDatabases file remote_db) where
  distinct := nodup_merge _ _
  known x hx := mem_ids_merge.mpr (Or.inl (h.known x hx))
  marked x hx ha m hm hid := by
    rcases mem_merge hm with hm | ⟨r, _, hnew, rfl⟩
    · exact h.marked x hx ha m hm hid
    · exact absurd (h.known x hx) (hid ▸ hnew)
  accounted m hm hr := by
    rcases mem_merge hm with hm | ⟨r, hrem, _, rfl⟩
    · exact (h.accounted m hm hr).imp_left fun hc => hc.later _
    · have hlast := List.mem_append_right ls (List.mem_singleton_self (Life.turn e))
      exact Or.inl (Or.inr ⟨e, hlast, r, hpay ▸ hrem, rfl, hr⟩)
  again := h.again

/-- Setting the flag of what was answered. -/
theorem lifeInv_answered {db file : Database} {ls : List Life} {xs : List Transmission}
    {before after : List Marker} {m : Marker} (h : LifeInv db ls xs file)
    (hms : file.markers = before ++ m :: after) (hr : m.reported = false) (l : Life) :
    LifeInv db (ls ++ [l]) (xs ++ [⟨m.report, true⟩])
      { file with markers := before ++ m.report :: after } := by
  have hn := h.distinct
  have hm : m ∈ file.markers := hms ▸ List.mem_append_right _ List.mem_cons_self
  have hids : ids (before ++ m.report :: after) = ids file.markers := by rw [hms, ids_flagged]
  rw [hms] at hn
  constructor
  · show (ids (before ++ m.report :: after)).Nodup
    rw [hids]
    exact h.distinct
  · show ∀ x ∈ _, _ ∈ ids (before ++ m.report :: after)
    rw [hids]
    exact Places.forall_mem_concat h.known (mem_ids_of_mem (m := m) hm)
  · intro x hx ha m' hm' hid
    rcases mem_flagged hn hm' with rfl | ⟨hm', hne⟩
    · rfl
    · rcases List.mem_append.mp hx with hx | hx
      · exact h.marked x hx ha m' (hms ▸ hm') hid
      · -- the event itself is at no other place
        obtain rfl := List.mem_singleton.mp hx
        exact absurd hid hne
  · intro m' hm' hr'
    rcases mem_flagged hn hm' with rfl | ⟨hm', _⟩
    · exact Or.inr ⟨_, List.mem_append_right _ (List.mem_singleton_self _), rfl, rfl⟩
    · refine (h.accounted m' (hms ▸ hm') hr').imp (fun hc => hc.later l) ?_
      intro hex
      obtain ⟨x, hx, hid, ha⟩ := hex
      exact ⟨x, List.mem_append_left _ hx, hid, ha⟩
  · exact h.again_concat hm hr true

/-- What was cut short leaves the file as it was. -/
theorem lifeInv_cutShort {db file : Database} {ls : List Life} {xs : List Transmission}
    {m : Marker} (h : LifeInv db ls xs file) (hm : m ∈ file.markers) (hr : m.reported = false)
    (l : Life) : LifeInv db (ls ++ [l]) (xs ++ [⟨m.report, false⟩]) file where
  distinct := h.distinct
  known := Places.forall_mem_concat h.known (mem_ids_of_mem (m := m) hm)
  marked := Places.forall_mem_concat h.marked nofun
  accounted m' hm' hr' := by
    refine (h.accounted m' hm' hr').imp (fun hc => hc.later l) ?_
    intro hex
    obtain ⟨x, hx, hid, ha⟩ := hex
    exact ⟨x, List.mem_append_left _ hx, hid, ha⟩
  again := h.again_concat hm hr false

/-- **The step lemma.** -/
theorem lifeInv_step {db : Database} {ls : List Life} {xs : List Transmission} {s t : Server}
    {l : Life} (h : LifeInv db ls xs s.database) (hs : LifeStep s l t) :
    LifeInv db (ls ++ [l]) (xs ++ handed s l t) t.database := by
  have heff := life_effect hs
  generalize handed s l t = out at heff
  cases heff with
  | quiet hdb =>
      rw [List.append_nil, hdb]
      refine ⟨h.distinct, h.known, h.marked, ?_, h.again⟩
      intro m hm hr
      exact (h.accounted m hm hr).imp_left fun hc => hc.later l
  | merged hpay hdb =>
      rw [List.append_nil, hdb]
      exact lifeInv_merged h hpay
  | answered hms hm hdb =>
      rw [hdb]
      exact lifeInv_answered h hms hm _
  | cutShort hms hm hdb =>
      rw [hdb]
      exact lifeInv_cutShort h (hms ▸ List.mem_append_right _ List.mem_cons_self) hm _

/-- No step puts an id into the file twice. -/
theorem nodup_life {s t : Server} {l : Life} (hn : (ids s.database.markers).Nodup)
    (hs : LifeStep s l t) : (ids t.database.markers).Nodup := by
  have heff := life_effect hs
  generalize handed s l t = out at heff
  cases heff with
  | quiet hdb => exact hdb ▸ hn
  | merged _ hdb => exact hdb ▸ nodup_merge _ _
  | answered hms _ hdb =>
      rw [hdb]
      show (ids (_ ++ _ :: _)).Nodup
      rw [ids_flagged, ← hms]
      exact hn
  | cutShort _ _ hdb => exact hdb ▸ hn

/-- A step loses nothing from the file. -/
theorem grows_life {s t : Server} {l : Life} (hn : (ids s.database.markers).Nodup)
    (hs : LifeStep s l t) : Grows s t := by
  have heff := life_effect hs
  generalize handed s l t = out at heff
  rw [Grows]
  cases heff with
  | quiet hdb =>
      rw [hdb]
      exact covers_refl _
  | merged _ hdb =>
      rw [hdb]
      exact covers_of_subset (prefix_merge hn _).subset
  | answered hms _ hdb =>
      rw [hdb, hms]
      intro x hx
      rcases List.mem_append.mp hx with hx | hx
      · exact ⟨x, List.mem_append_left _ hx, rfl, id, id⟩
      · rcases List.mem_cons.mp hx with rfl | hx
        · exact ⟨x.report, List.mem_append_right _ List.mem_cons_self, rfl, id, fun _ => rfl⟩
        · exact ⟨x, List.mem_append_right _ (List.mem_cons_of_mem _ hx), rfl, id, id⟩
  | cutShort _ _ hdb =>
      rw [hdb]
      exact covers_refl _

/--
**Transmitted at least once, and again only after a crash.** Over any number of lives of
the server: from no moment to a later one does the file lose an event or a flag; what is
marked as reported came so or was transmitted and answered; what was transmitted is in
the file; and of two transmissions of one event the first was cut short.
-/
theorem again_after_crash {db : Database} (hn : (ids db.markers).Nodup) {ls : List Life}
    {xs : List Transmission} {s : Server} (h : Lts.Trace LifeStep handed (boot db) ls xs s) :
    Lts.Throughout LifeStep Grows (boot db) ls
      ∧ (∀ m ∈ s.database.markers, m.reported = true →
        CameReported db ls m.id ∨ ∃ x ∈ xs, x.marker.id = m.id ∧ x.answered = true)
      ∧ (∀ x ∈ xs, x.marker.id ∈ ids s.database.markers)
      ∧ xs.Pairwise fun x y => x.marker.id = y.marker.id → x.answered = false := by
  have hinv := h.history (I := fun ls xs s => LifeInv db ls xs s.database) lifeInv_step
    (lifeInv_init hn)
  have hgrows : Lts.Throughout LifeStep Grows (boot db) ls := by
    refine Lts.throughout_of_steps (R := Grows)
      (I := fun s => ∃ ls xs, LifeInv db ls xs s.database) (fun _ => covers_refl _)
      (fun h1 h2 => Covers.trans h1 h2) ?_ ?_ ⟨_, _, lifeInv_init hn⟩ ls
    · intro s l t hex hs
      obtain ⟨ls, xs, hi⟩ := hex
      exact ⟨_, _, lifeInv_step hi hs⟩
    · intro s l t hex hs
      obtain ⟨ls, xs, hi⟩ := hex
      exact grows_life hi.distinct hs
  exact ⟨hgrows, hinv.accounted, hinv.known, hinv.again⟩

/-- The server dies while it transmits the first of two events, and once more in between. -/
def threeLives : List Life :=
  [.turn .connect, .cutShort, .turn .connect, .turn .tick, .killed, .turn .connect, .turn .tick]

/-- The first event is transmitted twice, the second once, and no event is lost on the way. -/
theorem again_after_crash_threeLives :
    ∃ xs s, Lts.Trace LifeStep handed (boot (readmeDatabase [readmeEvent idA, readmeEvent idB]))
        threeLives xs s
      ∧ ids (xs.map Transmission.marker) = [idA, idA, idB]
      ∧ Lts.Throughout LifeStep Grows (boot (readmeDatabase [readmeEvent idA, readmeEvent idB]))
        threeLives
      ∧ xs.Pairwise fun x y => x.marker.id = y.marker.id → x.answered = false := by
  have hn : (ids (readmeDatabase [readmeEvent idA, readmeEvent idB]).markers).Nodup := by decide
  have htrace : Lts.Trace LifeStep handed
      (boot (readmeDatabase [readmeEvent idA, readmeEvent idB])) threeLives _ _ :=
    .cons (.turn (.connect ⟨trivial, rfl⟩)) (.cons (.cutShort ⟨trivial, rfl⟩ (by decide))
      (.cons (.turn (.connect ⟨trivial, rfl⟩))
        (.cons (.turn (.sent ⟨trivial, rfl⟩ (by decide) ⟨⟨_, rfl, rfl⟩, rfl⟩)) (.cons .killed
          (.cons (.turn (.connect ⟨trivial, rfl⟩))
            (.cons (.turn (.sent ⟨trivial, rfl⟩ (by decide) ⟨⟨_, rfl, rfl⟩, rfl⟩)) .nil))))))
  obtain ⟨hgrows, _, _, hagain⟩ := again_after_crash hn htrace
  exact ⟨_, _, htrace, by decide, hgrows, hagain⟩

end EssApp.Readme
