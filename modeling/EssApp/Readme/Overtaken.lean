import EssApp.Readme.Growth

/-!
# When a snapshot falls behind

Between a tick and the callback of its publish the file goes on. Of what can happen to it
meanwhile two things are not in the snapshot that the callback will write: an event that
a message brings, and the flag of another event, set by the callback of a later publish.
`Overtakes` is a step that does one of them, and `grows_iff` says that the database only
grows, over a whole run, exactly if no callback of the run comes after such a step.

That nothing else counts has its reason in the order of the file. It only gets longer at
the end, and a tick takes the first event that is not reported; so the event of an earlier
publish is reported by the time of a later tick, or it is the one this tick takes as well.
Its callback therefore tells the later snapshot nothing new. `Timely` has the two facts
about pairs of publishes that this comes to.
-/

namespace EssApp.Readme

/-- The id of the event that the `i`-th publish hands to the broker. -/
def Server.sends (s : Server) (i : Nat) : Option EventId :=
  ((s.publishes[i]?).bind Publish.data).map Marker.id

/--
What the snapshot of the `i`-th publish does not have: an event that a message brings to the file,
or the flag of another event, set by the callback of a later publish.
-/
def Overtakes (i : Nat) (s : Server) : Event → Prop
  | .published j _ => i < j ∧ s.sends j ≠ s.sends i
  | e => ∃ m ∈ payload e, m.id ∉ ids s.database.markers

/-- The step does not overtake the `i`-th publish, if that was made before. -/
def Passes (i : Nat) (s : Server) (e : Event) : Prop :=
  i < s.publishes.length → ¬ Overtakes i s e

/-- Every callback of the run comes in time: nothing has overtaken its publish since the tick. -/
def InTime (db : Database) (es : List Event) : Prop :=
  ∀ (pre : List Event) (i : Nat) (d : WebSocketServer.Delivery) (post : List Event) (s : Server),
    es = pre ++ .published i d :: post → Lts.Run Step (boot db) pre s →
    Lts.Run (Lts.Guarded Step (Passes i)) (boot db) pre s

/-! ## A list that goes on -/

/-- The list `ms'` has the markers of `ms` in their places, with no flag taken back. -/
def Extends (ms' ms : List Marker) : Prop :=
  ∀ (n : Nat) (m : Marker), ms[n]? = some m → ∃ m', ms'[n]? = some m' ∧ m'.id = m.id
    ∧ (m.validated = true → m'.validated = true) ∧ (m.reported = true → m'.reported = true)

theorem extends_refl (ms : List Marker) : Extends ms ms := fun _ m hm => ⟨m, hm, rfl, id, id⟩

theorem Extends.trans {ms₁ ms₂ ms₃ : List Marker} (h : Extends ms₂ ms₁) (h' : Extends ms₃ ms₂) :
    Extends ms₃ ms₁ := by
  intro n m hm
  obtain ⟨m', hm', hid, hv, hr⟩ := h n m hm
  obtain ⟨m'', hm'', hid', hv', hr'⟩ := h' n m' hm'
  exact ⟨m'', hm'', hid'.trans hid, hv' ∘ hv, hr' ∘ hr⟩

theorem prefix_extends {ms ms' : List Marker} (h : ms <+: ms') : Extends ms' ms := by
  obtain ⟨new, rfl⟩ := h
  intro n m hm
  have hlt := (List.getElem?_eq_some_iff.mp hm).1
  exact ⟨m, by rw [List.getElem?_append_left hlt, hm], rfl, id, id⟩

theorem Extends.ids_subset {ms ms' : List Marker} (h : Extends ms' ms) : ids ms ⊆ ids ms' := by
  intro id hid
  obtain ⟨m, hm, rfl⟩ := mem_ids.mp hid
  obtain ⟨n, hn⟩ := List.mem_iff_getElem?.mp hm
  obtain ⟨m', hm', hid', _⟩ := h n m hn
  exact mem_ids.mpr ⟨m', List.mem_of_getElem? hm', hid'⟩

/-- In a list with distinct ids an id is in one place. -/
theorem eq_of_id {ms : List Marker} (hn : (ids ms).Nodup) {i j : Nat} {m m' : Marker}
    (hi : ms[i]? = some m) (hj : ms[j]? = some m') (hid : m.id = m'.id) : i = j := by
  have hi' : (ids ms)[i]? = some m.id := by rw [ids, List.getElem?_map, hi, Option.map_some]
  have hj' : (ids ms)[j]? = some m.id := by rw [ids, List.getElem?_map, hj, Option.map_some, hid]
  have hlt : i < (ids ms).length := (List.getElem?_eq_some_iff.mp hi').1
  exact (List.getElem?_inj hlt hn).mp (hi'.trans hj'.symm)

theorem marker_eq_of_id {ms : List Marker} (hn : (ids ms).Nodup) {m m' : Marker} (hm : m ∈ ms)
    (hm' : m' ∈ ms) (hid : m.id = m'.id) : m = m' :=
  List.inj_on_of_nodup_map hn hm hm' hid

/-! ## What a tick took from the file -/

/-- The list a tick found, and where it stopped: `p` is of its first unreported event. -/
structure Taken (p : Publish) (ms : List Marker) (m : Marker) : Prop where
  snapshot : p.local_db.markers = ms.modify p.k Marker.report
  here : ms[p.k]? = some m
  waits : m.reported = false
  first : ∀ n x, n < p.k → ms[n]? = some x → x.reported = true

/-- The file goes on from what the tick of the publish found. -/
def Sent (file : List Marker) (p : Publish) : Prop :=
  ∃ ms m, Taken p ms m ∧ Extends file ms

theorem Sent.mono {file file' : List Marker} {p : Publish} (h : Sent file p)
    (hf : Extends file' file) : Sent file' p := by
  obtain ⟨ms, m, ht, he⟩ := h
  exact ⟨ms, m, ht, he.trans hf⟩

theorem Taken.data {p : Publish} {ms : List Marker} {m : Marker} (h : Taken p ms m) :
    p.data = some m.report := by
  rw [Publish.data, h.snapshot, List.getElem?_modify, h.here]
  simp

/-- Besides its own event, a snapshot has what the tick found. -/
theorem Taken.getElem? {p : Publish} {ms : List Marker} {m : Marker} (h : Taken p ms m) {n : Nat}
    {x : Marker} (hx : p.local_db.markers[n]? = some x) :
    (n = p.k ∧ x = m.report) ∨ (n ≠ p.k ∧ ms[n]? = some x) := by
  rw [h.snapshot, List.getElem?_modify] at hx
  by_cases hn : p.k = n
  · subst hn
    rw [h.here] at hx
    exact Or.inl ⟨rfl, by simpa using hx.symm⟩
  · exact Or.inr ⟨Ne.symm hn, by simpa [hn] using hx⟩

/-- What the tick found is in the snapshot. -/
theorem Taken.covers {p : Publish} {ms : List Marker} {m : Marker} (h : Taken p ms m) :
    Covers p.local_db.markers ms := by
  intro x hx
  obtain ⟨n, hn⟩ := List.mem_iff_getElem?.mp hx
  have hn' : p.local_db.markers[n]? = some (if p.k = n then x.report else x) := by
    rw [h.snapshot, List.getElem?_modify, hn]
    rfl
  refine ⟨_, List.mem_of_getElem? hn', ?_⟩
  split
  · exact ⟨rfl, id, fun _ => rfl⟩
  · exact ⟨rfl, id, id⟩

theorem Taken.ids_eq {p : Publish} {ms : List Marker} {m : Marker} (h : Taken p ms m) :
    ids p.local_db.markers = ids ms := by
  rw [ids, ids, h.snapshot]
  exact Places.map_modify (g := Marker.id) (f := Marker.report) (fun _ => rfl) ms p.k

theorem taken_of_first {db : Database} {k : Nat} (h : firstUnreported db.markers = some k) :
    ∃ m, Taken { local_db := setReported db k, k := k } db.markers m := by
  obtain ⟨hlt, hk, hfirst⟩ := List.findIdx?_eq_some_iff_getElem.mp h
  refine ⟨db.markers[k], rfl, List.getElem?_eq_getElem hlt, by simpa using hk, ?_⟩
  intro n x hn hx
  obtain ⟨hlt', rfl⟩ := List.getElem?_eq_some_iff.mp hx
  simpa using hfirst n hn

/-! ## The invariant -/

/-- The snapshot has an event of this id as reported. -/
def Reports (p : Publish) (id : Option EventId) : Prop :=
  ∃ m ∈ p.local_db.markers, some m.id = id ∧ m.reported = true

/-- A run in which no callback came late. -/
structure Timely (s : Server) : Prop where
  distinct : DistinctInv s
  /-- The file has gone on from what every tick found. -/
  sent : ∀ p ∈ s.publishes, Sent s.database.markers p
  /-- A later snapshot has the event of an earlier publish as reported, -/
  earlier : ∀ (i j : Nat) (p q : Publish), s.publishes[i]? = some p → s.publishes[j]? = some q →
    i < j → Reports q (p.data.map Marker.id)
  /-- and an earlier one has that of a later publish only if it is its own. -/
  later : ∀ (i j : Nat) (p q : Publish), s.publishes[i]? = some p → s.publishes[j]? = some q →
    i < j → Reports p (q.data.map Marker.id) → q.data.map Marker.id = p.data.map Marker.id

theorem timely_boot {db : Database} (hn : (ids db.markers).Nodup) : Timely (boot db) where
  distinct := distinctInv_init hn
  sent p hp := absurd hp List.not_mem_nil
  earlier i j p q hp := by cases hp
  later i j p q hp := by cases hp

/-- A publish has its own event as reported. -/
theorem Taken.reports {p : Publish} {ms : List Marker} {m : Marker} (h : Taken p ms m) :
    Reports p (p.data.map Marker.id) := by
  have hdata := h.data
  rw [hdata]
  exact ⟨m.report, List.mem_of_getElem? hdata, rfl, rfl⟩

/-- **A callback that comes in time** writes a list that goes on from the file. -/
theorem extends_of_covers {file : List Marker} {p : Publish} (hn : (ids file).Nodup)
    (hs : Sent file p) (hc : Covers p.local_db.markers file) :
    Extends p.local_db.markers file := by
  obtain ⟨ms, m, ht, he⟩ := hs
  intro n x hx
  obtain ⟨x', hx', hid, hv, hr⟩ := hc x (List.mem_of_getElem? hx)
  obtain ⟨n', hn'⟩ := List.mem_iff_getElem?.mp hx'
  -- what the snapshot has at a place, the file has there
  have hplace : ∃ y, file[n']? = some y ∧ y.id = x'.id := by
    rcases ht.getElem? hn' with ⟨rfl, rfl⟩ | ⟨_, hms⟩
    · obtain ⟨y, hy, hyid, _⟩ := he _ _ ht.here
      exact ⟨y, hy, hyid⟩
    · obtain ⟨y, hy, hyid, _⟩ := he _ _ hms
      exact ⟨y, hy, hyid⟩
  obtain ⟨y, hy, hyid⟩ := hplace
  obtain rfl := eq_of_id hn hx hy (hid.symm.trans hyid.symm)
  exact ⟨x', hn', hid, hv, hr⟩

/-- A publish whose callback has run is otherwise the publish it was. -/
theorem getElem?_set_delivery {ps : List Publish} {i j : Nat} {p q : Publish}
    {d : Option WebSocketServer.Delivery} (hi : ps[i]? = some p)
    (hq : (ps.set i { p with delivery := d })[j]? = some q) :
    ∃ q₀, ps[j]? = some q₀ ∧ q.local_db = q₀.local_db ∧ q.k = q₀.k := by
  by_cases hij : i = j
  · subst hij
    rw [List.getElem?_set_self (List.getElem?_eq_some_iff.mp hi).1] at hq
    obtain rfl := Option.some.inj hq
    exact ⟨p, hi, rfl, rfl⟩
  · rw [List.getElem?_set_ne hij] at hq
    exact ⟨q, hq, rfl, rfl⟩

/-- Nor does the invariant change with what the callbacks have brought. -/
theorem Timely.congr {s t : Server} (h : Timely s) (hd : DistinctInv t)
    (hf : Extends t.database.markers s.database.markers)
    (hp : ∀ (j : Nat) (q : Publish), t.publishes[j]? = some q →
      ∃ q₀, s.publishes[j]? = some q₀ ∧ q.local_db = q₀.local_db ∧ q.k = q₀.k) : Timely t := by
  have hdata : ∀ {q q₀ : Publish}, q.local_db = q₀.local_db → q.k = q₀.k → q.data = q₀.data := by
    intro q q₀ hdb hk
    rw [Publish.data, Publish.data, hdb, hk]
  refine ⟨hd, ?_, ?_, ?_⟩
  · intro q hq
    obtain ⟨j, hj⟩ := List.mem_iff_getElem?.mp hq
    obtain ⟨q₀, hq₀, hdb, hk⟩ := hp j q hj
    obtain ⟨ms, m, ht, he⟩ := h.sent q₀ (List.mem_of_getElem? hq₀)
    exact ⟨ms, m, ⟨by rw [hdb, hk]; exact ht.snapshot, by rw [hk]; exact ht.here, ht.waits,
      by rw [hk]; exact ht.first⟩, he.trans hf⟩
  · intro i j p q hi hj hij
    obtain ⟨p₀, hp₀, hpdb, hpk⟩ := hp i p hi
    obtain ⟨q₀, hq₀, hqdb, hqk⟩ := hp j q hj
    rw [Reports, hdata hpdb hpk, hqdb]
    exact h.earlier i j p₀ q₀ hp₀ hq₀ hij
  · intro i j p q hi hj hij
    obtain ⟨p₀, hp₀, hpdb, hpk⟩ := hp i p hi
    obtain ⟨q₀, hq₀, hqdb, hqk⟩ := hp j q hj
    rw [Reports, hdata hpdb hpk, hdata hqdb hqk, hpdb]
    exact h.later i j p₀ q₀ hp₀ hq₀ hij

/-- What a tick takes is behind what earlier ticks took, or it is the same. -/
theorem Taken.reports_sent {file : List Marker} {p q : Publish} {m : Marker}
    (ht : Taken q file m) (hs : Sent file p) : Reports q (p.data.map Marker.id) := by
  obtain ⟨ms, m₀, ht₀, he⟩ := hs
  rw [ht₀.data]
  obtain ⟨y, hy, hyid, _⟩ := he _ _ ht₀.here
  rcases Nat.lt_trichotomy p.k q.k with hlt | heq | hgt
  · -- the search has passed the earlier event
    obtain ⟨z, hz, hzid, _, hzr⟩ := ht.covers y (List.mem_of_getElem? hy)
    exact ⟨z, hz, congrArg some (hzid.trans hyid), hzr (ht.first _ _ hlt hy)⟩
  · -- it has stopped there
    rw [heq, ht.here] at hy
    obtain rfl := Option.some.inj hy
    obtain ⟨z, hz, hzid, hzr⟩ := ht.reports
    rw [ht.data] at hzid
    exact ⟨z, hz, hzid.trans (congrArg some hyid), hzr⟩
  · -- an event in front of the earlier one was reported already then
    have hlt := (List.getElem?_eq_some_iff.mp ht₀.here).1
    have hx : ms[q.k]? = some ms[q.k] := List.getElem?_eq_getElem (Nat.lt_trans hgt hlt)
    obtain ⟨z, hz, _, _, hzr⟩ := he _ _ hx
    rw [ht.here] at hz
    have hrep := hzr (ht₀.first _ _ hgt hx)
    rw [← Option.some.inj hz, ht.waits] at hrep
    cases hrep

/-- No earlier snapshot has it as reported but that of an earlier publish of it. -/
theorem Taken.eq_of_reports {file : List Marker} {p q : Publish} {m : Marker}
    (hn : (ids file).Nodup) (ht : Taken q file m) (hs : Sent file p)
    (hrep : Reports p (some m.id)) : some m.id = p.data.map Marker.id := by
  obtain ⟨ms, m₀, ht₀, he⟩ := hs
  obtain ⟨x, hx, hxid, hxr⟩ := hrep
  rw [ht₀.data]
  obtain ⟨n, hn'⟩ := List.mem_iff_getElem?.mp hx
  rcases ht₀.getElem? hn' with ⟨rfl, rfl⟩ | ⟨_, hms⟩
  · exact hxid.symm
  · -- reported in the tick's list and so in the file, where it waits
    obtain ⟨z, hz, hzid, _, hzr⟩ := he _ _ hms
    obtain rfl := eq_of_id hn hz ht.here (hzid.trans (Option.some.inj hxid))
    rw [ht.here] at hz
    have hrep := hzr hxr
    rw [← Option.some.inj hz, ht.waits] at hrep
    cases hrep

/-- **A tick**: the new publish is of the first event that waits, and no other snapshot has it. -/
theorem timely_started {s : Server} {k : Nat} (h : Timely s)
    (hk : firstUnreported s.database.markers = some k)
    (hd : DistinctInv { s with
      publishes := s.publishes ++ [{ local_db := setReported s.database k, k := k }] }) :
    Timely { s with
      publishes := s.publishes ++ [{ local_db := setReported s.database k, k := k }] } := by
  obtain ⟨m, ht⟩ := taken_of_first hk
  -- the places of two publishes, the later one old or new
  have hplaces : ∀ (i j : Nat) (p q : Publish),
      (s.publishes ++ [{ local_db := setReported s.database k, k := k }])[i]? = some p →
      (s.publishes ++ [{ local_db := setReported s.database k, k := k }])[j]? = some q → i < j →
      s.publishes[i]? = some p ∧ (s.publishes[j]? = some q
        ∨ q = { local_db := setReported s.database k, k := k }) := by
    intro i j p q hi hj hij
    have hlen := (List.getElem?_eq_some_iff.mp hj).1
    rw [List.length_append, List.length_singleton] at hlen
    rw [List.getElem?_append_left (by omega)] at hi
    rcases Places.getElem?_concat hj with hold | ⟨_, hnew⟩
    · exact ⟨hi, Or.inl hold⟩
    · exact ⟨hi, Or.inr hnew⟩
  refine ⟨hd, ?_, ?_, ?_⟩
  · exact Places.forall_mem_concat h.sent ⟨_, m, ht, extends_refl _⟩
  · intro i j p q hi hj hij
    obtain ⟨hi, hj | rfl⟩ := hplaces i j p q hi hj hij
    · exact h.earlier i j p q hi hj hij
    · exact ht.reports_sent (h.sent p (List.mem_of_getElem? hi))
  · intro i j p q hi hj hij
    obtain ⟨hi, hj | rfl⟩ := hplaces i j p q hi hj hij
    · exact h.later i j p q hi hj hij
    · rw [ht.data]
      intro hrep
      exact ht.eq_of_reports (m := m) h.distinct.file (h.sent p (List.mem_of_getElem? hi)) hrep

theorem timely_step {s t : Server} {e : Event} (h : Timely s)
    (hs : Lts.Guarded Step Fresh s e t) : Timely t := by
  obtain ⟨hstep, hfresh⟩ := hs
  have hd := distinctInv_step h.distinct hstep
  have hsame : ∀ (j : Nat) (q : Publish), s.publishes[j]? = some q →
      ∃ q₀, s.publishes[j]? = some q₀ ∧ q.local_db = q₀.local_db ∧ q.k = q₀.k :=
    fun j q hq => ⟨q, hq, rfl, rfl⟩
  cases step_effect hstep with
  | connect => exact h.congr hd (extends_refl _) hsame
  | client => exact h.congr hd (prefix_extends (prefix_merge h.distinct.file _)) hsame
  | mqtt => exact h.congr hd (prefix_extends (prefix_merge h.distinct.file _)) hsame
  | quiet => exact h
  | started _ hk => exact timely_started h hk hd
  | @published i d p hget _ =>
      have hmem := List.mem_of_getElem? hget
      refine h.congr hd ?_ fun j q hq => getElem?_set_delivery hget hq
      show Extends (setReported p.local_db p.k).markers s.database.markers
      rw [(h.distinct.snapshots p hmem).2]
      exact extends_of_covers h.distinct.file (h.sent p hmem) (hfresh p hget)

/-! ## What overtakes a publish -/

/-- A message leaves a snapshot that covers the file so exactly if it brings nothing. -/
theorem covers_merge_iff {s : Server} {p : Publish} (h : Timely s) (hp : p ∈ s.publishes)
    (remote_db : Database) :
    Covers p.local_db.markers (mergeDatabases s.database remote_db).markers
      ↔ Covers p.local_db.markers s.database.markers
        ∧ ¬ ∃ m ∈ remote_db.markers, m.id ∉ ids s.database.markers := by
  have hn := h.distinct.file
  constructor
  · intro hc
    refine ⟨(covers_of_subset (prefix_merge hn _).subset).trans hc, ?_⟩
    intro hnew
    obtain ⟨m, hm, hid⟩ := hnew
    -- the snapshot would have to know the id, and the file has all it knew
    obtain ⟨ms, m₀, ht, he⟩ := h.sent p hp
    have hmerged : m.id ∈ ids (mergeDatabases s.database remote_db).markers :=
      mem_ids_merge.mpr (Or.inr (mem_ids_of_mem hm))
    obtain ⟨x, hx, hxid⟩ := mem_ids.mp hmerged
    obtain ⟨y, hy, hyid, _⟩ := hc x hx
    have hmem : m.id ∈ ids p.local_db.markers := mem_ids.mpr ⟨y, hy, hyid.trans hxid⟩
    rw [ht.ids_eq] at hmem
    exact hid (he.ids_subset hmem)
  · intro hc
    obtain ⟨hc, hnew⟩ := hc
    rw [merge_of_known hn]
    · exact hc
    · intro m hm
      by_contra hid
      exact hnew ⟨m, hm, hid⟩

/-- So does the callback of another publish, exactly if that is not a later one of another event. -/
theorem covers_snapshot_iff {s : Server} {i j : Nat} {p q : Publish} (h : Timely s)
    (hi : s.publishes[i]? = some p) (hj : s.publishes[j]? = some q) (hij : i ≠ j)
    (hq : Covers q.local_db.markers s.database.markers) :
    Covers p.local_db.markers q.local_db.markers
      ↔ Covers p.local_db.markers s.database.markers
        ∧ ¬ (i < j ∧ q.data.map Marker.id ≠ p.data.map Marker.id) := by
  obtain ⟨ms, m, ht, he⟩ := h.sent q (List.mem_of_getElem? hj)
  obtain ⟨ms₀, m₀, ht₀, _⟩ := h.sent p (List.mem_of_getElem? hi)
  constructor
  · intro hc
    refine ⟨hq.trans hc, ?_⟩
    intro hlate
    obtain ⟨x, hx, hxid, hxr⟩ := ht.reports
    obtain ⟨y, hy, hyid, _, hyr⟩ := hc x hx
    refine hlate.2 (h.later i j p q hi hj hlate.1 ⟨y, hy, ?_, hyr hxr⟩)
    rw [hyid, hxid]
  · intro hc x hx
    obtain ⟨hc, hlate⟩ := hc
    obtain ⟨n, hn⟩ := List.mem_iff_getElem?.mp hx
    rcases ht.getElem? hn with ⟨rfl, rfl⟩ | ⟨_, hms⟩
    · -- the event of `q`: the file has it, and `p` has it as reported
      have hrep : Reports p (q.data.map Marker.id) := by
        rcases Nat.lt_or_gt_of_ne hij with hlt | hgt
        · have hsame : q.data.map Marker.id = p.data.map Marker.id := by
            by_contra hne
            exact hlate ⟨hlt, hne⟩
          rw [hsame]
          exact ht₀.reports
        · exact h.earlier j i q p hj hi hgt
      obtain ⟨y, hy, hyid, hyv, _⟩ := he _ _ ht.here
      obtain ⟨z, hz, hzid, hzv, _⟩ := hc y (List.mem_of_getElem? hy)
      obtain ⟨z', hz', hzid', hzr⟩ := hrep
      rw [ht.data] at hzid'
      have hn := (h.distinct.snapshots p (List.mem_of_getElem? hi)).1
      obtain rfl := marker_eq_of_id hn hz hz'
        (hzid.trans (hyid.trans (Option.some.inj hzid').symm))
      exact ⟨z, hz, hzid.trans hyid, hzv ∘ hyv, fun _ => hzr⟩
    · -- every other event the tick of `q` found in the file
      obtain ⟨y, hy, hyid, hyv, hyr⟩ := he _ _ hms
      obtain ⟨z, hz, hzid, hzv, hzr⟩ := hc y (List.mem_of_getElem? hy)
      exact ⟨z, hz, hzid.trans hyid, hzv ∘ hyv, hzr ∘ hyr⟩

/-- The `i`-th publish waits for its callback. -/
def Pending (s : Server) (i : Nat) (p : Publish) : Prop :=
  s.publishes[i]? = some p ∧ p.delivery = none

/-- **What overtakes a publish**: of the steps it waits through, one that its snapshot lacks. -/
theorem covers_step {s t : Server} {e : Event} {i : Nat} {p : Publish} (h : Timely s)
    (hs : Lts.Guarded Step Fresh s e t) (hp : Pending s i p) (ht : Pending t i p) :
    Covers p.local_db.markers t.database.markers
      ↔ Covers p.local_db.markers s.database.markers ∧ ¬ Overtakes i s e := by
  obtain ⟨hstep, hfresh⟩ := hs
  have hmem := List.mem_of_getElem? hp.1
  have hnone : ∀ (e : Event), payload e = [] →
      ¬ ∃ m ∈ payload e, m.id ∉ ids s.database.markers := by
    intro e he hm
    obtain ⟨m, hm, _⟩ := hm
    rw [he] at hm
    cases hm
  cases step_effect hstep with
  | connect => exact (and_iff_left (hnone .connect rfl)).symm
  | quiet => exact (and_iff_left (hnone .tick rfl)).symm
  | started => exact (and_iff_left (hnone .tick rfl)).symm
  | client => exact covers_merge_iff h hmem _
  | mqtt => exact covers_merge_iff h hmem _
  | @published j d q hget hdel =>
      have hij : i ≠ j := by
        intro hij
        subst hij
        -- after its own callback a publish waits no more
        have hnow := ht.1
        rw [List.getElem?_set_self (List.getElem?_eq_some_iff.mp hget).1] at hnow
        have hpend := ht.2
        rw [← Option.some.inj hnow] at hpend
        cases hpend
      have hq := (h.distinct.snapshots q (List.mem_of_getElem? hget)).2
      show Covers p.local_db.markers (setReported q.local_db q.k).markers ↔ _
      rw [hq, covers_snapshot_iff h hp.1 hget hij (hfresh q hget)]
      simp only [Overtakes, Server.sends, hget, hp.1, Option.bind_some]

/-! ## Whole runs -/

/-- A publish that waits after a step waited before it, or it is the step's own. -/
theorem pending_step {s t : Server} {e : Event} {i : Nat} {p : Publish} (hs : Step s e t)
    (ht : Pending t i p) :
    Pending s i p ∨ (i = s.publishes.length ∧ t.database = s.database
      ∧ ∃ m, Taken p s.database.markers m) := by
  obtain ⟨hget, hdel⟩ := ht
  cases step_effect hs with
  | connect => exact Or.inl ⟨hget, hdel⟩
  | client => exact Or.inl ⟨hget, hdel⟩
  | mqtt => exact Or.inl ⟨hget, hdel⟩
  | quiet => exact Or.inl ⟨hget, hdel⟩
  | @started k _ hk =>
      rcases Places.getElem?_concat hget with hold | ⟨hlast, hnew⟩
      · exact Or.inl ⟨hold, hdel⟩
      · subst hnew
        exact Or.inr ⟨hlast, rfl, taken_of_first hk⟩
  | @published j d q hq _ =>
      refine Or.inl ⟨?_, hdel⟩
      by_cases hij : j = i
      · subst hij
        have hlt := (List.getElem?_eq_some_iff.mp hq).1
        rw [List.getElem?_set_self hlt] at hget
        rw [← Option.some.inj hget] at hdel
        cases hdel
      · rwa [List.getElem?_set_ne hij] at hget

/-- The number of publishes never falls. -/
theorem length_publishes_le {s t : Server} {e : Event} (hs : Step s e t) :
    s.publishes.length ≤ t.publishes.length := by
  cases step_effect hs with
  | connect => exact le_rfl
  | client => exact le_rfl
  | mqtt => exact le_rfl
  | quiet => exact le_rfl
  | started => exact List.length_append ▸ Nat.le_add_right _ _
  | published => exact List.length_set.ge

/-- What a run without stale callbacks says of the publishes that still wait. -/
structure Watched (db : Database) (es : List Event) (s : Server) : Prop where
  timely : Timely s
  /-- A publish yet to come has not been overtaken, -/
  ahead : ∀ i, s.publishes.length ≤ i → Lts.Run (Lts.Guarded Step (Passes i)) (boot db) es s
  /-- and one that waits has not exactly if its snapshot is not behind the file. -/
  current : ∀ (i : Nat) (p : Publish), Pending s i p →
    (Covers p.local_db.markers s.database.markers
      ↔ Lts.Run (Lts.Guarded Step (Passes i)) (boot db) es s)

theorem watched_boot {db : Database} (hn : (ids db.markers).Nodup) : Watched db [] (boot db) where
  timely := timely_boot hn
  ahead i hi := .nil
  current i p hp := by cases hp.1

theorem watched_step {db : Database} {es : List Event} {s t : Server} {e : Event}
    (hrun : Lts.Run Step (boot db) es s) (h : Watched db es s)
    (hs : Lts.Guarded Step Fresh s e t) : Watched db (es ++ [e]) t := by
  have hone : ∀ i, Lts.Run (Lts.Guarded Step (Passes i)) (boot db) (es ++ [e]) t
      ↔ Lts.Run (Lts.Guarded Step (Passes i)) (boot db) es s ∧ Passes i s e :=
    fun i => hrun.guarded_concat_iff step_deterministic hs.1
  have hahead : ∀ i, s.publishes.length ≤ i →
      Lts.Run (Lts.Guarded Step (Passes i)) (boot db) (es ++ [e]) t :=
    fun i hi => (hone i).mpr ⟨h.ahead i hi, fun hlt => absurd hlt (Nat.not_lt.mpr hi)⟩
  refine ⟨timely_step h.timely hs, ?_, ?_⟩
  · intro i hi
    exact hahead i ((length_publishes_le hs.1).trans hi)
  · intro i p hp
    rcases pending_step hs.1 hp with hold | ⟨hi, hdb, m, ht⟩
    · have hlt : i < s.publishes.length := (List.getElem?_eq_some_iff.mp hold.1).1
      rw [covers_step h.timely hs hold hp, hone, h.current i p hold]
      exact and_congr_right fun _ => ⟨fun hov _ => hov, fun hpass => hpass hlt⟩
    · -- the tick's own snapshot is not behind the file
      rw [hdb]
      exact ⟨fun _ => hahead i hi.ge, fun _ => ht.covers⟩

theorem watched_run {db : Database} {es : List Event} {s : Server} (hn : (ids db.markers).Nodup)
    (hrun : Lts.Run (Lts.Guarded Step Fresh) (boot db) es s) : Watched db es s :=
  hrun.history (I := Watched db) (fun hpre h hs => watched_step hpre.unguard h hs)
    (watched_boot hn)

/--
**The database only grows** over a whole run exactly if every callback comes in time: since
its tick no message has brought an event that the file lacked, and no publish that was made
later has had its callback, unless it was of the same event.
-/
theorem grows_iff {db : Database} (hn : (ids db.markers).Nodup) {es : List Event} {s : Server}
    (hrun : Lts.Run Step (boot db) es s) :
    Lts.Throughout Step Grows (boot db) es ↔ InTime db es := by
  rw [throughout_iff_fresh hn hrun]
  constructor
  · intro hfresh pre i d post u he hpre
    rw [he] at hfresh
    obtain ⟨u', hpre', hrest⟩ := hfresh.split
    obtain rfl := run_deterministic hpre hpre'.unguard
    cases hrest with
    | cons hcall _ =>
        obtain ⟨p, hget, hdel⟩ := hcall.1.1
        exact ((watched_run hn hpre').current i p ⟨hget, hdel⟩).mp (hcall.2 p hget)
  · intro htime
    refine hrun.guard_of_guarded ?_
    intro pre e post u v he hpre hs
    cases e with
    | published i d =>
        intro p hget
        obtain ⟨q, hq, hdel⟩ := hs.1
        obtain rfl := Option.some.inj (hget.symm.trans hq)
        exact ((watched_run hn hpre).current i p ⟨hget, hdel⟩).mpr
          (htime pre i d post u he hpre.unguard)
    | connect => trivial
    | clientMessage remote_db => trivial
    | mqttMessage remote_db => trivial
    | tick => trivial

/-- A server with one event, connected to the broker. -/
def connected : Server := handle (boot (readmeDatabase [readmeEvent idA])) .connect

/-- A message with another event. -/
def news : Event := .clientMessage (readmeDatabase [readmeEvent idB])

/--
Two publishes of the same event, while a message repeats it. The message that has another
event was handled before, so the callbacks have nothing to lose, in either order.
-/
theorem grows_message_first :
    Lts.Throughout Step Grows (boot (readmeDatabase [readmeEvent idA]))
      [.connect, news, .tick, .tick, .clientMessage (readmeDatabase [readmeEvent idA]),
        .published 1 .success, .published 0 .success] := by
  have hn : (ids (readmeDatabase [readmeEvent idA]).markers).Nodup := List.nodup_singleton _
  -- up to the first callback, and up to the second
  have hfirst : ∀ i, Lts.Run (Lts.Guarded Step (Passes i)) (boot (readmeDatabase [readmeEvent idA]))
      [.connect, news, .tick, .tick, .clientMessage (readmeDatabase [readmeEvent idA])]
      (handle (handle (handle (handle connected news) .tick) .tick)
        (.clientMessage (readmeDatabase [readmeEvent idA]))) := by
    intro i
    refine .cons ⟨⟨trivial, rfl⟩, fun hi => absurd hi (Nat.not_lt_zero i)⟩ ?_
    refine .cons ⟨⟨trivial, rfl⟩, fun hi => absurd hi (Nat.not_lt_zero i)⟩ ?_
    refine .cons ⟨⟨trivial, rfl⟩, fun _ ho => ?_⟩ ?_
    · obtain ⟨m, hm, _⟩ := ho
      cases hm
    refine .cons ⟨⟨trivial, rfl⟩, fun _ ho => ?_⟩ ?_
    · obtain ⟨m, hm, _⟩ := ho
      cases hm
    refine .single ⟨⟨trivial, rfl⟩, fun _ ho => ?_⟩
    obtain ⟨m, hm, hid⟩ := ho
    obtain rfl := List.mem_singleton.mp hm
    exact hid (by decide)
  have hsecond := (hfirst 0).append (.single
    (⟨⟨⟨_, rfl, rfl⟩, rfl⟩, fun _ ho => ho.2 (by decide)⟩ :
      Lts.Guarded Step (Passes 0) _ (.published 1 .success) _))
  have hrun := hsecond.unguard.append (.single
    (⟨⟨_, rfl, rfl⟩, rfl⟩ : Step _ (.published 0 .success) _))
  refine (grows_iff hn hrun).mpr ?_
  intro pre i d post s he hpre
  -- the callbacks of the run are these two
  simp only [news, List.cons_append, List.nil_append, List.cons_eq_append_iff, List.cons.injEq,
    reduceCtorEq, false_and, and_false, Event.published.injEq, List.nil_eq,
    List.append_eq_nil_iff, exists_const, or_false, existsAndEq, true_and, false_or] at he
  obtain ⟨as, rfl, ⟨rfl, ⟨rfl, rfl⟩, rfl⟩ | ⟨rfl, ⟨rfl, rfl⟩, rfl⟩⟩ := he
  · obtain rfl := run_deterministic (hfirst 1).unguard hpre
    exact hfirst 1
  · obtain rfl := run_deterministic hsecond.unguard hpre
    exact hsecond

/--
A message handled between a tick and its callback is lost: the callback writes a
database without its event.
-/
theorem stale_callback_loses :
    ¬ ∀ (db : Database) (es : List Event) (s : Server), (ids db.markers).Nodup →
      Lts.Run Step (boot db) es s → Lts.Throughout Step Grows (boot db) es := by
  intro h
  have hpre : Lts.Run Step (boot (readmeDatabase [readmeEvent idA])) [.connect, .tick, news]
      (handle (handle connected .tick) news) :=
    .cons ⟨trivial, rfl⟩ (.cons ⟨trivial, rfl⟩ (.single ⟨trivial, rfl⟩))
  have hlast : Lts.Run Step (handle (handle connected .tick) news) [.published 0 .success]
      (handle (handle (handle connected .tick) news) (.published 0 .success)) :=
    .single ⟨⟨_, rfl, rfl⟩, rfl⟩
  have hn : (ids (readmeDatabase [readmeEvent idA]).markers).Nodup := List.nodup_singleton _
  have hgrow := h _ _ _ hn (hpre.append hlast) _ _ [] _ _ rfl hpre hlast
  -- the event the message brought is there before the callback and not after it
  have hB : (readmeEvent idB).validate ∈
      (handle (handle connected .tick) news).database.markers := by decide
  obtain ⟨m, hm, hid, _⟩ := hgrow _ hB
  have hA : m = (readmeEvent idA).report := List.mem_singleton.mp hm
  rw [hA] at hid
  exact idA_ne_idB hid

end EssApp.Readme
