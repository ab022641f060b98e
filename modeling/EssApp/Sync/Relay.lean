import EssApp.Lib.Places
import EssApp.Sync.App
import Mathlib.Data.List.Nodup
import Mathlib.Logic.Function.Basic

/-!
# Events travel by syncs

Any number of apps and units, meeting in whole syncs. A sync leaves both sides with
the same list, which has every id either side had, so ids only spread, and a chain
of syncs carries them from any node to any other (`carried`). On the way nothing
about an event changes but its marks: `OriginInv` traces every copy back to the
creation or to the initial copies.
-/

namespace EssApp.Sync

open Readme

/-- Apps `ι` and units `κ`. -/
structure World (ι κ : Type) where
  apps : ι → App
  units : κ → Server

namespace Relay

inductive Event (ι κ : Type) where
  /-- The user of app `i` reports an event under a drawn id. -/
  | create (i : ι) (latlng : LatLng) (type : String) (id : EventId) (timestamp : JsonNumber)
  /-- App `i` and unit `k` do one whole sync. -/
  | sync (i : ι) (k : κ)

variable {ι κ : Type}

/-- What a node holds: an app its list, a unit its database's. -/
def held (w : World ι κ) : ι ⊕ κ → List Marker
  | .inl i => (w.apps i).marker_list
  | .inr k => (w.units k).database.markers

/-- What a sync of `i` and `k` leaves both of them with. -/
def synced (w : World ι κ) (i : ι) (k : κ) : List Marker :=
  (mergeDatabases (w.units k).database (w.apps i).database).markers

section

variable [DecidableEq ι] [DecidableEq κ]

inductive Step (w : World ι κ) : Event ι κ → World ι κ → Prop where
  /-- No other event has the drawn id. -/
  | create {i : ι} {latlng : LatLng} {type : String} {id : EventId} {timestamp : JsonNumber} :
      (∀ x, id ∉ ids (held w x)) →
      Step w (.create i latlng type id timestamp)
        { w with
          apps := Function.update w.apps i
            ((w.apps i).onClick (newEvent latlng type id timestamp)) }
  | sync {i : ι} {k : κ} :
      Step w (.sync i k)
        { apps := Function.update w.apps i (exchange (w.apps i) (w.units k)).1
          units := Function.update w.units k (exchange (w.apps i) (w.units k)).2 }

/-- **What a step does to a node**: nothing, a new event on an app, or the result of a sync. -/
inductive NodeEffect (w : World ι κ) : Event ι κ → ι ⊕ κ → List Marker → Prop where
  | kept {e : Event ι κ} {x : ι ⊕ κ} : NodeEffect w e x (held w x)
  | created {i : ι} {latlng : LatLng} {type : String} {id : EventId} {timestamp : JsonNumber} :
      NodeEffect w (.create i latlng type id timestamp) (.inl i)
        (held w (.inl i) ++ [newEvent latlng type id timestamp])
  | app {i : ι} {k : κ} : NodeEffect w (.sync i k) (.inl i) (synced w i k)
  | unit {i : ι} {k : κ} : NodeEffect w (.sync i k) (.inr k) (synced w i k)

theorem step_node {w w' : World ι κ} {e : Event ι κ} (h : Step w e w') (x : ι ⊕ κ) :
    NodeEffect w e x (held w' x) := by
  cases h with
  | @create i latlng type id timestamp hfresh =>
      cases x with
      | inl j =>
          by_cases hj : j = i
          · subst hj
            show NodeEffect w _ (.inl j) (Function.update w.apps j _ j).marker_list
            rw [Function.update_self]
            exact .created
          · show NodeEffect w _ (.inl j) (Function.update w.apps i _ j).marker_list
            rw [Function.update_of_ne hj]
            exact .kept
      | inr k => exact .kept
  | @sync i k =>
      cases x with
      | inl j =>
          by_cases hj : j = i
          · subst hj
            show NodeEffect w _ (.inl j) (Function.update w.apps j _ j).marker_list
            rw [Function.update_self]
            exact .app
          · show NodeEffect w _ (.inl j) (Function.update w.apps i _ j).marker_list
            rw [Function.update_of_ne hj]
            exact .kept
      | inr j =>
          by_cases hj : j = k
          · subst hj
            show NodeEffect w _ (.inr j) (Function.update w.units j _ j).database.markers
            rw [Function.update_self]
            exact .unit
          · show NodeEffect w _ (.inr j) (Function.update w.units k _ j).database.markers
            rw [Function.update_of_ne hj]
            exact .kept

/-- After a sync both sides hold the same list. -/
theorem held_sync {w w' : World ι κ} {i : ι} {k : κ} (h : Step w (.sync i k) w') :
    held w' (.inl i) = synced w i k ∧ held w' (.inr k) = synced w i k := by
  cases h with
  | sync =>
      refine ⟨?_, ?_⟩
      · show (Function.update w.apps i _ i).marker_list = _
        rw [Function.update_self, (exchange_markers _ _).1]
        rfl
      · show (Function.update w.units k _ k).database.markers = _
        rw [Function.update_self, (exchange_markers _ _).2]
        rfl

end

theorem mem_ids_synced {w : World ι κ} {i : ι} {k : κ} {id : EventId} :
    id ∈ ids (synced w i k) ↔ id ∈ ids (held w (.inr k)) ∨ id ∈ ids (held w (.inl i)) :=
  mem_ids_merge

/-- A copy a sync leaves is one of the two sides', at most marked. -/
theorem mem_synced {w : World ι κ} {i : ι} {k : κ} {m : Marker} (h : m ∈ synced w i k) :
    m ∈ held w (.inr k) ∨ ∃ r ∈ held w (.inl i), m = r.validate := by
  rcases mem_merge h with h | ⟨r, hr, _, hm⟩
  · exact Or.inl h
  · exact Or.inr ⟨r, hr, hm⟩

/-! ## Ids spread -/

/-- A chain of syncs within a run that leads from one node to another. -/
inductive Carries : ι ⊕ κ → List (Event ι κ) → ι ⊕ κ → Prop where
  /-- The chain has arrived; whatever else happens. -/
  | here {x : ι ⊕ κ} : Carries x [] x
  /-- A step that is not part of the chain. -/
  | wait {x y : ι ⊕ κ} {e : Event ι κ} {es : List (Event ι κ)} :
      Carries x es y → Carries x (e :: es) y
  /-- The app passes on to the unit, -/
  | up {i : ι} {k : κ} {y : ι ⊕ κ} {es : List (Event ι κ)} :
      Carries (.inr k) es y → Carries (.inl i) (.sync i k :: es) y
  /-- or the unit to the app. -/
  | down {i : ι} {k : κ} {y : ι ⊕ κ} {es : List (Event ι κ)} :
      Carries (.inl i) es y → Carries (.inr k) (.sync i k :: es) y

section

variable [DecidableEq ι] [DecidableEq κ]

/-- No node loses an id. -/
theorem ids_step {w w' : World ι κ} {e : Event ι κ} (h : Step w e w') (x : ι ⊕ κ) :
    ids (held w x) ⊆ ids (held w' x) := by
  have hx := step_node h x
  generalize held w' x = ms at hx
  cases hx with
  | kept => exact List.Subset.refl _
  | created =>
      rw [ids, ids, List.map_append]
      exact List.subset_append_left _ _
  | app => exact fun id hid => mem_ids_synced.mpr (Or.inr hid)
  | unit => exact fun id hid => mem_ids_synced.mpr (Or.inl hid)

/-- **What a node holds, the end of every chain from it holds.** -/
theorem carried {u v : World ι κ} {x y : ι ⊕ κ} {es : List (Event ι κ)}
    (hrun : Lts.Run Step u es v) (hc : Carries x es y) : ids (held u x) ⊆ ids (held v y) := by
  induction hc generalizing u with
  | here =>
      cases hrun
      exact List.Subset.refl _
  | @wait x y e es _ ih =>
      -- the node the chain has reached keeps what it holds meanwhile
      cases hrun with
      | cons hs hr => exact List.Subset.trans (ids_step hs x) (ih hr)
  | @up i k y es _ ih =>
      cases hrun with
      | @cons _ u' _ _ _ hs hr =>
          have hk : ids (held u (.inl i)) ⊆ ids (held u' (.inr k)) := by
            rw [(held_sync hs).2]
            exact fun id hid => mem_ids_synced.mpr (Or.inr hid)
          exact List.Subset.trans hk (ih hr)
  | @down i k y es _ ih =>
      cases hrun with
      | @cons _ u' _ _ _ hs hr =>
          have hi : ids (held u (.inr k)) ⊆ ids (held u' (.inl i)) := by
            rw [(held_sync hs).1]
            exact fun id hid => mem_ids_synced.mpr (Or.inl hid)
          exact List.Subset.trans hi (ih hr)

end

/-! ## Events do not change -/

/-- Two copies of one event agree on what it is about. -/
structure Same (m m' : Marker) : Prop where
  latlng : m'.latlng = m.latlng
  type : m'.type = m.type
  timestamp : m'.timestamp = m.timestamp

/-- Where a copy comes from, and that it agrees with everything it could come from. -/
structure Origin (w₀ : World ι κ) (es : List (Event ι κ)) (m : Marker) : Prop where
  /-- It is as in every initial copy of the event, -/
  stored : ∀ x, ∀ m₀ ∈ held w₀ x, m₀.id = m.id → Same m₀ m
  /-- and as it was created, -/
  created : ∀ i latlng type timestamp, .create i latlng type m.id timestamp ∈ es →
    Same (newEvent latlng type m.id timestamp) m
  /-- and it was initially stored or created. -/
  known : (∃ x, m.id ∈ ids (held w₀ x))
    ∨ ∃ i latlng type timestamp, .create i latlng type m.id timestamp ∈ es

/-- Marking a copy keeps its origin. -/
theorem Origin.validate {w₀ : World ι κ} {es : List (Event ι κ)} {m : Marker}
    (h : Origin w₀ es m) : Origin w₀ es m.validate where
  stored x m₀ hm₀ hid := ⟨(h.stored x m₀ hm₀ hid).latlng, (h.stored x m₀ hm₀ hid).type,
    (h.stored x m₀ hm₀ hid).timestamp⟩
  created i latlng type timestamp he := ⟨(h.created i latlng type timestamp he).latlng,
    (h.created i latlng type timestamp he).type, (h.created i latlng type timestamp he).timestamp⟩
  known := h.known

/-- A step that does not create the event keeps the origin of its copies. -/
theorem Origin.later {w₀ : World ι κ} {es : List (Event ι κ)} {e : Event ι κ} {m : Marker}
    (h : Origin w₀ es m)
    (he : ∀ i latlng type timestamp, e ≠ .create i latlng type m.id timestamp) :
    Origin w₀ (es ++ [e]) m where
  stored := h.stored
  created i latlng type timestamp hmem := by
    rcases List.mem_append.mp hmem with hmem | hmem
    · exact h.created i latlng type timestamp hmem
    · exact absurd (List.mem_singleton.mp hmem).symm (he i latlng type timestamp)
  known := by
    rcases h.known with hx | ⟨i, latlng, type, timestamp, hmem⟩
    · exact Or.inl hx
    · exact Or.inr ⟨i, latlng, type, timestamp, List.mem_append_left _ hmem⟩

/-- The invariant of a run `es` from `w₀`. -/
structure OriginInv (w₀ : World ι κ) (es : List (Event ι κ)) (w : World ι κ) : Prop where
  copies : ∀ x, ∀ m ∈ held w x, Origin w₀ es m
  distinct : ∀ x, (ids (held w x)).Nodup
  /-- What was initially stored is where it was, -/
  stored : ∀ x, ids (held w₀ x) ⊆ ids (held w x)
  /-- and what was created is where it was created. -/
  created : ∀ i latlng type id timestamp, .create i latlng type id timestamp ∈ es →
    id ∈ ids (held w (.inl i))

/-- The initial copies of one event agree. -/
def Agree (w₀ : World ι κ) : Prop :=
  ∀ x y, ∀ m ∈ held w₀ x, ∀ m' ∈ held w₀ y, m.id = m'.id → Same m m'

theorem originInv_init {w₀ : World ι κ} (hn : ∀ x, (ids (held w₀ x)).Nodup) (ha : Agree w₀) :
    OriginInv w₀ [] w₀ where
  copies x m hm := ⟨fun y m₀ hm₀ hid => ha y x m₀ hm₀ m hm hid,
    fun _ _ _ _ he => absurd he (by simp), Or.inl ⟨x, mem_ids_of_mem hm⟩⟩
  distinct := hn
  stored x := List.Subset.refl _
  created i latlng type id timestamp he := absurd he (by simp)

/-- A drawn id is new to every node, and so to the history. -/
theorem origin_new {w₀ w : World ι κ} {es : List (Event ι κ)} {i : ι} {latlng : LatLng}
    {type : String} {id : EventId} {timestamp : JsonNumber} (h : OriginInv w₀ es w)
    (hfresh : ∀ x, id ∉ ids (held w x)) :
    Origin w₀ (es ++ [.create i latlng type id timestamp]) (newEvent latlng type id timestamp) where
  stored x m₀ hm₀ hid := absurd (h.stored x (mem_ids.mpr ⟨m₀, hm₀, hid⟩)) (hfresh x)
  created j latlng' type' timestamp' hmem := by
    rcases List.mem_append.mp hmem with hmem | hmem
    · exact absurd (h.created j latlng' type' id timestamp' hmem) (hfresh (.inl j))
    · cases List.mem_singleton.mp hmem
      exact ⟨rfl, rfl, rfl⟩
  known := Or.inr ⟨i, latlng, type, timestamp, List.mem_append_right _ List.mem_cons_self⟩

section

variable [DecidableEq ι] [DecidableEq κ]

/-- A copy after a step is an old one, an old one marked, or the new event. -/
theorem copies_step {w₀ w w' : World ι κ} {es : List (Event ι κ)} {e : Event ι κ}
    (h : OriginInv w₀ es w) (hs : Step w e w') (x : ι ⊕ κ) :
    ∀ m ∈ held w' x, Origin w₀ (es ++ [e]) m := by
  -- an id that some node holds is not the one being created
  have hlater : ∀ x, ∀ m ∈ held w x, Origin w₀ (es ++ [e]) m := by
    intro x m hm
    refine (h.copies x m hm).later ?_
    intro i latlng type timestamp he
    subst he
    cases hs with
    | create hfresh => exact hfresh x (mem_ids_of_mem hm)
  have hsynced : ∀ i k, ∀ m ∈ synced w i k, Origin w₀ (es ++ [e]) m := by
    intro i k m hm
    rcases mem_synced hm with hm | ⟨r, hr, rfl⟩
    · exact hlater _ m hm
    · exact (hlater _ r hr).validate
  have hx := step_node hs x
  generalize held w' x = ms at hx
  cases hx with
  | kept => exact hlater x
  | created =>
      cases hs with
      | create hfresh => exact Places.forall_mem_concat (hlater _) (origin_new h hfresh)
  | app => exact hsynced _ _
  | unit => exact hsynced _ _

/-- A drawn id is new to the app that draws it, and a merge has no id twice. -/
theorem distinct_step {w₀ w w' : World ι κ} {es : List (Event ι κ)} {e : Event ι κ}
    (h : OriginInv w₀ es w) (hs : Step w e w') (x : ι ⊕ κ) : (ids (held w' x)).Nodup := by
  have hx := step_node hs x
  generalize held w' x = ms at hx
  cases hx with
  | kept => exact h.distinct x
  | created =>
      cases hs with
      | create hfresh =>
          rw [ids, List.map_append]
          refine List.Nodup.append (h.distinct _) (List.nodup_singleton _) ?_
          intro id' h1 h2
          rw [List.map_singleton, List.mem_singleton] at h2
          exact hfresh _ (h2 ▸ h1)
  | app => exact nodup_merge _ _
  | unit => exact nodup_merge _ _

/-- **Every step keeps every copy true to its origin.** -/
theorem originInv_step {w₀ w w' : World ι κ} {es : List (Event ι κ)} {e : Event ι κ}
    (h : OriginInv w₀ es w) (hs : Step w e w') : OriginInv w₀ (es ++ [e]) w' := by
  refine ⟨copies_step h hs, distinct_step h hs,
    fun x => List.Subset.trans (h.stored x) (ids_step hs x), ?_⟩
  intro i latlng type id timestamp hmem
  rcases List.mem_append.mp hmem with hmem | hmem
  · exact ids_step hs _ (h.created i latlng type id timestamp hmem)
  · -- the app that created the event holds it
    cases List.mem_singleton.mp hmem
    cases hs with
    | create _ =>
        show id ∈ ids (Function.update w.apps i _ i).marker_list
        rw [Function.update_self]
        exact mem_ids.mpr ⟨_, mem_onClick.mpr (Or.inr rfl), rfl⟩

/--
**Events spread without loss or alteration.** From distinct ids and agreeing copies:
whatever a node holds at some moment is held at the end of every chain of later
syncs from it; and in every reachable state every copy is as the event was created
or initially stored, no node holding two with one id.
-/
theorem events_spread {w₀ : World ι κ} (hn : ∀ x, (ids (held w₀ x)).Nodup) (ha : Agree w₀) :
    (∀ pre mid u v x y, Lts.Run Step w₀ pre u → Lts.Run Step u mid v → Carries x mid y →
        ids (held u x) ⊆ ids (held v y))
      ∧ ∀ es w, Lts.Run Step w₀ es w →
        (∀ x, ∀ m ∈ held w x, Origin w₀ es m) ∧ ∀ x, (ids (held w x)).Nodup := by
  refine ⟨fun pre mid u v x y _ hrun hc => carried hrun hc, fun es w hrun => ?_⟩
  have hinv := hrun.history (I := OriginInv w₀) (fun _ h hs => originInv_step h hs)
    (originInv_init hn ha)
  exact ⟨hinv.copies, hinv.distinct⟩

end

/-- Two apps with nothing stored, and the README's unit without events. -/
def twoApps : World Bool Unit where
  apps _ := {}
  units _ := boot (readmeDatabase [])

/-- The same after one of the apps has reported the README's event. -/
def oneReported : World Bool Unit where
  apps := Function.update twoApps.apps true ((twoApps.apps true).onClick
    (newEvent (readmeEvent idA).latlng "fire" idA (readmeEvent idA).timestamp))
  units := twoApps.units

/-- What one app reports reaches the other through the unit. -/
theorem event_relayed :
    ∃ v, Lts.Run Step oneReported [.sync true (), .sync false ()] v
      ∧ idA ∈ ids (held v (.inl false)) := by
  have hempty : ∀ x, held twoApps x = [] := fun x => by cases x <;> rfl
  have hn : ∀ x, (ids (held twoApps x)).Nodup := fun x => by rw [hempty]; exact List.nodup_nil
  have ha : Agree twoApps := fun x y m hm => absurd hm (by rw [hempty]; simp)
  have hcreate : Lts.Run Step twoApps
      [.create true (readmeEvent idA).latlng "fire" idA (readmeEvent idA).timestamp] oneReported :=
    .single (.create (fun x => by rw [hempty]; simp [ids]))
  have hsyncs : Lts.Run Step oneReported [.sync true (), .sync false ()] _ :=
    .cons .sync (.single .sync)
  have hchain : Carries (.inl true) [Event.sync true (), Event.sync false ()] (.inl false) :=
    .up (.down .here)
  have hA : idA ∈ ids (held oneReported (.inl true)) := by decide
  exact ⟨_, hsyncs, (events_spread hn ha).1 _ _ _ _ _ _ hcreate hsyncs hchain hA⟩

end Relay

end EssApp.Sync
