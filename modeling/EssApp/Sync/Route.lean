import EssApp.Sync.Provenance

/-!
# Whose route an app has

A unit is set up with an evacuation route and the list of the Witness Units, and passes
them on with every reply. Messages bring others, and are not believed: `mergeDatabases`
takes both from the file. So no reply has a route but that of the unit that sent it,
and a callback that writes its snapshot back writes the same route.

An app takes whatever a reply says. `routed` says what this comes to in a network of
many units: the route of an app and its list of units are those of one unit, the one
whose reply it processed last, however long that reply was on its way.
-/

namespace EssApp.Sync

open Readme

/-- The same units and the same route. -/
def SameRoute (db db' : Database) : Prop := db.wus = db'.wus ∧ db.waypoints = db'.waypoints

namespace SameRoute

variable {db db' : Database}

theorem refl : SameRoute db db := ⟨rfl, rfl⟩

theorem trans {db₁ db₂ db₃ : Database} (h : SameRoute db₁ db₂) (h' : SameRoute db₂ db₃) :
    SameRoute db₁ db₃ := ⟨h.1.trans h'.1, h.2.trans h'.2⟩

/-- A merge takes both from the file. -/
theorem merge (h : SameRoute db db') (remote_db : Database) :
    SameRoute (mergeDatabases db remote_db) db' := h

/-- Setting a mark leaves both alone. -/
theorem setReported (h : SameRoute db db') (k : Nat) : SameRoute (setReported db k) db' := h

end SameRoute

namespace Network

variable {ι κ γ : Type}

/-- The unit whose reply app `i` processes in an event. -/
def server [DecidableEq ι] (i : ι) : Event ι κ γ → Option κ
  | .process i' k _ => if i' = i then some k else none
  | _ => none

/-- Where app `i` has its route from: the unit that served it last, or its own storage. -/
def source [DecidableEq ι] (apps : ι → App) (dbs : κ → Database) (i : ι)
    (es : List (Event ι κ γ)) : Database :=
  (es.filterMap (server i)).getLast?.elim (apps i).database dbs

/-- The unit has the route of `db`, in its file and in what a callback will write. -/
structure Keeps (db : Database) (s : Server) : Prop where
  database : SameRoute s.database db
  snapshots : ∀ p ∈ s.publishes, SameRoute p.local_db db

/-- The invariant of a run `es`. -/
structure RouteInv [DecidableEq ι] (apps : ι → App) (dbs : κ → Database)
    (es : List (Event ι κ γ)) (w : Network ι κ γ) : Prop where
  units : ∀ k, Keeps (dbs k) (w.units k)
  /-- A reply has the route of the unit it is from, -/
  replies : ∀ c, ∀ r ∈ w.replies c, SameRoute r (dbs c.2.1)
  /-- and an app that of the last reply. -/
  apps : ∀ i, SameRoute (w.apps i).database (source apps dbs i es)

/-- **A step of a unit** keeps its route. -/
theorem keeps_step {s t : Server} {e : Readme.Event} {db : Database} (h : Keeps db s)
    (hs : Readme.Step s e t) : Keeps db t := by
  cases step_effect hs with
  | connect => exact ⟨h.database, h.snapshots⟩
  | client => exact ⟨h.database.merge _, h.snapshots⟩
  | mqtt => exact ⟨h.database.merge _, h.snapshots⟩
  | quiet => exact h
  | started _ _ =>
      exact ⟨h.database, Places.forall_mem_concat h.snapshots (h.database.setReported _)⟩
  | @published i d p hi _ =>
      have hsnap := h.snapshots p (List.mem_of_getElem? hi)
      refine ⟨hsnap.setReported p.k, ?_⟩
      intro q hq
      -- the snapshots stay as they are, the callback of one has run
      rcases List.mem_or_eq_of_mem_set hq with hq | rfl
      · exact h.snapshots q hq
      · exact hsnap

theorem keeps_boot {db db' : Database} (h : SameRoute db' db) : Keeps db (boot db') where
  database := h
  snapshots _ hp := absurd hp List.not_mem_nil

section

variable [DecidableEq ι]

theorem routeInv_init (apps : ι → App) (dbs : κ → Database) :
    RouteInv apps dbs [] (opened apps dbs : Network ι κ γ) where
  units _ := keeps_boot .refl
  replies _ _ hr := absurd hr List.not_mem_nil
  apps _ := .refl

/-- Whatever is not a reply leaves an app the route it has. -/
theorem source_concat (apps : ι → App) (dbs : κ → Database) {i : ι} (es : List (Event ι κ γ))
    {e : Event ι κ γ} (he : server i e = none) :
    source apps dbs i (es ++ [e]) = source apps dbs i es := by
  rw [source, source, List.filterMap_append, List.filterMap_cons_none he, List.filterMap_nil,
    List.append_nil]

/-- After a reply it has that of the unit. -/
theorem source_process (apps : ι → App) (dbs : κ → Database) (i : ι) (es : List (Event ι κ γ))
    (k : κ) (c : γ) : source apps dbs i (es ++ [.process i k c]) = dbs k := by
  have hserver : server i (.process i k c : Event ι κ γ) = some k := if_pos rfl
  rw [source, List.filterMap_append, List.filterMap_cons_some hserver, List.filterMap_nil,
    List.getLast?_concat]
  rfl

variable [DecidableEq κ] [DecidableEq γ]

/-- **The step lemma.** -/
theorem routeInv_step {apps : ι → App} {dbs : κ → Database} {es : List (Event ι κ γ)}
    {e : Event ι κ γ} {w w' : Network ι κ γ} (h : RouteInv apps dbs es w) (hs : Step w e w') :
    RouteInv apps dbs (es ++ [e]) w' := by
  -- an app that processes no reply keeps the route it has
  have happs : (∀ i, server i e = none) →
      (∀ i, SameRoute (w'.apps i).database (w.apps i).database) →
      ∀ i, SameRoute (w'.apps i).database (source apps dbs i (es ++ [e])) := by
    intro he hsame i
    rw [source_concat apps dbs es (he i)]
    exact (hsame i).trans (h.apps i)
  have hself : ∀ i, SameRoute (w.apps i).database (w.apps i).database := fun _ => .refl
  -- the user touches the events of one app
  have hone : ∀ (i : ι) (a : App), SameRoute a.database (w.apps i).database →
      ∀ j, SameRoute (Function.update w.apps i a j).database (w.apps j).database :=
    fun i a ha => (Function.forall_update_iff w.apps fun j a =>
      SameRoute a.database (w.apps j).database).mpr ⟨ha, fun j _ => hself j⟩
  have hunit : ∀ (k : κ) (s : Server), Keeps (dbs k) s →
      ∀ j, Keeps (dbs j) (Function.update w.units k s j) :=
    fun k s hs => (Function.forall_update_iff w.units fun j s => Keeps (dbs j) s).mpr
      ⟨hs, fun j _ => h.units j⟩
  have hqueue : ∀ (c : ι × κ × γ) (q : List Database), (∀ r ∈ q, SameRoute r (dbs c.2.1)) →
      ∀ c', ∀ r ∈ Function.update w.replies c q c', SameRoute r (dbs c'.2.1) :=
    fun c q hq => (Function.forall_update_iff w.replies fun c q =>
      ∀ r ∈ q, SameRoute r (dbs c.2.1)).mpr ⟨hq, fun c _ => h.replies c⟩
  cases hs with
  | create => exact ⟨h.units, h.replies, happs (fun _ => rfl) (hone _ _ .refl)⟩
  | delete => exact ⟨h.units, h.replies, happs (fun _ => rfl) (hone _ _ .refl)⟩
  | send => exact ⟨h.units, h.replies, happs (fun _ => rfl) hself⟩
  | @handle i k c request rest _ =>
      have hdb := (h.units k).database.merge request
      refine ⟨hunit k _ ⟨hdb, (h.units k).snapshots⟩, ?_, happs (fun _ => rfl) hself⟩
      exact hqueue (i, k, c) _ (Places.forall_mem_concat (h.replies (i, k, c)) hdb)
  | @process i k c reply rest hrep =>
      have hall := h.replies (i, k, c)
      rw [hrep, List.forall_mem_cons] at hall
      refine ⟨h.units, hqueue (i, k, c) rest hall.2, ?_⟩
      intro j
      dsimp only
      by_cases hj : j = i
      · -- the route of the reply is that of the unit, which is the last one now
        subst hj
        rw [Function.update_self, source_process]
        exact hall.1
      · have hserver : server j (.process i k c : Event ι κ γ) = none := if_neg (Ne.symm hj)
        rw [Function.update_of_ne hj, source_concat apps dbs es hserver]
        exact h.apps j
  | @drop i k c =>
      refine ⟨h.units, hqueue (i, k, c) [] ?_, happs (fun _ => rfl) hself⟩
      exact fun r hr => absurd hr List.not_mem_nil
  | @unit k f s hstep =>
      exact ⟨hunit k s (keeps_step (h.units k) hstep), h.replies, happs (fun _ => rfl) hself⟩
  | @reboot k =>
      exact ⟨hunit k _ (keeps_boot (h.units k).database), h.replies, happs (fun _ => rfl) hself⟩

/--
**Whose route an app has**, after any run of the network: that of the unit whose reply it
processed last, or the one it had stored, and its Witness Units are from the same place.
The units have those they were set up with.
-/
theorem routed {apps : ι → App} {dbs : κ → Database} {es : List (Event ι κ γ)}
    {w : Network ι κ γ} (hrun : Lts.Run Step (opened apps dbs) es w) :
    (∀ i, SameRoute (w.apps i).database (source apps dbs i es))
      ∧ ∀ k, SameRoute (w.units k).database (dbs k) := by
  have hinv := hrun.history (I := RouteInv apps dbs) (fun _ hi hs => routeInv_step hi hs)
    (routeInv_init apps dbs)
  exact ⟨hinv.apps, fun k => (hinv.units k).database⟩

end

/-- The phone had no route, and has the unit's. -/
theorem routed_reportTransmitSync :
    ∃ w, Lts.Run Step met reportTransmitSync w
      ∧ SameRoute (w.apps ()).database (readmeDatabase []) := by
  obtain ⟨w, hrun, _⟩ := run_reportTransmitSync
  exact ⟨w, hrun, (routed hrun).1 ()⟩

end Network

end EssApp.Sync
