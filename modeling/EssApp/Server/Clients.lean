import EssApp.Lib.Places
import EssApp.Lib.Run
import EssApp.Sync.App
import Mathlib.Data.List.Sort
import Mathlib.Data.Nat.Basic

/-!
# The registry of clients

The server keeps an array of its connections. A connection is given the index at
which it is about to stand, less one, and when it closes the array is spliced at
that index, whatever stands there by then. An index of -1 addresses the last entry.

The array is always in the order of connection, so an entry stands behind exactly
those older connections that are still there. `registered_iff` reads off from it
when a close removes the client that closed: one that was alone when it connected
must be the youngest there is, and any other must have lost exactly one of those
that were there before it.
-/

namespace EssApp.Clients

open Sync (splice)

/-- A connection, as far as the registry is concerned. -/
structure Client where
  index : Int
  closed : Bool := false
  deriving DecidableEq, Repr

structure Registry where
  /-- Every connection there has been, oldest first. -/
  connections : List Client := []
  /-- The array, each entry by its place among the connections. -/
  clients : List Nat := []
  deriving DecidableEq, Repr

/-- `wss.on('connection')`: the index is taken before the push. -/
def onConnection (r : Registry) : Registry where
  connections := r.connections ++ [{ index := (r.clients.length : Int) - 1 }]
  clients := r.clients ++ [r.connections.length]

/-- `cl.on('close')`. -/
def onClose (r : Registry) (i : Nat) : Registry :=
  match r.connections[i]? with
  | none => r
  | some cl =>
      { connections := r.connections.modify i fun cl => { cl with closed := true },
        clients := splice r.clients cl.index }

inductive Event where
  | connection
  | close (i : Nat)
  deriving DecidableEq, Repr

def handle (r : Registry) : Event → Registry
  | .connection => onConnection r
  | .close i => onClose r i

namespace Registry

/-- The client at `i` has connected and not closed. -/
def Connected (r : Registry) (i : Nat) : Prop :=
  ∃ cl, r.connections[i]? = some cl ∧ cl.closed = false

instance (r : Registry) (i : Nat) : Decidable (r.Connected i) :=
  match h : r.connections[i]? with
  | none => isFalse (by rintro ⟨cl, hcl, _⟩; rw [h] at hcl; cases hcl)
  | some cl =>
      decidable_of_iff (cl.closed = false)
        ⟨fun hc => ⟨cl, h, hc⟩, by
          rintro ⟨cl', hcl', hc⟩
          rw [h] at hcl'
          exact Option.some.inj hcl' ▸ hc⟩

/-- How many of those that connected before `i` are still connected. -/
def older (r : Registry) (i : Nat) : Nat := ((List.range i).filter fun j => r.Connected j).length

end Registry

/-- A client closes at most once, and only after it connected. -/
def Enabled (r : Registry) : Event → Prop
  | .connection => True
  | .close i => r.Connected i

def Step (r : Registry) (e : Event) (r' : Registry) : Prop := Enabled r e ∧ r' = handle r e

def start : Registry := {}

theorem step_deterministic (r : Registry) (e : Event) (r₁ r₂ : Registry) (h₁ : Step r e r₁)
    (h₂ : Step r e r₂) : r₁ = r₂ := by
  rw [h₁.2, h₂.2]

/-- The array holds the clients that are connected, each once. -/
structure Registered (r : Registry) : Prop where
  nodup : r.clients.Nodup
  mem_iff : ∀ i, i ∈ r.clients ↔ r.Connected i

/--
The closes that remove the client that closes. Its index is the number of those it
found there, less one.
-/
def Orderly (r : Registry) : Event → Prop
  | .connection => True
  | .close i => ∀ cl, r.connections[i]? = some cl →
      if cl.index = -1 then ∀ j, r.Connected j → j ≤ i else (r.older i : Int) = cl.index

/-- The invariant of every run. -/
structure Ordered (r : Registry) : Prop where
  /-- The array is in the order of connection. -/
  ascending : r.clients.Pairwise (· < ·)
  /-- Its entries have connected. -/
  known : ∀ i ∈ r.clients, i < r.connections.length
  /-- The least index is that of a client that found the array empty. -/
  index : ∀ cl ∈ r.connections, -1 ≤ cl.index

theorem ordered_start : Ordered start where
  ascending := List.Pairwise.nil
  known := by simp [start]
  index := by simp [start]

theorem registered_start : Registered start where
  nodup := List.nodup_nil
  mem_iff := by
    intro i
    refine ⟨fun h => absurd h List.not_mem_nil, ?_⟩
    rintro ⟨cl, hcl, _⟩
    cases hcl

theorem ordered_step {r r' : Registry} {e : Event} (h : Ordered r) (hs : Step r e r') :
    Ordered r' := by
  obtain ⟨_, rfl⟩ := hs
  cases e with
  | connection =>
      refine ⟨?_, ?_, ?_⟩
      · refine List.pairwise_append.mpr ⟨h.ascending, List.pairwise_singleton _ _, ?_⟩
        intro i hi j hj
        rw [List.mem_singleton.mp hj]
        exact h.known i hi
      · show ∀ i ∈ r.clients ++ [r.connections.length], i < (onConnection r).connections.length
        rw [onConnection, List.length_append, List.length_singleton]
        exact Places.forall_mem_concat (fun i hi => Nat.lt_succ_of_lt (h.known i hi))
          (Nat.lt_succ_self _)
      · refine Places.forall_mem_concat h.index ?_
        show (-1 : Int) ≤ (r.clients.length : Int) - 1
        omega
  | close i =>
      show Ordered (onClose r i)
      unfold onClose
      cases hcl : r.connections[i]? with
      | none => exact h
      | some cl =>
          refine ⟨h.ascending.sublist (List.eraseIdx_sublist _ _), ?_, ?_⟩
          · intro j hj
            show j < (r.connections.modify i _).length
            rw [List.length_modify]
            exact h.known j (Sync.splice_subset _ _ hj)
          · show ∀ cl ∈ r.connections.modify i (fun cl => { cl with closed := true }), -1 ≤ cl.index
            refine Places.forall_mem_modify h.index ?_ i
            intro cl hcl
            exact hcl

/-! ## Who is connected -/

theorem connected_onConnection {r : Registry} {i : Nat} :
    (onConnection r).Connected i ↔ r.Connected i ∨ i = r.connections.length := by
  simp only [Registry.Connected, onConnection]
  rcases Nat.lt_trichotomy i r.connections.length with hi | rfl | hi
  · rw [List.getElem?_append_left hi, or_iff_left (Nat.ne_of_lt hi)]
  · rw [List.getElem?_concat_length]
    simp
  · rw [List.getElem?_eq_none (by simp; omega), List.getElem?_eq_none (by omega),
      or_iff_left (by omega)]

theorem connected_onClose {r : Registry} {i j : Nat} (hi : r.Connected i) :
    (onClose r i).Connected j ↔ r.Connected j ∧ j ≠ i := by
  obtain ⟨cl, hcl, _⟩ := hi
  simp only [Registry.Connected, onClose, hcl, List.getElem?_modify, Option.map_eq_map,
    Option.map_eq_some_iff]
  constructor
  · rintro ⟨_, ⟨c, hc, rfl⟩, hclosed⟩
    by_cases hij : i = j
    · rw [if_pos hij] at hclosed
      cases hclosed
    · rw [if_neg hij] at hclosed
      exact ⟨⟨c, hc, hclosed⟩, Ne.symm hij⟩
  · rintro ⟨⟨c, hc, hclosed⟩, hji⟩
    exact ⟨_, ⟨c, hc, rfl⟩, by rw [if_neg (Ne.symm hji)]; exact hclosed⟩

/-- The older clients still connected are the smaller entries of the array. -/
theorem older_eq {r : Registry} (ho : Ordered r) (hr : Registered r) (i : Nat) :
    r.older i = (r.clients.filter (· < i)).length := by
  rw [Registry.older]
  congr 1
  refine List.Pairwise.eq_of_mem_iff (r := (· < ·)) (List.pairwise_lt_range.filter _)
    (ho.ascending.filter _) ?_
  intro j
  rw [List.mem_filter, List.mem_filter, List.mem_range, hr.mem_iff]
  simp only [decide_eq_true_eq]
  exact And.comm

/-- **A close is in order** if the index addresses the client that closes. -/
theorem registered_onClose_iff {r : Registry} {i : Nat} {cl : Client} (hr : Registered r)
    (hi : r.Connected i) (hcl : r.connections[i]? = some cl) {p : Nat}
    (hsplice : splice r.clients cl.index = r.clients.eraseIdx p) :
    Registered (onClose r i) ↔ r.clients[p]? = some i := by
  have hclients : (onClose r i).clients = r.clients.eraseIdx p := by
    rw [onClose, hcl]
    exact hsplice
  constructor
  · intro h
    refine Places.getElem?_of_not_mem_eraseIdx ((hr.mem_iff i).mpr hi) ?_
    intro hc
    rw [← hclients, h.mem_iff, connected_onClose hi] at hc
    exact hc.2 rfl
  · intro hp
    refine ⟨?_, ?_⟩
    · rw [hclients]
      exact hr.nodup.sublist (List.eraseIdx_sublist _ _)
    · intro j
      rw [hclients, Places.mem_eraseIdx_iff hr.nodup hp, hr.mem_iff, connected_onClose hi]

/-- **What a step needs** to keep the registry right. -/
theorem registered_step {r r' : Registry} {e : Event} (ho : Ordered r) (hr : Registered r)
    (hs : Step r e r') : Registered r' ↔ Orderly r e := by
  obtain ⟨hen, rfl⟩ := hs
  cases e with
  | connection =>
      refine iff_of_true ⟨?_, ?_⟩ trivial
      · refine List.Nodup.append hr.nodup (List.nodup_singleton _) ?_
        intro i hi hc
        rw [List.mem_singleton] at hc
        exact absurd (ho.known i hi) (by omega)
      · intro i
        show i ∈ r.clients ++ [r.connections.length] ↔ (onConnection r).Connected i
        rw [List.mem_append, List.mem_singleton, hr.mem_iff, connected_onConnection]
  | close i =>
      have hi : r.Connected i := hen
      obtain ⟨cl, hcl, _⟩ := hen
      have hmem : i ∈ r.clients := (hr.mem_iff i).mpr hi
      have hindex : -1 ≤ cl.index := ho.index cl (List.mem_of_getElem? hcl)
      show Registered (onClose r i) ↔ ∀ cl, r.connections[i]? = some cl → _
      simp only [hcl, Option.some.injEq, forall_eq']
      by_cases hneg : cl.index = -1
      · -- the last entry goes
        have hsplice : splice r.clients cl.index = r.clients.eraseIdx (r.clients.length - 1) := by
          rw [hneg, Sync.splice_neg_one]
        rw [if_pos hneg, registered_onClose_iff hr hi hcl hsplice,
          ← List.getLast?_eq_getElem?, Places.getLast?_iff_of_ascending ho.ascending,
          and_iff_right hmem]
        simp only [hr.mem_iff]
      · -- the entry at the index goes
        have hpos : 0 ≤ cl.index := by omega
        rw [if_neg hneg, registered_onClose_iff hr hi hcl (Sync.splice_nonneg r.clients hpos),
          Places.getElem?_iff_of_ascending ho.ascending, and_iff_right hmem, older_eq ho hr]
        omega

/-- **The registry tracks the open connections** in the runs of orderly closes. -/
theorem registered_iff {es : List Event} {r : Registry} (h : Lts.Run Step start es r) :
    Lts.Always Step Registered start es ↔ Lts.Run (Lts.Guarded Step Orderly) start es r :=
  Lts.always_iff_guarded (I := Ordered) step_deterministic (fun ho _ _ hs => ordered_step ho hs)
    registered_step h ordered_start registered_start

/-- One client after another. -/
theorem registered_iff_of_turns :
    Lts.Always Step Registered start [.connection, .close 0, .connection]
      ↔ Lts.Run (Lts.Guarded Step Orderly) start [.connection, .close 0, .connection]
        ([.connection, .close 0, .connection].foldl handle start) :=
  registered_iff (.cons ⟨trivial, rfl⟩ (.cons ⟨⟨⟨-1, false⟩, rfl, rfl⟩, rfl⟩
    (.cons ⟨trivial, rfl⟩ .nil)))

/-- Two clients are there when the first of them leaves. -/
def firstLeaves : List Event := [.connection, .connection, .close 0]

/-- **The code removes the wrong one**: who left stays registered, who stayed is gone. -/
theorem firstLeaves_removes_second :
    Lts.Run Step start firstLeaves (firstLeaves.foldl handle start)
      ∧ (firstLeaves.foldl handle start).clients = [0]
      ∧ ¬ Registered (firstLeaves.foldl handle start) := by
  refine ⟨?_, rfl, ?_⟩
  · exact .cons ⟨trivial, rfl⟩ (.cons ⟨trivial, rfl⟩ (.cons ⟨⟨⟨-1, false⟩, rfl, rfl⟩, rfl⟩ .nil))
  · intro h
    -- the registry still lists the client that closed
    obtain ⟨cl, hcl, hopen⟩ := (h.mem_iff 0).mp (by decide)
    have hclosed : (firstLeaves.foldl handle start).connections[0]? = some ⟨-1, true⟩ := rfl
    rw [hclosed] at hcl
    obtain rfl := Option.some.inj hcl
    cases hopen

end EssApp.Clients
