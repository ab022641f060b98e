import EssApp.App.Storage
import EssApp.Readme.Specification

/-!
# What a confirmed deletion removes

`deleteEvent` looks the event up by the id its marker was drawn with and splices the
list at the index found. Between the click and the confirmation the list may have
been replaced, or the same marker may have been confirmed already, and then
`findIndex` answers -1, which `splice` takes for the last place.

So a deletion removes the event and nothing else exactly if the event is there, or
there is none at all (`deleteEvent_iff`).
-/

namespace EssApp.Storage

open Js
open Readme (EventId idText idText_eq)
open WebSocketServer (HasId)

/-- The device without the events under `X`, in memory and in storage. -/
def Device.without (d : Device) (es : List Value) (X : String) : Device :=
  let marker_list := .arr (es.filter fun m => idText m ≠ X)
  { d with marker_list := marker_list,
           storage := { d.storage with marker_list := some (stored marker_list) } }

theorem looseEq_str (toNumber : String → Number) (same : Bool) (s t : String) :
    looseEq toNumber same (.str s) (.str t) = .ok (decide (s = t)) := rfl

/-- **The search among string ids** throws nothing, and finds the first that is equal. -/
theorem findIndex_ids {toNumber : String → Number} {same : Nat → Bool} {es : List Value}
    {X : String} (hes : ∀ m ∈ es, ∃ Y, HasId m Y) (i : Nat) :
    findIndex (fun i el => do looseEq toNumber (same i) (← el.get "id") (.str X)) es i
      = .ok ((es.findIdx? fun m => idText m = X).elim (-1) fun k => ((i + k : Nat) : Int)) := by
  induction es generalizing i with
  | nil => rfl
  | cons m es ih =>
      obtain ⟨Y, hY⟩ := hes m List.mem_cons_self
      obtain ⟨ps, rfl⟩ := hY.obj
      have hrest := ih (fun x hx => hes x (List.mem_cons_of_mem _ hx)) (i + 1)
      have htest : (do looseEq toNumber (same i) (← (Value.obj ps).get "id") (.str X))
          = .ok (decide (Y = X)) :=
        bind_ok_iff.mpr ⟨.str Y, Value.get_of_own hY, looseEq_str _ _ _ _⟩
      refine bind_ok_iff.mpr ⟨_, htest, ?_⟩
      rw [List.findIdx?_cons, idText_eq hY]
      by_cases hYX : Y = X
      · rw [decide_eq_true hYX, if_pos rfl, if_pos rfl]
        rfl
      · -- the rest is searched from the next index on
        rw [decide_eq_false hYX, if_neg (by decide), if_neg (by decide), hrest]
        cases es.findIdx? fun m => idText m = X with
        | none => rfl
        | some k =>
            show Except.ok ((i + 1 + k : Nat) : Int) = .ok ((i + (k + 1) : Nat) : Int)
            rw [Nat.add_right_comm, Nat.add_assoc]

/-- **A deletion**, on a list of events with string ids: the search and the splice. -/
theorem deleteEvent_eq {toNumber : String → Number} {d : Device} {es : List Value} {X : String}
    {same : Nat → Bool} (hl : d.marker_list = .arr es) (hes : ∀ m ∈ es, ∃ Y, HasId m Y) :
    deleteEvent toNumber d (.str X) same
      = let marker_list := .arr (Sync.splice es (Sync.findIndex es fun m => idText m = X))
        { d with marker_list := marker_list,
                 storage := { d.storage with marker_list := some (stored marker_list) } } := by
  have hfind : findIndex (fun i el => do looseEq toNumber (same i) (← el.get "id") (.str X)) es 0
      = .ok (Sync.findIndex es fun m => idText m = X) := by
    rw [findIndex_ids hes, Sync.findIndex]
    cases es.findIdx? fun m => idText m = X with
    | none => rfl
    | some k =>
        show Except.ok ((0 + k : Nat) : Int) = .ok (k : Int)
        rw [Nat.zero_add]
  unfold deleteEvent
  rw [hl]
  dsimp only
  rw [hfind]

/--
**Deleting an event removes that event and nothing else** exactly if the list has it,
or has nothing. This is so for every list of events with distinct string ids, whatever
else they hold, and for every confirmed marker, whether or not the list still has its id.
-/
theorem deleteEvent_iff {toNumber : String → Number} {d : Device} {es : List Value} {X : String}
    {same : Nat → Bool} (hl : d.marker_list = .arr es) (hes : ∀ m ∈ es, ∃ Y, HasId m Y)
    (hn : (es.map idText).Nodup) :
    deleteEvent toNumber d (.str X) same = d.without es X ↔ X ∈ es.map idText ∨ es = [] := by
  rw [deleteEvent_eq hl hes]
  by_cases hX : X ∈ es.map idText
  · refine iff_of_true ?_ (Or.inl hX)
    obtain ⟨m, hm, hid⟩ := List.mem_map.mp hX
    rw [Sync.splice_findIndex_of_exists ⟨m, hm, decide_eq_true hid⟩, Keyed.eraseP_eq_filter hn]
    rfl
  · have hnone : ∀ m ∈ es, decide (idText m = X) = false := by
      intro m hm
      refine decide_eq_false ?_
      intro hid
      exact hX (hid ▸ List.mem_map_of_mem hm)
    -- nothing is to be removed, and the last event is
    have hfilter : es.filter (fun m => idText m ≠ X) = es := by
      refine List.filter_eq_self.mpr ?_
      intro m hm
      simpa using hnone m hm
    rw [Sync.splice_findIndex_of_forall hnone, or_iff_right hX]
    constructor
    · intro h
      have hlist : es.dropLast = es.filter fun m => idText m ≠ X :=
        Value.arr.inj (congrArg Device.marker_list h)
      have hlen := congrArg List.length hlist
      rw [hfilter, List.length_dropLast] at hlen
      exact List.eq_nil_of_length_eq_zero (by omega)
    · rintro rfl
      rfl

/-- The event a user reports where the README's event is. -/
def reported (id : EventId) : Value :=
  newEvent (Readme.readmeEvent id).latlng "fire" id (Readme.readmeEvent id).timestamp

theorem hasId_reported (id : EventId) : HasId (reported id) id.text := rfl

/-- A device that has only these events. -/
def holding (es : List Value) : Device :=
  { firstStart with marker_list := .arr es, storage := { marker_list := some (stored (.arr es)) } }

/-- The first of two events goes, the second stays. -/
theorem deleteEvent_first :
    deleteEvent Number.mk (holding [reported Readme.idA, reported Readme.idB])
        (.str Readme.idA.text) (fun _ => false)
      = (holding [reported Readme.idA, reported Readme.idB]).without
        [reported Readme.idA, reported Readme.idB] Readme.idA.text := by
  have hes : ∀ m ∈ [reported Readme.idA, reported Readme.idB], ∃ Y, HasId m Y :=
    List.forall_mem_cons.mpr ⟨⟨_, hasId_reported _⟩,
      List.forall_mem_singleton.mpr ⟨_, hasId_reported _⟩⟩
  exact (deleteEvent_iff rfl hes (by decide)).mpr (Or.inl (by decide))

/-- The user reports two events and confirms the deletion of the first. -/
def reportTwoDeleteFirst : List Event :=
  [.create (some (Readme.readmeEvent Readme.idA).latlng) "fire" Readme.idA
      (Readme.readmeEvent Readme.idA).timestamp,
    .create (some (Readme.readmeEvent Readme.idB).latlng) "fire" Readme.idB
      (Readme.readmeEvent Readme.idB).timestamp,
    .confirm (.str Readme.idA.text) fun _ => false]

/--
**The code does not keep this**: a second dialog for the same marker is confirmed too,
and takes the other event.
-/
theorem confirmedTwice_removes_other :
    Lts.Run (Step hasLatLng Number.mk) firstStart reportTwoDeleteFirst
        (holding [reported Readme.idB])
      ∧ deleteEvent Number.mk (holding [reported Readme.idB]) (.str Readme.idA.text)
          (fun _ => false) = holding []
      ∧ deleteEvent Number.mk (holding [reported Readme.idB]) (.str Readme.idA.text)
          (fun _ => false)
        ≠ (holding [reported Readme.idB]).without [reported Readme.idB] Readme.idA.text := by
  have hfire : "fire" ∈ Draw.event_types.map Prod.fst := by decide
  have hsecond : deleteEvent Number.mk (holding [reported Readme.idB]) (.str Readme.idA.text)
      (fun _ => false) = holding [] := rfl
  refine ⟨.cons ⟨hfire, rfl⟩ (.cons ⟨hfire, rfl⟩ (.cons ⟨trivial, rfl⟩ .nil)), hsecond, ?_⟩
  rw [hsecond]
  intro h
  -- the other event should have stayed
  have hlist : [] = [reported Readme.idB] := Value.arr.inj (congrArg Device.marker_list h)
  cases hlist

end EssApp.Storage
