import EssApp.Readme.Server

/-!
# The app's side

The three lists an app keeps, the two things its user does to them (create an
event, delete one) and the two its connection does (send them, replace them by a
reply). `localStorage` mirrors the lists and is only read when the app starts, so
it is not part of the state.

`deleteEvent` looks the marker up by id and splices at the index found. For an id
that is not there `findIndex` answers -1, and `splice(-1, 1)` removes the last
element; `splice` follows that.
-/

namespace EssApp.Sync

open Readme

structure App where
  wu_list : List Wu := []
  marker_list : List Marker := []
  waypoint_list : Option (List LatLng) := none

/-- `Array.prototype.findIndex`. -/
def findIndex {α : Type} (l : List α) (p : α → Bool) : Int :=
  match l.findIdx? p with
  | some i => i
  | none => -1

/-- `Array.prototype.splice(start, 1)`: a negative `start` counts from the end. -/
def splice {α : Type} (l : List α) (start : Int) : List α :=
  let i := if start < 0 then max (l.length + start) 0 else min start l.length
  l.eraseIdx i.toNat

/-- The event the user reports. -/
def newEvent (latlng : LatLng) (type : String) (id : EventId) (timestamp : JsonNumber) :
    Marker where
  latlng := latlng
  type := type
  validated := false
  reported := false
  id := id
  timestamp := timestamp

namespace App

/-- What the update interval sends. -/
def database (a : App) : Database where
  wus := a.wu_list
  markers := a.marker_list
  waypoints := a.waypoint_list

/-- `private.socket.onmessage`. -/
def onmessage (_ : App) (database : Database) : App where
  wu_list := database.wus
  marker_list := database.markers
  waypoint_list := database.waypoints

/-- An event button's `onClick`. -/
def onClick (a : App) (event : Marker) : App :=
  { a with marker_list := a.marker_list ++ [event] }

def deleteEvent (a : App) (ident : EventId) : App :=
  { a with marker_list := splice a.marker_list (findIndex a.marker_list fun el => el.id = ident) }

end App

@[simp] theorem onClick_marker_list (a : App) (event : Marker) :
    (a.onClick event).marker_list = a.marker_list ++ [event] := rfl

theorem mem_onClick {a : App} {event m : Marker} :
    m ∈ (a.onClick event).marker_list ↔ m ∈ a.marker_list ∨ m = event := by
  rw [onClick_marker_list, List.mem_append, List.mem_singleton]

theorem splice_subset {α : Type} (l : List α) (start : Int) : splice l start ⊆ l :=
  (List.eraseIdx_sublist l _).subset

/-- An index is spliced at as it is. -/
theorem splice_nonneg {α : Type} (l : List α) {start : Int} (h : 0 ≤ start) :
    splice l start = l.eraseIdx start.toNat := by
  rw [splice, if_neg (by omega)]
  by_cases hle : start ≤ l.length
  · congr 1
    omega
  · -- past the end nothing is removed, and at the end neither
    rw [List.eraseIdx_of_length_le (by omega), List.eraseIdx_of_length_le (by omega)]

/-- `splice(-1, 1)` takes the last element. -/
theorem splice_neg_one {α : Type} (l : List α) : splice l (-1) = l.eraseIdx (l.length - 1) := by
  rw [splice, if_pos (by omega)]
  congr 1
  omega

/-- **Splicing at what was found** removes the first element that passes the test. -/
theorem splice_findIndex_of_exists {α : Type} {l : List α} {p : α → Bool}
    (h : ∃ x ∈ l, p x = true) : splice l (findIndex l p) = l.eraseP p := by
  rw [findIndex, List.eraseP_eq_eraseIdx]
  cases hf : l.findIdx? p with
  | none =>
      obtain ⟨x, hx, hp⟩ := h
      rw [List.findIdx?_eq_none_iff.mp hf x hx] at hp
      cases hp
  | some k => exact splice_nonneg _ (Int.natCast_nonneg k)

/-- **Splicing at -1**, which is what was found if nothing was, removes the last element. -/
theorem splice_findIndex_of_forall {α : Type} {l : List α} {p : α → Bool}
    (h : ∀ x ∈ l, p x = false) : splice l (findIndex l p) = l.dropLast := by
  rw [findIndex, List.findIdx?_eq_none_iff.mpr h]
  exact (splice_neg_one _).trans List.eraseIdx_length_sub_one

/-- Deleting adds nothing. -/
theorem mem_of_deleteEvent {a : App} {ident : EventId} {m : Marker}
    (h : m ∈ (a.deleteEvent ident).marker_list) : m ∈ a.marker_list :=
  splice_subset _ _ h

/-- **Deleting an event that is there** removes the first with its id. -/
theorem deleteEvent_of_mem {a : App} {ident : EventId} (h : ident ∈ ids a.marker_list) :
    (a.deleteEvent ident).marker_list = a.marker_list.eraseP fun el => el.id = ident := by
  obtain ⟨m, hm, hid⟩ := mem_ids.mp h
  exact splice_findIndex_of_exists ⟨m, hm, decide_eq_true hid⟩

/-- **Deleting an event that is not there** removes the last one. -/
theorem deleteEvent_of_not_mem {a : App} {ident : EventId} (h : ident ∉ ids a.marker_list) :
    (a.deleteEvent ident).marker_list = a.marker_list.dropLast := by
  refine splice_findIndex_of_forall ?_
  intro m hm
  refine decide_eq_false ?_
  intro hid
  exact h (hid ▸ mem_ids_of_mem hm)

theorem ids_deleteEvent_of_mem {a : App} {ident : EventId} (h : ident ∈ ids a.marker_list) :
    ids (a.deleteEvent ident).marker_list = (ids a.marker_list).erase ident := by
  rw [deleteEvent_of_mem h, ids, ids, List.erase_eq_eraseP, List.eraseP_map]
  congr 2
  funext el
  rw [Function.comp_apply, beq_eq_decide]
  exact decide_eq_decide.mpr eq_comm

/-- **A deletion never misses**: of distinct ids one is gone, if not the one that was meant. -/
theorem deleteEvent_loses {a : App} (hn : (ids a.marker_list).Nodup) (hne : a.marker_list ≠ [])
    (ident : EventId) :
    ∃ id ∈ ids a.marker_list, id ∉ ids (a.deleteEvent ident).marker_list := by
  by_cases hident : ident ∈ ids a.marker_list
  · refine ⟨ident, hident, ?_⟩
    rw [ids_deleteEvent_of_mem hident, hn.mem_erase_iff]
    exact fun h => h.1 rfl
  · -- the last event goes, whichever it is
    refine ⟨_, mem_ids_of_mem (List.getLast_mem hne), ?_⟩
    rw [deleteEvent_of_not_mem hident]
    intro hlast
    rw [← List.dropLast_append_getLast hne, ids, List.map_append] at hn
    exact List.disjoint_of_nodup_append hn hlast (List.mem_singleton_self _)

/-- Deleting an event that is there removes no other one. -/
theorem mem_ids_deleteEvent {a : App} {ident id : EventId} (hident : ident ∈ ids a.marker_list)
    (hid : id ∈ ids a.marker_list) (hne : id ≠ ident) :
    id ∈ ids (a.deleteEvent ident).marker_list := by
  rw [ids_deleteEvent_of_mem hident]
  exact (List.mem_erase_of_ne hne).mpr hid

/-! ## A whole sync -/

/-- The app sends its lists, the server merges, stores and replies, the app takes the reply. -/
def exchange (a : App) (s : Server) : App × Server :=
  let (reply, s') := onClientMessage s a.database
  (a.onmessage reply, s')

/-- Afterwards both hold the merge. -/
theorem exchange_markers (a : App) (s : Server) :
    (exchange a s).1.marker_list = (mergeDatabases s.database a.database).markers
      ∧ (exchange a s).2.database = mergeDatabases s.database a.database := ⟨rfl, rfl⟩

example : splice [1, 2, 3] (findIndex [1, 2, 3] fun n => n = 7) = [1, 2] := by decide

end EssApp.Sync
