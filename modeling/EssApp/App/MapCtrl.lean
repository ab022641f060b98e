import EssApp.App.Draw
import EssApp.Lib.Run
import EssApp.Sync.App

/-!
# The map

The map shows a marker for every event in the list. It is redrawn from the list
whenever a reply replaces it, a new event is drawn as it is added, and a deletion
takes one event out of both. A deletion is confirmed in a dialog, and the dialog
keeps the marker that was clicked: after a redraw that object is no longer on the
map, and after a second reply its event may be back, gone or never have left.

`shown_iff` says when the map and the list stay together: as long as every
confirmation is of a marker that is still on the map, or finds no event left to
delete. Any other confirmation deletes an event the map keeps showing.
-/

namespace EssApp.MapCtrl

open Readme Sync

/-- An `L.marker`: an object of its own, with the event's id. -/
structure Drawn where
  number : Nat
  ident : EventId
  deriving DecidableEq

structure Map where
  app : App
  /-- The event markers on the map. -/
  onMap : List Drawn := []
  drawnEvents : List Drawn := []
  /-- The markers of the Witness Units on the map, by number. -/
  wusOnMap : List Nat := []
  drawnWUs : List Nat := []
  /-- The marker each open dialog asks about. -/
  dialogs : List Drawn := []
  /-- The number of the next object. -/
  next : Nat := 0

namespace Map

/-- `event.removeFrom(map)`, of a marker that may not be on it. -/
def removeFrom (s : Map) (event : Drawn) : Map :=
  { s with onMap := s.onMap.filter fun m => m ≠ event }

def drawEvent (s : Map) (event : Marker) : Map :=
  let marker : Drawn := { number := s.next, ident := event.id }
  { s with onMap := s.onMap ++ [marker], drawnEvents := s.drawnEvents ++ [marker],
           next := s.next + 1 }

def drawWU (s : Map) (_ : Wu) : Map :=
  { s with wusOnMap := s.wusOnMap ++ [s.next], drawnWUs := s.drawnWUs ++ [s.next],
           next := s.next + 1 }

/-- The two loops that clear the map. -/
def clear (s : Map) : Map :=
  let s := { s with wusOnMap := s.wusOnMap.filter fun m => m ∉ s.drawnWUs, drawnWUs := [] }
  { s.drawnEvents.foldl removeFrom s with drawnEvents := [] }

def updateMarkers (s : Map) : Map :=
  let s := s.app.marker_list.foldl drawEvent s.clear
  s.app.wu_list.foldl drawWU s

def deleteEvent (s : Map) (event : Drawn) : Map :=
  removeFrom { s with app := s.app.deleteEvent event.ident } event

/-- An event button's `onClick`. -/
def onClick (s : Map) (event : Marker) : Map :=
  let s := s.drawEvent event
  { s with app := s.app.onClick event }

/-- `private.socket.onmessage`. -/
def onmessage (s : Map) (database : Database) : Map :=
  updateMarkers { s with app := s.app.onmessage database }

end Map

inductive Event where
  | create (latlng : LatLng) (type : String) (id : EventId) (timestamp : JsonNumber)
  /-- The user clicks the `k`-th event marker on the map. -/
  | click (k : Nat)
  /-- The user confirms the `i`-th open dialog. -/
  | confirm (i : Nat)
  | reply (database : Database)

def handle (s : Map) : Event → Map
  | .create latlng type id timestamp => s.onClick (newEvent latlng type id timestamp)
  | .click k =>
      match s.onMap[k]? with
      | none => s
      | some m => { s with dialogs := s.dialogs ++ [m] }
  | .confirm i =>
      match s.dialogs[i]? with
      | none => s
      | some m => { s with dialogs := s.dialogs.eraseIdx i }.deleteEvent m
  | .reply database => s.onmessage database

/--
The id of a new event is new, and its type one of the menu's. The ids of a reply are distinct,
and its events have types that can be drawn.
-/
def Enabled (s : Map) : Event → Prop
  | .create _ type id _ => id ∉ ids s.app.marker_list ∧ type ∈ Draw.event_types.map Prod.fst
  | .click k => k < s.onMap.length
  | .confirm i => i < s.dialogs.length
  | .reply database => (ids database.markers).Nodup ∧ Draw.Typed database.markers

instance (s : Map) : (e : Event) → Decidable (Enabled s e)
  | .create _ type id _ =>
      inferInstanceAs
        (Decidable (id ∉ ids s.app.marker_list ∧ type ∈ Draw.event_types.map Prod.fst))
  | .click k => inferInstanceAs (Decidable (k < s.onMap.length))
  | .confirm i => inferInstanceAs (Decidable (i < s.dialogs.length))
  | .reply database =>
      inferInstanceAs (Decidable ((ids database.markers).Nodup ∧ Draw.Typed database.markers))

def Step (s : Map) (e : Event) (s' : Map) : Prop := Enabled s e ∧ s' = handle s e

/--
The map after the initialisation, which draws the lists the app has stored. They were drawn
before they were stored, so their types are such that they can be.
-/
def start (app : App) : Map := Map.updateMarkers { app := app }

theorem step_deterministic (s : Map) (e : Event) (s₁ s₂ : Map) (h₁ : Step s e s₁)
    (h₂ : Step s e s₂) : s₁ = s₂ := by
  rw [h₁.2, h₂.2]

/-- The idents of the event markers on the map. -/
def idents (s : Map) : List EventId := s.onMap.map Drawn.ident

/-- The map shows the events of the list, each once. -/
structure Shown (s : Map) : Prop where
  nodup : (idents s).Nodup
  mem_iff : ∀ id, id ∈ idents s ↔ id ∈ ids s.app.marker_list

/-- The steps that keep the two together. -/
def Orderly (s : Map) : Event → Prop
  | .confirm i => ∀ m, s.dialogs[i]? = some m → m ∈ s.onMap ∨ s.app.marker_list = []
  | _ => True

/-- The invariant of every run. -/
structure Listed (s : Map) : Prop where
  /-- No id twice in the list. -/
  nodup : (ids s.app.marker_list).Nodup
  /-- What is on the map will be cleared from it. -/
  drawn : s.onMap ⊆ s.drawnEvents

/-! ## Drawing -/

theorem mem_clear {ds : List Drawn} {s : Map} {m : Drawn} :
    m ∈ (ds.foldl Map.removeFrom s).onMap ↔ m ∈ s.onMap ∧ m ∉ ds := by
  induction ds generalizing s with
  | nil => simp
  | cons d ds ih =>
      rw [List.foldl_cons, ih, List.mem_cons, not_or, ← and_assoc]
      refine and_congr_left ?_
      intro _
      show m ∈ s.onMap.filter _ ↔ _
      rw [List.mem_filter, decide_eq_true_eq]

theorem removeFrom_fields (ds : List Drawn) (s : Map) :
    (ds.foldl Map.removeFrom s).app = s.app ∧ (ds.foldl Map.removeFrom s).dialogs = s.dialogs := by
  induction ds generalizing s with
  | nil => exact ⟨rfl, rfl⟩
  | cons d ds ih => exact ih (s.removeFrom d)

/-- **Clearing** takes every event marker off the map, and leaves the lists alone. -/
theorem clear_spec {s : Map} (h : s.onMap ⊆ s.drawnEvents) :
    s.clear.onMap = [] ∧ s.clear.app = s.app ∧ s.clear.dialogs = s.dialogs := by
  refine ⟨List.eq_nil_iff_forall_not_mem.mpr ?_, (removeFrom_fields _ _).1,
    (removeFrom_fields _ _).2⟩
  intro m hm
  obtain ⟨hmap, hdrawn⟩ := mem_clear.mp hm
  exact hdrawn (h hmap)

/-- **Drawing a list** puts its ids on the map, in order, behind those that are there. -/
theorem drawEvents_spec (ms : List Marker) {s : Map} (h : s.onMap ⊆ s.drawnEvents) :
    (ms.foldl Map.drawEvent s).onMap ⊆ (ms.foldl Map.drawEvent s).drawnEvents
      ∧ idents (ms.foldl Map.drawEvent s) = idents s ++ ids ms
      ∧ (ms.foldl Map.drawEvent s).app = s.app
      ∧ (ms.foldl Map.drawEvent s).dialogs = s.dialogs := by
  induction ms generalizing s with
  | nil => exact ⟨h, (List.append_nil _).symm, rfl, rfl⟩
  | cons m ms ih =>
      have hdraw : (s.drawEvent m).onMap ⊆ (s.drawEvent m).drawnEvents :=
        List.append_subset.mpr ⟨List.subset_append_of_subset_left _ h,
          List.subset_append_right _ _⟩
      have hone : idents (s.drawEvent m) = idents s ++ [m.id] := List.map_append
      obtain ⟨h1, h2, h3, h4⟩ := ih hdraw
      refine ⟨h1, ?_, h3, h4⟩
      rw [List.foldl_cons, h2, hone, List.append_assoc]
      rfl

theorem drawWUs_fields (ws : List Wu) (s : Map) :
    (ws.foldl Map.drawWU s).app = s.app ∧ (ws.foldl Map.drawWU s).onMap = s.onMap
      ∧ (ws.foldl Map.drawWU s).drawnEvents = s.drawnEvents
      ∧ (ws.foldl Map.drawWU s).dialogs = s.dialogs := by
  induction ws generalizing s with
  | nil => exact ⟨rfl, rfl, rfl, rfl⟩
  | cons w ws ih => exact ih (s.drawWU w)

/-- **After a redraw** the map shows the list, whatever it showed before. -/
theorem updateMarkers_spec {s : Map} (h : s.onMap ⊆ s.drawnEvents) :
    idents s.updateMarkers = ids s.app.marker_list ∧ s.updateMarkers.app = s.app
      ∧ s.updateMarkers.onMap ⊆ s.updateMarkers.drawnEvents
      ∧ s.updateMarkers.dialogs = s.dialogs := by
  obtain ⟨hnil, happ, hdialogs⟩ := clear_spec h
  have hsub : s.clear.onMap ⊆ s.clear.drawnEvents := by
    rw [hnil]
    exact List.nil_subset _
  obtain ⟨h1, h2, h3, h4⟩ := drawEvents_spec s.app.marker_list hsub
  obtain ⟨k1, k2, k3, k4⟩ := drawWUs_fields
    ((s.app.marker_list.foldl Map.drawEvent s.clear).app.wu_list)
    (s.app.marker_list.foldl Map.drawEvent s.clear)
  refine ⟨?_, k1.trans (h3.trans happ), ?_, k4.trans (h4.trans hdialogs)⟩
  · show List.map Drawn.ident s.updateMarkers.onMap = _
    rw [show s.updateMarkers.onMap = _ from k2]
    show idents (s.app.marker_list.foldl Map.drawEvent s.clear) = _
    rw [h2, idents, hnil]
    rfl
  · rw [show s.updateMarkers.onMap = _ from k2, show s.updateMarkers.drawnEvents = _ from k3]
    exact h1

theorem shown_of_eq {s : Map} (h : idents s = ids s.app.marker_list)
    (hn : (ids s.app.marker_list).Nodup) : Shown s where
  nodup := h ▸ hn
  mem_iff := by
    intro id
    rw [h]

/-! ## Deleting -/

/-- **Deleting an event that is shown** takes it off the list and off the map. -/
theorem shown_deleteEvent_of_mem {s : Map} {m : Drawn} (hl : Listed s) (h : Shown s)
    (hm : m ∈ s.onMap) : Shown (s.deleteEvent m) := by
  have hident : m.ident ∈ ids s.app.marker_list := (h.mem_iff _).mp (List.mem_map_of_mem hm)
  have hids : ids (s.deleteEvent m).app.marker_list = (ids s.app.marker_list).erase m.ident :=
    ids_deleteEvent_of_mem hident
  constructor
  · exact h.nodup.sublist (List.filter_sublist.map _)
  · intro id
    rw [hids, hl.nodup.mem_erase_iff, ← h.mem_iff]
    constructor
    · intro hid
      obtain ⟨d, hd, rfl⟩ := List.mem_map.mp hid
      obtain ⟨hd, hne⟩ := List.mem_filter.mp hd
      -- another marker has another ident
      refine ⟨fun he => ?_, List.mem_map_of_mem hd⟩
      exact (of_decide_eq_true hne) (List.inj_on_of_nodup_map h.nodup hd hm he)
    · rintro ⟨hne, hid⟩
      obtain ⟨d, hd, rfl⟩ := List.mem_map.mp hid
      refine List.mem_map_of_mem (List.mem_filter.mpr ⟨hd, decide_eq_true ?_⟩)
      rintro rfl
      exact hne rfl

/-- **Deleting for a marker that is not shown** disturbs the map unless there is no event left. -/
theorem shown_deleteEvent_of_not_mem {s : Map} {m : Drawn} (hl : Listed s) (h : Shown s)
    (hm : m ∉ s.onMap) : Shown (s.deleteEvent m) ↔ s.app.marker_list = [] := by
  have hmap : idents (s.deleteEvent m) = idents s := by
    refine congrArg (List.map Drawn.ident) (List.filter_eq_self.mpr ?_)
    intro d hd
    refine decide_eq_true ?_
    rintro rfl
    exact hm hd
  constructor
  · intro hs
    by_contra hne
    -- the map still shows every id the list had
    obtain ⟨id, hid, hgone⟩ := deleteEvent_loses hl.nodup hne m.ident
    have hshown := (h.mem_iff id).mpr hid
    rw [← hmap, hs.mem_iff] at hshown
    exact hgone hshown
  · intro hnil
    have hnil' : (s.deleteEvent m).app.marker_list = [] := by
      rw [show (s.deleteEvent m).app.marker_list = _ from
        deleteEvent_of_not_mem (by rw [hnil]; exact List.not_mem_nil), hnil]
      rfl
    refine ⟨hmap ▸ h.nodup, ?_⟩
    intro id
    rw [hmap, h.mem_iff, hnil, hnil']

theorem listed_deleteEvent {s : Map} (h : Listed s) (m : Drawn) : Listed (s.deleteEvent m) where
  nodup := h.nodup.sublist ((List.eraseIdx_sublist _ _).map _)
  drawn := fun _ hd => h.drawn (List.mem_of_mem_filter hd)

/-! ## Runs -/

theorem start_spec {app : App} (hn : (ids app.marker_list).Nodup) :
    Listed (start app) ∧ Shown (start app) := by
  obtain ⟨h1, h2, h3, _⟩ := updateMarkers_spec (s := { app := app }) (List.nil_subset _)
  have hn' : (ids (start app).app.marker_list).Nodup := by
    rw [start, h2]
    exact hn
  refine ⟨⟨hn', h3⟩, shown_of_eq ?_ hn'⟩
  rw [start, h1, h2]

theorem listed_step {s s' : Map} {e : Event} (h : Listed s) (hs : Step s e s') : Listed s' := by
  obtain ⟨hen, rfl⟩ := hs
  cases e with
  | create latlng type id timestamp =>
      refine ⟨?_, ?_⟩
      · show (ids (s.app.marker_list ++ [newEvent latlng type id timestamp])).Nodup
        rw [ids, List.map_append]
        refine h.nodup.append (List.nodup_singleton _) ?_
        intro i hi hc
        rw [List.mem_singleton.mp hc] at hi
        exact hen.1 hi
      · exact List.append_subset.mpr ⟨List.subset_append_of_subset_left _ h.drawn,
          List.subset_append_right _ _⟩
  | click k =>
      simp only [handle]
      split
      · exact h
      · exact ⟨h.nodup, h.drawn⟩
  | confirm i =>
      simp only [handle]
      split
      · exact h
      · have h0 : Listed { s with dialogs := s.dialogs.eraseIdx i } := ⟨h.nodup, h.drawn⟩
        exact listed_deleteEvent h0 _
  | reply database =>
      obtain ⟨_, h2, h3, _⟩ :=
        updateMarkers_spec (s := { s with app := s.app.onmessage database }) h.drawn
      refine ⟨?_, h3⟩
      show (ids (s.onmessage database).app.marker_list).Nodup
      rw [Map.onmessage, h2]
      exact hen.1

/-- **What a step needs** to keep the map and the list together. -/
theorem shown_step {s s' : Map} {e : Event} (hl : Listed s) (h : Shown s) (hs : Step s e s') :
    Shown s' ↔ Orderly s e := by
  have hl' := listed_step hl hs
  obtain ⟨hen, rfl⟩ := hs
  cases e with
  | create latlng type id timestamp =>
      refine iff_of_true ⟨?_, ?_⟩ trivial
      · show (List.map Drawn.ident (s.onMap ++ [_])).Nodup
        rw [List.map_append]
        refine h.nodup.append (List.nodup_singleton _) ?_
        intro i hi hc
        rw [List.mem_singleton.mp hc] at hi
        exact hen.1 ((h.mem_iff _).mp hi)
      · intro i
        show i ∈ List.map Drawn.ident (s.onMap ++ [_])
          ↔ i ∈ List.map Marker.id (s.app.marker_list ++ [_])
        rw [List.map_append, List.map_append, List.mem_append, List.mem_append]
        exact or_congr_left (h.mem_iff i)
  | click k =>
      refine iff_of_true ?_ trivial
      simp only [handle]
      split
      · exact h
      · exact ⟨h.nodup, h.mem_iff⟩
  | confirm i =>
      obtain ⟨m, hm⟩ : ∃ m, s.dialogs[i]? = some m := ⟨_, List.getElem?_eq_getElem hen⟩
      simp only [handle, Orderly, hm, Option.some.injEq, forall_eq']
      have h0 : Shown { s with dialogs := s.dialogs.eraseIdx i } := ⟨h.nodup, h.mem_iff⟩
      have hl0 : Listed { s with dialogs := s.dialogs.eraseIdx i } := ⟨hl.nodup, hl.drawn⟩
      by_cases hmap : m ∈ s.onMap
      · exact iff_of_true (shown_deleteEvent_of_mem hl0 h0 hmap) (Or.inl hmap)
      · exact (shown_deleteEvent_of_not_mem hl0 h0 hmap).trans (or_iff_right hmap).symm
  | reply database =>
      obtain ⟨h1, h2, _, _⟩ :=
        updateMarkers_spec (s := { s with app := s.app.onmessage database }) hl.drawn
      refine iff_of_true (shown_of_eq ?_ hl'.nodup) trivial
      show idents (s.onmessage database) = ids (s.onmessage database).app.marker_list
      rw [Map.onmessage, h1, h2]

/--
**The map shows exactly the events in the list** in the runs whose confirmations are
of markers still on the map, or find the list empty.
-/
theorem shown_iff {app : App} (hn : (ids app.marker_list).Nodup) {es : List Event} {s : Map}
    (h : Lts.Run Step (start app) es s) :
    Lts.Always Step Shown (start app) es ↔ Lts.Run (Lts.Guarded Step Orderly) (start app) es s :=
  Lts.always_iff_guarded (I := Listed) step_deterministic (fun hl _ _ hs => listed_step hl hs)
    shown_step h (start_spec hn).1 (start_spec hn).2

/-- The user deletes the one event there is. -/
theorem shown_iff_of_delete :
    Lts.Always Step Shown (start { marker_list := [readmeEvent idA] }) [.click 0, .confirm 0]
      ↔ Lts.Run (Lts.Guarded Step Orderly) (start { marker_list := [readmeEvent idA] })
        [.click 0, .confirm 0]
        ([.click 0, .confirm 0].foldl handle (start { marker_list := [readmeEvent idA] })) :=
  shown_iff (by decide) (.cons ⟨by decide, rfl⟩ (.cons ⟨by decide, rfl⟩ .nil))

/-- A reply arrives while the dialog is open. -/
def replyWhileOpen : List Event :=
  [.click 0, .reply (readmeDatabase [readmeEvent idA]), .confirm 0]

/--
**The code does not keep this**: the confirmation takes the event off the list, and
its marker, drawn anew by the reply, stays on the map.
-/
theorem replyWhileOpen_stays_on_map :
    Lts.Run Step (start { marker_list := [readmeEvent idA] }) replyWhileOpen
        (replyWhileOpen.foldl handle (start { marker_list := [readmeEvent idA] }))
      ∧ ¬ Shown (replyWhileOpen.foldl handle (start { marker_list := [readmeEvent idA] })) := by
  refine ⟨?_, ?_⟩
  · exact .cons ⟨by decide, rfl⟩ (.cons ⟨by decide, rfl⟩ (.cons ⟨by decide, rfl⟩ .nil))
  · intro h
    have hgone := (h.mem_iff idA).mp (by decide)
    exact absurd hgone (by decide)

end EssApp.MapCtrl
