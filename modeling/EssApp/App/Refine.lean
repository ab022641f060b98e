import EssApp.App.Deletion
import EssApp.Lib.Simulation
import EssApp.Readme.Refine

/-!
# The app on README-format data is the real one

`Storage` has the app's handlers on JavaScript values, where anything may throw;
`Sync.App` has them on events, where nothing can. `DeviceRep d a` says that the three
lists of the device `d` are those of the app `a`, that they could be drawn, and that
what is in `localStorage` would come back as what is in memory. Every handler keeps
this (`create_rep`, `confirm_rep`, `message_rep`), so what is proved of `Sync.App` is
true of the code.

What makes it go through: an id is a string, so `findIndex` compares strings; a type
that is no inherited name has icons; and what was parsed once is written out and
parsed again as it is.
-/

namespace EssApp.Storage

open Js Draw
open Readme (LatLng EventId JsonNumber Marker Wu Database MarkerRep WuRep WaypointsRep LatLngRep
  DatabaseRep idText idText_eq)
open WebSocketServer (HasId)

/-- The device holds the lists of the app, drawn and stored. -/
structure DeviceRep (places : Value → Bool) (d : Device) (a : Sync.App) : Prop where
  markers : ∃ vs, d.marker_list = .arr vs ∧ List.Forall₂ MarkerRep vs a.marker_list
  wus : ∃ vs, d.wu_list = .arr vs ∧ List.Forall₂ WuRep vs a.wu_list
  waypoints : WaypointsRep d.waypoint_list a.waypoint_list
  typed : Typed a.marker_list
  sound : Sound places d
  restored : Restored d

/-- Leaflet can place whatever has a latitude and a longitude. -/
def PlacesAll (places : Value → Bool) : Prop := ∀ v p, LatLngRep v p → places v = true

/-- A property of a value that is written out as it is, is too. -/
theorem stable_own {ps : List (String × Value)} {k : String} {x : Value}
    (hv : (Value.obj ps).toJSON = some (.obj ps)) (hx : (Value.obj ps).own k = some x) :
    x.toJSON = some x := by
  have h := Value.own_elemJSON_obj ps k
  rw [elemJSON_of_stable hv, hx, Option.bind_some] at h
  exact h.symm

section

variable {places : Value → Bool} (hplaces : PlacesAll places)
include hplaces

theorem drawable_rep {v : Value} {m : Marker} (h : MarkerRep v m)
    (ht : m.type ∉ objectPrototype) : Drawable places v where
  present := by
    obtain ⟨ps, rfl⟩ := h.obj
    rfl
  type := by
    refine ⟨m.type, ?_, ht⟩
    rw [Value.prop, h.type]
    rfl
  latlng := by
    obtain ⟨p, hp, hrep⟩ := h.latlng
    rw [Value.prop, hp]
    exact hplaces p _ hrep

theorem placeable_rep {v : Value} {w : Wu} (h : WuRep v w) : Placeable places v where
  present := by
    obtain ⟨ps, rfl⟩ := h.obj
    rfl
  latlng := by
    obtain ⟨p, hp, hrep⟩ := h.latlng
    rw [Value.prop, hp]
    exact hplaces p _ hrep

/-- **README-format data can be drawn, stored and read back**, once it has been parsed. -/
theorem storable_rep {v : Value} {db : Database} (h : DatabaseRep v db)
    (hv : v.toJSON = some v) (ht : Typed db.markers) : Storable places v := by
  obtain ⟨ps, rfl⟩ := h.obj
  obtain ⟨ms, hms, hmall⟩ := h.markers
  obtain ⟨ws, hws, hwall⟩ := h.wus
  obtain ⟨wp, hwp, _⟩ := h.waypoints
  have hprop : ∀ {k : String} {x : Value}, (Value.obj ps).own k = some x →
      (Value.obj ps).prop k = x := by
    intro k x hx
    rw [Value.prop, hx]
    rfl
  have hlist : ∀ {k : String} {es : List Value}, (Value.obj ps).own k = some (.arr es) →
      Restorable ((Value.obj ps).prop k) := by
    intro k es hes
    rw [hprop hes]
    exact restorable_arr (stable_arr_iff.mp (stable_own hv hes))
  constructor
  · exact hlist hms
  · exact hlist hws
  · rw [hprop hwp]
    exact stable_own hv hwp
  · intro m hm
    rw [hprop hms, Value.values_arr] at hm
    obtain ⟨m', hm', hrep⟩ := Places.forall₂_exists_mem hmall m hm
    exact drawable_rep hplaces hrep (ht m' hm')
  · intro w hw
    rw [hprop hws, Value.values_arr] at hw
    obtain ⟨w', _, hrep⟩ := Places.forall₂_exists_mem hwall w hw
    exact placeable_rep hplaces hrep

end

/-! ## The handlers -/

/-- A reported event is the marker the app adds. -/
theorem newEvent_rep (latlng : LatLng) (type : String) (id : EventId) (timestamp : JsonNumber) :
    MarkerRep (newEvent latlng type id timestamp) (Sync.newEvent latlng type id timestamp) where
  latlng := ⟨_, rfl, rfl, rfl⟩
  type := rfl
  validated := rfl
  reported := rfl
  id := rfl
  timestamp := rfl

/-- There is no button for an inherited name. -/
theorem not_builtin_of_enabled {type : String} (h : type ∈ event_types.map Prod.fst) :
    type ∉ objectPrototype := by
  have hall : ∀ t ∈ event_types.map Prod.fst, t ∉ objectPrototype := by decide
  exact hall type h

/-- The lists are replaced whether or not they can be drawn. -/
theorem onmessage_lists {places : Value → Bool} {d : Device} {v : Value}
    (hn : v.isNullish = false) :
    (onmessage places d (.json v)).marker_list = v.prop "markers"
      ∧ (onmessage places d (.json v)).wu_list = v.prop "wus"
      ∧ (onmessage places d (.json v)).waypoint_list = v.prop "waypoints" := by
  have hread := readMessage_ok_iff.mpr ⟨v, rfl, hn, rfl, rfl, rfl⟩
  unfold onmessage
  rw [hread]
  dsimp only
  split <;> exact ⟨rfl, rfl, rfl⟩

/-- The search for an id finds the same place on both sides. -/
theorem findIndex_rep {vs : List Value} {ms : List Marker} (h : List.Forall₂ MarkerRep vs ms)
    (id : EventId) :
    Sync.findIndex vs (fun v => idText v = id.text) = Sync.findIndex ms fun m => m.id = id := by
  have hfind : (vs.findIdx? fun v => decide (idText v = id.text))
      = ms.findIdx? fun m => decide (m.id = id) := by
    refine Places.forall₂_findIdx? ?_ h
    intro v m hvm
    rw [idText_eq hvm.id]
    exact decide_eq_decide.mpr Readme.EventId.text_inj
  rw [Sync.findIndex, Sync.findIndex, hfind]

/-- Splicing at the same index. -/
theorem splice_rep {vs : List Value} {ms : List Marker} (h : List.Forall₂ MarkerRep vs ms)
    (index : Int) :
    List.Forall₂ MarkerRep (Sync.splice vs index) (Sync.splice ms index) := by
  rw [Sync.splice, Sync.splice, h.length_eq]
  exact Places.forall₂_eraseIdx h _

/-- **A deletion** takes the same event on both sides, whichever that is. -/
theorem confirm_rep {places : Value → Bool} {toNumber : String → Number} {d : Device}
    {a : Sync.App} (h : DeviceRep places d a) (ident : EventId) (same : Nat → Bool) :
    DeviceRep places (deleteEvent toNumber d (.str ident.text) same) (a.deleteEvent ident) := by
  obtain ⟨vs, hvs, hall⟩ := h.markers
  have hst : Step places toNumber d (.confirm (.str ident.text) same)
      (deleteEvent toNumber d (.str ident.text) same) := ⟨trivial, rfl⟩
  have hids : ∀ v ∈ vs, ∃ Y, HasId v Y := by
    intro v hv
    obtain ⟨m, _, hvm⟩ := Places.forall₂_exists_mem hall v hv
    exact ⟨m.id.text, hvm.id⟩
  have heq : deleteEvent toNumber d (.str ident.text) same = _ := deleteEvent_eq hvs hids
  rw [findIndex_rep hall] at heq
  have ho : Orderly places d (.confirm (.str ident.text) same) := trivial
  have hsound := sound_step h.sound ho hst
  have hrestored := (restored_step h.sound h.restored hst).mpr ho
  rw [heq] at hsound hrestored ⊢
  exact {
    markers := ⟨_, rfl, splice_rep hall _⟩
    wus := h.wus
    waypoints := h.waypoints
    typed := fun m hm => h.typed m (Sync.mem_of_deleteEvent hm)
    sound := hsound
    restored := hrestored }

section

variable {places : Value → Bool} (hplaces : PlacesAll places)
include hplaces

/-- **A new event** is drawn, added and stored. -/
theorem create_rep {d : Device} {a : Sync.App} (h : DeviceRep places d a) (latlng : LatLng)
    {type : String} (ht : type ∈ event_types.map Prod.fst) (id : EventId)
    (timestamp : JsonNumber) :
    DeviceRep places (onClick places d (some latlng) type id timestamp)
      (a.onClick (Sync.newEvent latlng type id timestamp)) := by
  obtain ⟨vs, hvs, hall⟩ := h.markers
  have hrep := newEvent_rep latlng type id timestamp
  have htype := not_builtin_of_enabled ht
  have hdraw := drawable_rep hplaces hrep htype
  have heq : onClick places d (some latlng) type id timestamp
      = { d with marker_list := .arr (vs ++ [newEvent latlng type id timestamp]),
                 storage := { d.storage with
                   marker_list := some (stored (.arr (vs ++ [newEvent latlng type id
                     timestamp]))) } } := by
    unfold onClick
    dsimp only
    rw [drawEvent_ok_iff.mpr hdraw, hvs]
  have hst : Step places Number.mk d (.create (some latlng) type id timestamp)
      (onClick places d (some latlng) type id timestamp) := ⟨ht, rfl⟩
  have ho : Orderly places d (.create (some latlng) type id timestamp) := trivial
  have hsound := sound_step h.sound ho hst
  have hrestored := (restored_step h.sound h.restored hst).mpr ho
  rw [heq] at hsound hrestored ⊢
  exact {
    markers := ⟨_, rfl, List.rel_append hall (.cons hrep .nil)⟩
    wus := h.wus
    waypoints := h.waypoints
    typed := Places.forall_mem_concat h.typed htype
    sound := hsound
    restored := hrestored }

/-- **A message**: the app takes over what it says. -/
theorem message_rep {d : Device} {a : Sync.App} (h : DeviceRep places d a) {v : Value}
    {db : Database} (hrep : DatabaseRep v db) (hv : v.toJSON = some v) (ht : Typed db.markers) :
    DeviceRep places (onmessage places d (.json v)) (a.onmessage db) := by
  have ho : Orderly places d (.message (.json v)) :=
    Or.inr (storable_rep hplaces hrep hv ht)
  have hst : Step places Number.mk d (.message (.json v)) (onmessage places d (.json v)) :=
    ⟨trivial, rfl⟩
  have hn : v.isNullish = false := by
    obtain ⟨ps, rfl⟩ := hrep.obj
    rfl
  have hlists : (onmessage places d (.json v)).marker_list = v.prop "markers" ∧ _ ∧ _ :=
    onmessage_lists hn
  obtain ⟨hm, hw, hp⟩ := hlists
  obtain ⟨ms, hms, hmall⟩ := hrep.markers
  obtain ⟨ws, hws, hwall⟩ := hrep.wus
  obtain ⟨wp, hwp, hwprep⟩ := hrep.waypoints
  rw [Value.prop, hms] at hm
  rw [Value.prop, hws] at hw
  rw [Value.prop, hwp] at hp
  exact {
    markers := ⟨ms, hm, hmall⟩
    wus := ⟨ws, hw, hwall⟩
    waypoints := by
      rw [hp]
      exact hwprep
    typed := ht
    sound := sound_step h.sound ho hst
    restored := (restored_step h.sound h.restored hst).mpr ho }

end

/-- An app with nothing stored. -/
theorem firstStart_rep (places : Value → Bool) : DeviceRep places firstStart {} where
  markers := ⟨[], rfl, .nil⟩
  wus := ⟨[], rfl, .nil⟩
  waypoints := rfl
  typed := by
    intro m hm
    cases hm
  sound := by
    have hinit : initialise places {} = .ok firstStart := rfl
    exact (initialise_spec written_nothing hinit).1
  restored := rfl

end EssApp.Storage
