import EssApp.App.MapCtrl
import EssApp.App.Menu
import EssApp.App.Storage
import EssApp.Lib.Trace
import Mathlib.Data.List.Induction

/-!
# Where the user is, and the way out

The other half of the map's controller. The user's position comes from the browser,
which is asked for it when the controller starts and then by an interval that a
checkbox turns on and off, or from the user, who taps on the map and overrides it.
Each time it changes, the escape route is drawn anew, from there through the waypoints
the app has at that moment. A tap also opens the menu of events, and what is reported
from it is reported at the place of the tap.

An answer of the browser may come at any time after the question. So turning the
interval off does not stop the position from changing at once. Waypoints that a reply
brings are not drawn before the position changes next, and if it brings none the route
that is on the map stays there.
-/

namespace EssApp.Location

open Readme (LatLng EventId JsonNumber Database)
open Sync (App newEvent)
open MapCtrl (Map)
open Menu

/-- `current_location`: a marker with its popup, and the circle around it. -/
structure UserLocation where
  marker : LatLng
  popup : String
  /-- The centre of the circle, -/
  accuracy : LatLng
  /-- and its radius. -/
  radius : Js.Number
  deriving DecidableEq

/-- An `L.Routing.control`: an object of its own, with its waypoints. -/
structure Control where
  number : Nat
  waypoints : List LatLng
  deriving DecidableEq

/-- The icons of a route's markers. -/
inductive Icon where
  | startMarker
  | waypointMarker
  | endMarker
  deriving DecidableEq, Repr

structure View where
  map : Map
  current_location : Option UserLocation := none
  escape_route : Option Control := none
  tap_location : Option LatLng := none
  /-- The routes on the map. -/
  controls : List Control := []
  /-- The menu of events is open. -/
  event_dialog : Bool := false
  gpsUpdater : Nat
  /-- The intervals that were set and not cleared, with their periods. -/
  intervals : List (Nat × Nat)
  /-- What `setInterval` answers next. It is never zero, so an id counts as true. -/
  nextId : Nat
  /-- The calls of `map.locate` that were not answered. -/
  locating : Nat := 0
  autoloc_checkbox : Bool
  /-- The number of the next control. -/
  next : Nat := 0

/-- The markers of a route: its start, its end, and those between. -/
def createMarker (i : Nat) (wp : LatLng) (nWps : Nat) : LatLng × Icon :=
  if i = 0 then (wp, .startMarker)
  else if i = nWps - 1 then (wp, .endMarker)
  else (wp, .waypointMarker)

def Control.markers (c : Control) : List (LatLng × Icon) :=
  c.waypoints.mapIdx fun i wp => createMarker i wp c.waypoints.length

namespace View

def setInterval (s : View) (period : Nat) : Nat × View :=
  (s.nextId, { s with intervals := s.intervals ++ [(s.nextId, period)], nextId := s.nextId + 1 })

def clearInterval (s : View) (id : Nat) : View :=
  { s with intervals := s.intervals.filter fun t => t.1 ≠ id }

/-- `map.locate`. -/
def locate (s : View) : View := { s with locating := s.locating + 1 }

/-- `app.setAutoLocation`. -/
def setAutoLocation (s : View) (enabled : Bool) : View :=
  let s := s.clearInterval s.gpsUpdater
  if enabled then
    let (id, s) := s.setInterval 5000
    { s with gpsUpdater := id }
  else s

/-- `map.removeControl`. -/
def removeControl (s : View) (c : Control) : View :=
  { s with controls := s.controls.filter fun c' => c' ≠ c }

def drawEscapeRoute (s : View) (start : LatLng) (waypoints : List LatLng) : View :=
  let s := match s.escape_route with
    | some c => s.removeControl c
    | none => s
  let c : Control := { number := s.next, waypoints := [start] ++ waypoints }
  { s with escape_route := some c, controls := s.controls ++ [c], next := s.next + 1 }

/-- The marker is created once and moved from then on; its popup is not changed. -/
def place (l : Option UserLocation) (latlng : LatLng) (accuracy : Js.Number) : UserLocation :=
  match l with
  | none =>
      { marker := latlng, accuracy := latlng, radius := accuracy,
        popup := "You are within " ++ accuracy.text ++ " meters from this point" }
  | some l => { l with marker := latlng, accuracy := latlng, radius := accuracy }

def setUserLocation (s : View) (latlng : LatLng) (accuracy : Js.Number) : View :=
  let s := { s with current_location := some (place s.current_location latlng accuracy) }
  match s.map.app.waypoint_list with
  | some waypoint_list => s.drawEscapeRoute latlng waypoint_list
  | none => s

/-- `tap_location ? tap_location : current_location.marker.getLatLng()`; `none` if it throws. -/
def eventLatLng (s : View) : Option LatLng :=
  match s.tap_location with
  | some latlng => some latlng
  | none => s.current_location.map UserLocation.marker

/-- What a button of the menu does; `none` if it throws. -/
def onClick (s : View) (b : Button) (id : EventId) (timestamp : JsonNumber) : Option View :=
  match b.onClick with
  | .report type =>
      s.eventLatLng.map fun latlng =>
        { s with map := s.map.onClick (newEvent latlng type id timestamp) }
  | .override =>
      s.tap_location.map fun tap => s.setUserLocation { lat := tap.lat, lng := tap.lng } ⟨"100"⟩

/-- The dialog closes behind a button that did not throw. -/
def press (s : View) (k : Nat) (id : EventId) (timestamp : JsonNumber) : View :=
  match (buttons[k]?).bind fun b => s.onClick b id timestamp with
  | some s => { s with event_dialog := false }
  | none => s

end View

inductive Event where
  /-- The browser answers with a position, -/
  | locationfound (latlng : LatLng) (accuracy : Js.Number)
  /-- or with an error. -/
  | locationerror
  /-- An interval fires. -/
  | tick (id : Nat)
  /-- The user clicks the checkbox in the panel. -/
  | toggle
  /-- The user taps on the map, -/
  | tap (latlng : LatLng)
  /-- presses the `k`-th button of the menu, -/
  | press (k : Nat) (id : EventId) (timestamp : JsonNumber)
  /-- or closes it. -/
  | dismiss
  /-- The user clicks the `k`-th event marker on the map. -/
  | click (k : Nat)
  /-- The user confirms the `i`-th open dialog. -/
  | confirm (i : Nat)
  | reply (database : Database)

def handle (s : View) : Event → View
  | .locationfound latlng accuracy =>
      { s with locating := s.locating - 1 }.setUserLocation latlng accuracy
  | .locationerror => { s with locating := s.locating - 1 }
  | .tick _ => s.locate
  | .toggle =>
      let enabled := !s.autoloc_checkbox
      { s with autoloc_checkbox := enabled }.setAutoLocation enabled
  | .tap latlng => { s with tap_location := some latlng, event_dialog := true }
  | .press k id timestamp => s.press k id timestamp
  | .dismiss => { s with event_dialog := false }
  | .click k => { s with map := MapCtrl.handle s.map (.click k) }
  | .confirm i => { s with map := MapCtrl.handle s.map (.confirm i) }
  | .reply database => { s with map := MapCtrl.handle s.map (.reply database) }

/-- The browser answers each question once, a button can be pressed while the menu is open. -/
def Enabled (s : View) : Event → Prop
  | .locationfound _ _ => 0 < s.locating
  | .locationerror => 0 < s.locating
  | .tick id => ∃ period, (id, period) ∈ s.intervals
  | .press k id _ => s.event_dialog = true ∧ k < buttons.length
      ∧ id ∉ Readme.ids s.map.app.marker_list
  | .click k => MapCtrl.Enabled s.map (.click k)
  | .confirm i => MapCtrl.Enabled s.map (.confirm i)
  | .reply database => MapCtrl.Enabled s.map (.reply database)
  | _ => True

def Step (s : View) (e : Event) (s' : View) : Prop := Enabled s e ∧ s' = handle s e

/--
The view behind `mapCtrl`: it has asked for the position once and set its interval. The
checkbox may have been clicked before, when nothing listened to it yet.
-/
def start (app : App) (checked : Bool) (id : Nat) : View :=
  View.locate
    { map := MapCtrl.start app, gpsUpdater := id, intervals := [(id, 20000)], nextId := id + 1,
      autoloc_checkbox := checked }

theorem step_deterministic (s : View) (e : Event) (s₁ s₂ : View) (h₁ : Step s e s₁)
    (h₂ : Step s e s₂) : s₁ = s₂ := by
  rw [h₁.2, h₂.2]

/-! ## What a step does -/

/-- **Moving the user** touches the position and the route, and nothing else. -/
theorem setUserLocation_shape (s : View) (latlng : LatLng) (accuracy : Js.Number) :
    ∃ r cs n, s.setUserLocation latlng accuracy
      = { s with current_location := some (View.place s.current_location latlng accuracy),
                 escape_route := r, controls := cs, next := n } := by
  unfold View.setUserLocation
  dsimp only
  split
  · unfold View.drawEscapeRoute
    dsimp only
    split <;> exact ⟨_, _, _, rfl⟩
  · exact ⟨_, _, _, rfl⟩

section

variable (s : View) (latlng : LatLng) (accuracy : Js.Number)

@[simp] theorem setUserLocation_map :
    (s.setUserLocation latlng accuracy).map = s.map := by
  obtain ⟨r, cs, n, h⟩ := setUserLocation_shape s latlng accuracy
  rw [h]

@[simp] theorem setUserLocation_tap_location :
    (s.setUserLocation latlng accuracy).tap_location = s.tap_location := by
  obtain ⟨r, cs, n, h⟩ := setUserLocation_shape s latlng accuracy
  rw [h]

@[simp] theorem setUserLocation_event_dialog :
    (s.setUserLocation latlng accuracy).event_dialog = s.event_dialog := by
  obtain ⟨r, cs, n, h⟩ := setUserLocation_shape s latlng accuracy
  rw [h]

@[simp] theorem setUserLocation_gpsUpdater :
    (s.setUserLocation latlng accuracy).gpsUpdater = s.gpsUpdater := by
  obtain ⟨r, cs, n, h⟩ := setUserLocation_shape s latlng accuracy
  rw [h]

@[simp] theorem setUserLocation_intervals :
    (s.setUserLocation latlng accuracy).intervals = s.intervals := by
  obtain ⟨r, cs, n, h⟩ := setUserLocation_shape s latlng accuracy
  rw [h]

@[simp] theorem setUserLocation_nextId :
    (s.setUserLocation latlng accuracy).nextId = s.nextId := by
  obtain ⟨r, cs, n, h⟩ := setUserLocation_shape s latlng accuracy
  rw [h]

@[simp] theorem setUserLocation_autoloc_checkbox :
    (s.setUserLocation latlng accuracy).autoloc_checkbox = s.autoloc_checkbox := by
  obtain ⟨r, cs, n, h⟩ := setUserLocation_shape s latlng accuracy
  rw [h]

end

/-- Everything a button can do. -/
inductive Pressed (s : View) (k : Nat) (id : EventId) (timestamp : JsonNumber) : View → Prop where
  | reported {p : String × Draw.EventType} {latlng : LatLng} :
      Draw.event_types[k]? = some p → s.eventLatLng = some latlng →
      Pressed s k id timestamp
        { s with map := s.map.onClick (newEvent latlng p.1 id timestamp), event_dialog := false }
  | overridden {tap : LatLng} : k = Draw.event_types.length → s.tap_location = some tap →
      Pressed s k id timestamp { s.setUserLocation tap ⟨"100"⟩ with event_dialog := false }
  | threw : s.tap_location = none → Pressed s k id timestamp s

theorem press_spec (s : View) {k : Nat} (id : EventId) (timestamp : JsonNumber)
    (hk : k < buttons.length) : Pressed s k id timestamp (s.press k id timestamp) := by
  have hb : buttons[k]? = some buttons[k] := List.getElem?_eq_getElem hk
  unfold View.press
  rw [hb, Option.bind_some]
  rcases getElem?_buttons hb with ⟨p, hp, hbutton⟩ | ⟨hlen, hbutton⟩
  · have hclick : s.onClick buttons[k] id timestamp = s.eventLatLng.map fun latlng =>
        { s with map := s.map.onClick (newEvent latlng p.1 id timestamp) } := by
      rw [hbutton]
      rfl
    rw [hclick]
    cases hl : s.eventLatLng with
    | some latlng => exact .reported hp hl
    | none =>
        refine .threw ?_
        unfold View.eventLatLng at hl
        cases ht : s.tap_location with
        | none => rfl
        | some tap =>
            rw [ht] at hl
            cases hl
  · have hclick : s.onClick buttons[k] id timestamp
        = s.tap_location.map fun tap => s.setUserLocation tap ⟨"100"⟩ := by
      rw [hbutton]
      rfl
    rw [hclick]
    cases ht : s.tap_location with
    | some tap => exact .overridden hlen ht
    | none => exact .threw ht

/-- Drawing events leaves the lists alone. -/
theorem drawEvents_app (ms : List Readme.Marker) (m : Map) :
    (ms.foldl Map.drawEvent m).app = m.app := by
  induction ms generalizing m with
  | nil => rfl
  | cons e ms ih => rw [List.foldl_cons, ih]; rfl

/-- So does a redraw. -/
theorem updateMarkers_app (m : Map) : m.updateMarkers.app = m.app := by
  rw [Map.updateMarkers, (MapCtrl.drawWUs_fields _ _).1, drawEvents_app, Map.clear]
  exact (MapCtrl.removeFrom_fields _ _).1

/-- **A reply** replaces the lists, whatever is on the map. -/
theorem onmessage_app (m : Map) (database : Database) :
    (m.onmessage database).app = m.app.onmessage database :=
  updateMarkers_app _

/--
**Everything a step can do.** What the markers of the map have to do with the user's
position is the list of waypoints, which only a reply changes.
-/
inductive Effect (s : View) : Event → View → Prop where
  | found {latlng : LatLng} {accuracy : Js.Number} : 0 < s.locating →
      Effect s (.locationfound latlng accuracy)
        ({ s with locating := s.locating - 1 }.setUserLocation latlng accuracy)
  | failed : 0 < s.locating → Effect s .locationerror { s with locating := s.locating - 1 }
  | asked {id period : Nat} : (id, period) ∈ s.intervals → Effect s (.tick id) s.locate
  | switched : Effect s .toggle
      ({ s with autoloc_checkbox := !s.autoloc_checkbox }.setAutoLocation !s.autoloc_checkbox)
  | tapped {latlng : LatLng} : Effect s (.tap latlng)
      { s with tap_location := some latlng, event_dialog := true }
  | pressed {k : Nat} {id : EventId} {timestamp : JsonNumber} {s' : View} :
      s.event_dialog = true → Pressed s k id timestamp s' → Effect s (.press k id timestamp) s'
  | dismissed : Effect s .dismiss { s with event_dialog := false }
  | clicked {k : Nat} {m : Map} : MapCtrl.Step s.map (.click k) m →
      m.app.waypoint_list = s.map.app.waypoint_list → Effect s (.click k) { s with map := m }
  | confirmed {i : Nat} {m : Map} : MapCtrl.Step s.map (.confirm i) m →
      m.app.waypoint_list = s.map.app.waypoint_list → Effect s (.confirm i) { s with map := m }
  | replied {database : Database} {m : Map} : MapCtrl.Step s.map (.reply database) m →
      m.app.waypoint_list = database.waypoints →
      Effect s (.reply database) { s with map := m }

theorem step_effect {s s' : View} {e : Event} (h : Step s e s') : Effect s e s' := by
  obtain ⟨hen, rfl⟩ := h
  cases e with
  | locationfound latlng accuracy => exact .found hen
  | locationerror => exact .failed hen
  | tick id =>
      obtain ⟨period, hid⟩ := hen
      exact .asked hid
  | toggle => exact .switched
  | tap latlng => exact .tapped
  | press k id timestamp => exact .pressed hen.1 (press_spec s id timestamp hen.2.1)
  | dismiss => exact .dismissed
  | click k =>
      refine .clicked ⟨hen, rfl⟩ ?_
      simp only [MapCtrl.handle]
      split <;> rfl
  | confirm i =>
      refine .confirmed ⟨hen, rfl⟩ ?_
      simp only [MapCtrl.handle]
      split <;> rfl
  | reply database =>
      refine .replied ⟨hen, rfl⟩ ?_
      show (s.map.onmessage database).app.waypoint_list = _
      rw [onmessage_app]
      rfl

/-! ## The position and the route -/

/-- A change of the user's position, and the waypoints the app had then. -/
structure Move where
  latlng : LatLng
  accuracy : Js.Number
  waypoint_list : Option (List LatLng)
  deriving DecidableEq

/-- How a step moves the user, if it does. -/
def moved (s : View) (e : Event) (_ : View) : List Move :=
  match e with
  | .locationfound latlng accuracy => [⟨latlng, accuracy, s.map.app.waypoint_list⟩]
  | .press k _ _ =>
      if k = Draw.event_types.length then
        (s.tap_location.map fun tap => ⟨tap, ⟨"100"⟩, s.map.app.waypoint_list⟩).toList
      else []
  | _ => []

/-- The route that is drawn on a move: from there through the waypoints. -/
def Move.route (m : Move) : Option (List LatLng) := m.waypoint_list.map fun ws => m.latlng :: ws

/-- Where the user is shown after some moves: at the last, with the popup of the first. -/
def shownAt (ms : List Move) : Option UserLocation :=
  (ms.head?).bind fun first => (ms.getLast?).map fun last =>
    { marker := last.latlng, accuracy := last.latlng, radius := last.accuracy,
      popup := "You are within " ++ first.accuracy.text ++ " meters from this point" }

/-- What the map shows of the user after the moves `ms`. -/
structure Placed (ms : List Move) (s : View) : Prop where
  location : s.current_location = shownAt ms
  /-- The last move that found waypoints has its route on the map, -/
  route : s.controls.map Control.waypoints = ((ms.filterMap Move.route).getLast?).toList
  /-- which is the one the next will remove. -/
  held : s.controls = s.escape_route.toList

theorem shownAt_concat (ms : List Move) (m : Move) :
    some (View.place (shownAt ms) m.latlng m.accuracy) = shownAt (ms ++ [m]) := by
  cases ms with
  | nil => rfl
  | cons first ms =>
      have hlast : ∃ last, (first :: ms).getLast? = some last :=
        ⟨_, List.getLast?_eq_some_getLast (List.cons_ne_nil _ _)⟩
      obtain ⟨last, hlast⟩ := hlast
      rw [shownAt, shownAt, hlast, List.getLast?_concat]
      rfl

/-- **Drawing a route** takes the one that is held off the map, and holds the new one. -/
theorem drawEscapeRoute_spec {s : View} (h : s.controls = s.escape_route.toList)
    (start : LatLng) (waypoints : List LatLng) :
    (s.drawEscapeRoute start waypoints).controls
        = [{ number := s.next, waypoints := start :: waypoints }]
      ∧ (s.drawEscapeRoute start waypoints).escape_route
        = some { number := s.next, waypoints := start :: waypoints }
      ∧ (s.drawEscapeRoute start waypoints).current_location = s.current_location := by
  unfold View.drawEscapeRoute
  cases hr : s.escape_route with
  | none =>
      rw [hr] at h
      refine ⟨?_, rfl, rfl⟩
      show s.controls ++ [_] = _
      rw [h]
      rfl
  | some c =>
      rw [hr] at h
      refine ⟨?_, rfl, rfl⟩
      show (s.controls.filter fun c' => c' ≠ c) ++ [_] = _
      rw [h, Option.toList_some, List.filter_cons_of_neg (by simp), List.filter_nil]
      rfl

/-- **A move** puts the user there, and the route, if there are waypoints, alone on the map. -/
theorem setUserLocation_spec {s : View} (h : s.controls = s.escape_route.toList)
    (latlng : LatLng) (accuracy : Js.Number) :
    (s.map.app.waypoint_list = none
        ∧ s.setUserLocation latlng accuracy
          = { s with current_location := some (View.place s.current_location latlng accuracy) })
      ∨ ∃ ws c, s.map.app.waypoint_list = some ws ∧ c.waypoints = latlng :: ws
        ∧ (s.setUserLocation latlng accuracy).controls = [c]
        ∧ (s.setUserLocation latlng accuracy).escape_route = some c
        ∧ (s.setUserLocation latlng accuracy).current_location
          = some (View.place s.current_location latlng accuracy) := by
  cases hw : s.map.app.waypoint_list with
  | none => exact Or.inl ⟨rfl, by rw [View.setUserLocation, hw]⟩
  | some ws =>
      let t : View :=
        { s with current_location := some (View.place s.current_location latlng accuracy) }
      have hset : s.setUserLocation latlng accuracy = t.drawEscapeRoute latlng ws := by
        rw [View.setUserLocation, hw]
      have hheld : t.controls = t.escape_route.toList := h
      obtain ⟨hcontrols, hroute, hcur⟩ := drawEscapeRoute_spec hheld latlng ws
      rw [hset]
      exact Or.inr ⟨ws, _, rfl, rfl, hcontrols, hroute, hcur⟩

/-- **The step lemma**: a move is added to the moves. -/
theorem placed_setUserLocation {ms : List Move} {s : View} (h : Placed ms s) (latlng : LatLng)
    (accuracy : Js.Number) :
    Placed (ms ++ [⟨latlng, accuracy, s.map.app.waypoint_list⟩])
      (s.setUserLocation latlng accuracy) := by
  have hloc := shownAt_concat ms ⟨latlng, accuracy, s.map.app.waypoint_list⟩
  rw [← h.location] at hloc
  rcases setUserLocation_spec h.held latlng accuracy with
    ⟨hw, hset⟩ | ⟨ws, c, hw, hc, hcontrols, hroute, hcur⟩
  · rw [hset]
    refine ⟨hloc, ?_, h.held⟩
    -- without waypoints the move has no route
    rw [List.filterMap_append, h.route, hw]
    show _ = ((ms.filterMap Move.route ++ []).getLast?).toList
    rw [List.append_nil]
  · refine ⟨hcur.trans hloc, ?_, ?_⟩
    · rw [hcontrols, List.filterMap_append, hw]
      show _ = ((ms.filterMap Move.route ++ [latlng :: ws]).getLast?).toList
      rw [List.getLast?_concat, List.map_singleton, hc]
      rfl
    · rw [hcontrols, hroute]
      rfl

theorem placed_step {ms : List Move} {s s' : View} {e : Event} (h : Placed ms s)
    (hs : Step s e s') : Placed (ms ++ moved s e s') s' := by
  have hnone : ∀ {t : View}, t.current_location = s.current_location →
      t.controls = s.controls → t.escape_route = s.escape_route → Placed (ms ++ []) t := by
    intro t hl hc hr
    rw [List.append_nil]
    exact ⟨hl ▸ h.location, hc ▸ h.route, by rw [hc, hr]; exact h.held⟩
  cases step_effect hs with
  | @found latlng accuracy _ =>
      have h0 : Placed ms { s with locating := s.locating - 1 } := ⟨h.location, h.route, h.held⟩
      exact placed_setUserLocation h0 latlng accuracy
  | failed _ => exact hnone rfl rfl rfl
  | asked _ => exact hnone rfl rfl rfl
  | switched =>
      show Placed (ms ++ []) (View.setAutoLocation _ _)
      unfold View.setAutoLocation
      cases s.autoloc_checkbox <;> exact hnone rfl rfl rfl
  | tapped => exact hnone rfl rfl rfl
  | @pressed k id timestamp s' _ hp =>
      cases hp with
      | @reported p latlng hp _ =>
          have hk : k ≠ Draw.event_types.length := by
            intro he
            subst he
            rw [List.getElem?_eq_none (Nat.le_refl _)] at hp
            cases hp
          rw [moved, if_neg hk]
          exact hnone rfl rfl rfl
      | @overridden tap hk ht =>
          rw [moved, if_pos hk, ht]
          have hplaced := placed_setUserLocation h tap ⟨"100"⟩
          exact ⟨hplaced.location, hplaced.route, hplaced.held⟩
      | threw ht =>
          rw [moved, ht]
          show Placed (ms ++ (if _ then [] else [])) s
          rw [ite_self]
          exact hnone rfl rfl rfl
  | dismissed => exact hnone rfl rfl rfl
  | clicked _ _ => exact hnone rfl rfl rfl
  | confirmed _ _ => exact hnone rfl rfl rfl
  | replied _ _ => exact hnone rfl rfl rfl

/-- The markers of a route through `ws` are what one expects of them. -/
def routeMarkers (start : LatLng) (ws : List LatLng) : List (LatLng × Icon) :=
  (start, .startMarker) :: (ws.dropLast.map fun wp => (wp, .waypointMarker))
    ++ (ws.getLast?).toList.map fun wp => (wp, .endMarker)

theorem markers_eq {c : Control} {start : LatLng} {ws : List LatLng}
    (h : c.waypoints = start :: ws) : c.markers = routeMarkers start ws := by
  unfold Control.markers routeMarkers
  rw [h]
  induction ws using List.reverseRecOn with
  | nil => rfl
  | append_singleton ws last _ =>
      rw [List.dropLast_concat, List.getLast?_concat, List.mapIdx_cons, List.mapIdx_append]
      have hbetween : ws.mapIdx
            (fun i wp => createMarker (i + 1) wp (start :: (ws ++ [last])).length)
          = ws.map fun wp => (wp, .waypointMarker) := by
        refine List.ext_getElem (by simp) ?_
        intro i hi _
        rw [List.getElem_mapIdx, List.getElem_map, createMarker, if_neg (Nat.succ_ne_zero i),
          if_neg ?_]
        -- the last index is that of the end
        rw [List.length_mapIdx] at hi
        rw [List.length_cons, List.length_append, List.length_singleton]
        omega
      rw [hbetween]
      simp [createMarker]

/--
**What the map shows of the user**, after any run: the marker and its circle are at the
last position, with the popup of the first, and there is at most one route, which leads
from the last position that came while the app had waypoints through those it had then,
with an icon of its own for its start, for its end and for what is between.
-/
theorem placed_run {app : App} {checked : Bool} {id : Nat} {es : List Event} {ms : List Move}
    {s : View} (h : Lts.Trace Step moved (start app checked id) es ms s) :
    s.current_location = shownAt ms
      ∧ s.controls.map Control.waypoints = ((ms.filterMap Move.route).getLast?).toList
      ∧ ∀ c ∈ s.controls, ∃ start ws, c.waypoints = start :: ws
        ∧ c.markers = routeMarkers start ws := by
  have hplaced : Placed ms s := h.invariant (I := Placed) placed_step ⟨rfl, rfl, rfl⟩
  refine ⟨hplaced.location, hplaced.route, ?_⟩
  intro c hc
  have hmem : c.waypoints ∈ s.controls.map Control.waypoints := List.mem_map_of_mem hc
  rw [hplaced.route, Option.mem_toList] at hmem
  obtain ⟨m, _, hm⟩ := List.mem_filterMap.mp (List.mem_of_getLast? hmem)
  obtain ⟨ws, _, hws⟩ := Option.map_eq_some_iff.mp hm
  exact ⟨m.latlng, ws, hws.symm, markers_eq hws.symm⟩

/-- A route through one waypoint, and the browser's first answer. -/
def withRoute : App where
  waypoint_list := (Readme.readmeDatabase []).waypoints

def firstFix : Event := .locationfound (Readme.readmeEvent Readme.idA).latlng ⟨"20"⟩

theorem placed_run_firstFix :
    let s := handle (start withRoute true 1) firstFix
    let ms := moved (start withRoute true 1) firstFix s
    s.current_location = shownAt ms
      ∧ s.controls.map Control.waypoints = ((ms.filterMap Move.route).getLast?).toList
      ∧ ∀ c ∈ s.controls, ∃ start ws, c.waypoints = start :: ws
        ∧ c.markers = routeMarkers start ws := by
  intro s ms
  have htrace : Lts.Trace Step moved (start withRoute true 1) [firstFix] (ms ++ []) s :=
    .cons ⟨Nat.one_pos, rfl⟩ .nil
  rw [List.append_nil] at htrace
  exact placed_run htrace

/-! ## A route that is up to date -/

/-- The map shows the route from where the user is through the waypoints the app has. -/
def Current (s : View) : Prop :=
  s.controls.map Control.waypoints
    = (s.current_location.bind fun l => s.map.app.waypoint_list.map fun ws =>
      l.marker :: ws).toList

/-- A reply that comes before the first position, or brings no other waypoints. -/
def Steady (s : View) : Event → Prop
  | .reply database =>
      s.current_location = none ∨ database.waypoints = s.map.app.waypoint_list
  | _ => True

theorem place_marker (l : Option UserLocation) (latlng : LatLng) (accuracy : Js.Number) :
    (View.place l latlng accuracy).marker = latlng := by
  cases l <;> rfl

/-- A move draws the route anew, or there is none to draw and none on the map. -/
theorem current_setUserLocation {s : View} (hheld : s.controls = s.escape_route.toList)
    (h : Current s) (latlng : LatLng) (accuracy : Js.Number) :
    Current (s.setUserLocation latlng accuracy) := by
  unfold Current at h ⊢
  rw [setUserLocation_map]
  rcases setUserLocation_spec hheld latlng accuracy with
    ⟨hw, hset⟩ | ⟨ws, c, hw, hc, hcontrols, _, hcur⟩
  · rw [hw] at h
    rw [hset, hw]
    simp only [Option.map_none, Option.bind_fun_none] at h ⊢
    exact h
  · rw [hcontrols, hcur, hw, List.map_singleton, hc, Option.bind_some, place_marker]
    rfl

/-- What `Placed` says of the route whatever the moves were. -/
def Held (s : View) : Prop := s.controls = s.escape_route.toList

theorem held_step {s s' : View} {e : Event} (h : Held s) (hs : Step s e s') : Held s' := by
  have hset : ∀ (t : View) (latlng : LatLng) (accuracy : Js.Number), Held t →
      Held (t.setUserLocation latlng accuracy) := by
    intro t latlng accuracy ht
    rcases setUserLocation_spec ht latlng accuracy with
      ⟨_, hset⟩ | ⟨_, c, _, _, hcontrols, hroute, _⟩
    · rw [hset]
      exact ht
    · rw [Held, hcontrols, hroute]
      rfl
  cases step_effect hs with
  | found _ => exact hset _ _ _ h
  | switched =>
      unfold View.setAutoLocation
      cases s.autoloc_checkbox <;> exact h
  | pressed _ hp =>
      cases hp with
      | reported _ _ => exact h
      | overridden _ _ => exact hset _ _ _ h
      | threw _ => exact h
  | _ => exact h

/-- **What a step needs** to keep the route up to date. -/
theorem current_step {s s' : View} {e : Event} (hheld : Held s) (h : Current s)
    (hs : Step s e s') : Current s' ↔ Steady s e := by
  have hsame : ∀ {t : View}, t.current_location = s.current_location →
      t.controls = s.controls → t.map.app.waypoint_list = s.map.app.waypoint_list →
      Current t := by
    intro t hl hc hw
    rw [Current, hl, hc, hw]
    exact h
  cases step_effect hs with
  | found _ =>
      refine iff_of_true ?_ trivial
      exact current_setUserLocation (s := { s with locating := s.locating - 1 }) hheld h _ _
  | failed _ => exact iff_of_true (hsame rfl rfl rfl) trivial
  | asked _ => exact iff_of_true (hsame rfl rfl rfl) trivial
  | switched =>
      refine iff_of_true ?_ trivial
      unfold View.setAutoLocation
      cases s.autoloc_checkbox <;> exact hsame rfl rfl rfl
  | tapped => exact iff_of_true (hsame rfl rfl rfl) trivial
  | pressed _ hp =>
      refine iff_of_true ?_ trivial
      cases hp with
      | reported _ _ => exact hsame rfl rfl rfl
      | overridden _ _ => exact current_setUserLocation hheld h _ _
      | threw _ => exact h
  | dismissed => exact iff_of_true (hsame rfl rfl rfl) trivial
  | clicked _ hw => exact iff_of_true (hsame rfl rfl hw) trivial
  | confirmed _ hw => exact iff_of_true (hsame rfl rfl hw) trivial
  | @replied database m _ hw =>
      show s.controls.map Control.waypoints
          = (s.current_location.bind fun l => m.app.waypoint_list.map fun ws =>
            l.marker :: ws).toList ↔ s.current_location = none ∨ _ = _
      rw [h, hw]
      cases hl : s.current_location with
      | none => exact iff_of_true rfl (Or.inl rfl)
      | some l =>
          rw [Option.bind_some, Option.bind_some, or_iff_right (by simp)]
          -- two lists of waypoints have one route only if they are equal
          cases s.map.app.waypoint_list <;> cases database.waypoints <;> simp [eq_comm]

/--
**The route on the map is up to date**, from the user's position through the app's
waypoints, in exactly the runs in which no reply brings other waypoints, or none, once
the position is known.
-/
theorem current_iff {app : App} {checked : Bool} {id : Nat} {es : List Event} {s : View}
    (h : Lts.Run Step (start app checked id) es s) :
    Lts.Always Step Current (start app checked id) es
      ↔ Lts.Run (Lts.Guarded Step Steady) (start app checked id) es s :=
  Lts.always_iff_guarded (I := Held) step_deterministic (fun hi _ _ hs => held_step hi hs)
    current_step h rfl rfl

theorem current_iff_firstFix :
    Lts.Always Step Current (start withRoute true 1) [firstFix, .reply (Readme.readmeDatabase [])]
      ↔ Lts.Run (Lts.Guarded Step Steady) (start withRoute true 1)
        [firstFix, .reply (Readme.readmeDatabase [])]
        (handle (handle (start withRoute true 1) firstFix) (.reply (Readme.readmeDatabase []))) :=
  current_iff (.cons ⟨Nat.one_pos, rfl⟩ (.cons ⟨⟨List.nodup_nil, by decide⟩, rfl⟩ .nil))

/-! ## The interval -/

def isToggle : Event → Bool
  | .toggle => true
  | _ => false

/-- An answer of the browser. -/
def isAnswer : Event → Bool
  | .locationfound _ _ => true
  | .locationerror => true
  | _ => false

/-- A press of the last button. -/
def isOverride : Event → Bool
  | .press k _ _ => k = Draw.event_types.length
  | _ => false

/-- What the interval and the checkbox have in common: a click on it sets them both. -/
structure Unswitched (s s' : View) : Prop where
  intervals : s'.intervals = s.intervals
  gpsUpdater : s'.gpsUpdater = s.gpsUpdater
  autoloc_checkbox : s'.autoloc_checkbox = s.autoloc_checkbox

theorem unswitched_setUserLocation (s : View) (latlng : LatLng) (accuracy : Js.Number) :
    Unswitched s (s.setUserLocation latlng accuracy) :=
  ⟨setUserLocation_intervals _ _ _, setUserLocation_gpsUpdater _ _ _,
    setUserLocation_autoloc_checkbox _ _ _⟩

theorem unswitched_step {s s' : View} {e : Event} (hs : Step s e s') (he : isToggle e = false) :
    Unswitched s s' := by
  cases step_effect hs with
  | @found latlng accuracy _ =>
      have h := unswitched_setUserLocation { s with locating := s.locating - 1 } latlng accuracy
      exact ⟨h.intervals, h.gpsUpdater, h.autoloc_checkbox⟩
  | switched => cases he
  | pressed _ hp =>
      cases hp with
      | reported _ _ => exact ⟨rfl, rfl, rfl⟩
      | @overridden tap _ _ =>
          have h := unswitched_setUserLocation s tap ⟨"100"⟩
          exact ⟨h.intervals, h.gpsUpdater, h.autoloc_checkbox⟩
      | threw _ => exact ⟨rfl, rfl, rfl⟩
  | _ => exact ⟨rfl, rfl, rfl⟩

/-- The intervals there are, if the checkbox has been clicked in `es`, and if not. -/
def Updating (es : List Event) (s : View) : Prop :=
  s.intervals =
    if es.any isToggle then (if s.autoloc_checkbox then [(s.gpsUpdater, 5000)] else [])
    else [(s.gpsUpdater, 20000)]

/-- **Setting the interval** anew, when there is no other than the one that is cleared. -/
theorem setAutoLocation_spec {s : View}
    (h : s.intervals.filter (fun t => t.1 ≠ s.gpsUpdater) = []) (enabled : Bool) :
    (s.setAutoLocation enabled).intervals
        = (if enabled then [((s.setAutoLocation enabled).gpsUpdater, 5000)] else [])
      ∧ (s.setAutoLocation enabled).autoloc_checkbox = s.autoloc_checkbox := by
  cases enabled with
  | false => exact ⟨h, rfl⟩
  | true =>
      refine ⟨?_, rfl⟩
      show s.intervals.filter (fun t => t.1 ≠ s.gpsUpdater) ++ [(s.nextId, 5000)] = _
      rw [h]
      rfl

/-- **A click on the checkbox** leaves the interval it stands for, or none. -/
theorem updating_toggle {es : List Event} {s s' : View} (h : Updating es s)
    (hs : Step s .toggle s') : Updating (es ++ [.toggle]) s' := by
  have hcleared : s.intervals.filter (fun t => t.1 ≠ s.gpsUpdater) = [] := by
    rw [h]
    split
    · split <;> simp
    · simp
  obtain ⟨_, rfl⟩ := hs
  have hany : (es ++ [Event.toggle]).any isToggle = true := by
    rw [List.any_append]
    exact Bool.or_true _
  let t : View := { s with autoloc_checkbox := !s.autoloc_checkbox }
  have hset : (t.setAutoLocation !s.autoloc_checkbox).intervals
      = (if !s.autoloc_checkbox then
          [((t.setAutoLocation !s.autoloc_checkbox).gpsUpdater, 5000)] else [])
      ∧ (t.setAutoLocation !s.autoloc_checkbox).autoloc_checkbox = !s.autoloc_checkbox :=
    setAutoLocation_spec (s := t) hcleared _
  rw [Updating, if_pos hany]
  show (t.setAutoLocation !s.autoloc_checkbox).intervals
    = if (t.setAutoLocation !s.autoloc_checkbox).autoloc_checkbox then
        [((t.setAutoLocation !s.autoloc_checkbox).gpsUpdater, 5000)] else []
  rw [hset.2]
  exact hset.1

theorem updating_step {es : List Event} {s s' : View} {e : Event} (h : Updating es s)
    (hs : Step s e s') : Updating (es ++ [e]) s' := by
  by_cases he : isToggle e = true
  · cases e with
    | toggle => exact updating_toggle h hs
    | _ => cases he
  · have he' : isToggle e = false := by simpa using he
    obtain ⟨hi, hg, hc⟩ := unswitched_step hs he'
    have hany : (es ++ [e]).any isToggle = es.any isToggle := by
      rw [List.any_append, List.any_cons, he', List.any_nil]
      exact Bool.or_false _
    rw [Updating, hi, hg, hc, hany]
    exact h

/--
**The browser is asked for the position** by one interval at most: every 20 seconds until
the checkbox is first clicked, whatever it shows, and from then on every 5 seconds
exactly while it is checked.
-/
theorem updating_run {app : App} {checked : Bool} {id : Nat} {es : List Event} {s : View}
    (h : Lts.Run Step (start app checked id) es s) :
    s.intervals =
      if es.any isToggle then (if s.autoloc_checkbox then [(s.gpsUpdater, 5000)] else [])
      else [(s.gpsUpdater, 20000)] :=
  h.history (I := Updating) (fun _ hi hs => updating_step hi hs) rfl

theorem updating_run_twice :
    let s := handle (handle (start withRoute true 1) .toggle) .toggle
    s.intervals =
      if [Event.toggle, .toggle].any isToggle then
        (if s.autoloc_checkbox then [(s.gpsUpdater, 5000)] else [])
      else [(s.gpsUpdater, 20000)] :=
  updating_run (.cons ⟨trivial, rfl⟩ (.cons ⟨trivial, rfl⟩ .nil))

/-- **The step lemma** without an interval: an answer is one of those still owed. -/
theorem off_step {s s' : View} {e : Event} (hoff : s.intervals = []) (he : isToggle e = false)
    (hs : Step s e s') :
    s'.intervals = [] ∧ [e].countP isAnswer + s'.locating = s.locating
      ∧ (s.locating = 0 → isOverride e = false →
        s'.current_location = s.current_location ∧ s'.controls = s.controls) := by
  refine ⟨(unswitched_step hs he).intervals.trans hoff, ?_⟩
  cases step_effect hs with
  | @found latlng accuracy hpos =>
      obtain ⟨r, cs, n, h⟩ :=
        setUserLocation_shape { s with locating := s.locating - 1 } latlng accuracy
      rw [h]
      refine ⟨?_, fun h0 => by omega⟩
      show 1 + (s.locating - 1) = s.locating
      omega
  | failed hpos =>
      refine ⟨?_, fun h0 => by omega⟩
      show 1 + (s.locating - 1) = s.locating
      omega
  | asked hid =>
      rw [hoff] at hid
      cases hid
  | switched => cases he
  | pressed _ hp =>
      cases hp with
      | reported _ _ => exact ⟨Nat.zero_add _, fun _ _ => ⟨rfl, rfl⟩⟩
      | @overridden tap hk _ =>
          obtain ⟨r, cs, n, h⟩ := setUserLocation_shape s tap ⟨"100"⟩
          rw [h]
          refine ⟨Nat.zero_add _, fun _ ho => ?_⟩
          exact absurd hk (of_decide_eq_false ho)
      | threw _ => exact ⟨Nat.zero_add _, fun _ _ => ⟨rfl, rfl⟩⟩
  | _ => exact ⟨Nat.zero_add _, fun _ _ => ⟨rfl, rfl⟩⟩

/--
**Switching the automatic position off** ends it once the browser has answered what it
was asked before: as long as the checkbox is left alone there are only so many answers
more, and when none is owed, nothing but the last button moves the user or the route.
-/
theorem switched_off {app : App} {checked : Bool} {id : Nat} {es es' : List Event} {s s' : View}
    (h : Lts.Run Step (start app checked id) es s) (ht : es.any isToggle = true)
    (hoff : s.autoloc_checkbox = false) (h' : Lts.Run Step s es' s')
    (hleft : es'.any isToggle = false) :
    es'.countP isAnswer + s'.locating = s.locating
      ∧ (s.locating = 0 → es'.any isOverride = false →
        s'.current_location = s.current_location ∧ s'.controls = s.controls) := by
  have hnone : s.intervals = [] := by
    have hup : Updating es s := h.history (I := Updating) (fun _ hi hs => updating_step hi hs) rfl
    rw [hup, if_pos ht, hoff]
    rfl
  clear h ht hoff
  induction h' with
  | nil => exact ⟨Nat.zero_add _, fun _ _ => ⟨rfl, rfl⟩⟩
  | @cons s t u e es hs _ ih =>
      rw [List.any_cons, Bool.or_eq_false_iff] at hleft
      obtain ⟨he, hes⟩ := hleft
      obtain ⟨hi, hcount, hkept⟩ := off_step hnone he hs
      obtain ⟨hcount', hkept'⟩ := ih hes hi
      have hsplit : (e :: es).countP isAnswer = [e].countP isAnswer + es.countP isAnswer := by
        show List.countP isAnswer ([e] ++ es) = _
        exact List.countP_append
      refine ⟨by omega, ?_⟩
      intro h0 ho
      rw [List.any_cons, Bool.or_eq_false_iff] at ho
      obtain ⟨hl, hc⟩ := hkept h0 ho.1
      obtain ⟨hl', hc'⟩ := hkept' (by omega) ho.2
      exact ⟨hl'.trans hl, hc'.trans hc⟩

/-- The first answer comes after the user has switched the automatic position off. -/
theorem switched_off_firstFix :
    let s := handle (start withRoute true 1) .toggle
    [firstFix].countP isAnswer + (handle s firstFix).locating = s.locating
      ∧ (s.locating = 0 → [firstFix].any isOverride = false →
        (handle s firstFix).current_location = s.current_location
          ∧ (handle s firstFix).controls = s.controls) := by
  intro s
  have hoff : Lts.Run Step (start withRoute true 1) [.toggle] s := .cons ⟨trivial, rfl⟩ .nil
  have hfix : Lts.Run Step s [firstFix] (handle s firstFix) := .cons ⟨Nat.one_pos, rfl⟩ .nil
  exact switched_off hoff rfl rfl hfix rfl

/-! ## The menu -/

/-- Where the user tapped. -/
def tapped : Event → Option LatLng
  | .tap latlng => some latlng
  | _ => none

/-- The menu is opened by a tap. -/
structure Tapped (es : List Event) (s : View) : Prop where
  last : s.tap_location = (es.filterMap tapped).getLast?
  opened : s.event_dialog = true → s.tap_location.isSome

/-- No step but a tap sets the place or opens the menu. -/
theorem tap_frame {s s' : View} {e : Event} (hs : Step s e s') (he : tapped e = none) :
    s'.tap_location = s.tap_location ∧ (s'.event_dialog = true → s.event_dialog = true) := by
  cases step_effect hs with
  | found _ =>
      rw [setUserLocation_tap_location, setUserLocation_event_dialog]
      exact ⟨rfl, id⟩
  | switched =>
      unfold View.setAutoLocation
      cases s.autoloc_checkbox <;> exact ⟨rfl, id⟩
  | tapped => cases he
  | pressed ho hp =>
      refine ⟨?_, fun _ => ho⟩
      cases hp with
      | reported _ _ => rfl
      | overridden _ _ => exact setUserLocation_tap_location s _ _
      | threw _ => rfl
  | dismissed => exact ⟨rfl, fun h => (by cases h)⟩
  | _ => exact ⟨rfl, id⟩

theorem tapped_step {es : List Event} {s s' : View} {e : Event} (h : Tapped es s)
    (hs : Step s e s') : Tapped (es ++ [e]) s' := by
  cases he : tapped e with
  | some latlng =>
      have hfilter : (es ++ [e]).filterMap tapped = es.filterMap tapped ++ [latlng] := by
        rw [List.filterMap_append, List.filterMap_cons_some he, List.filterMap_nil]
      cases e with
      | tap p =>
          obtain ⟨_, rfl⟩ := hs
          refine ⟨?_, fun _ => rfl⟩
          rw [hfilter, List.getLast?_concat]
          exact he
      | _ => cases he
  | none =>
      have hfilter : (es ++ [e]).filterMap tapped = es.filterMap tapped := by
        rw [List.filterMap_append, List.filterMap_cons_none he, List.filterMap_nil,
          List.append_nil]
      obtain ⟨ht, ho⟩ := tap_frame hs he
      refine ⟨?_, ?_⟩
      · rw [ht, hfilter]
        exact h.last
      · rw [ht]
        exact fun hd => h.opened (ho hd)

/--
**The menu never fails.** Whenever a button can be pressed, it acts on the place of the
last tap: the last one moves the user there, and any other reports an event there, of the
type it stands for, which is drawn with the icons of that type wherever Leaflet can
place it. That the position of the user would serve instead is never needed.
-/
theorem menu_run {app : App} {checked : Bool} {id : Nat} {es : List Event} {s s' : View}
    (h : Lts.Run Step (start app checked id) es s) {k : Nat} {i : EventId} {ts : JsonNumber}
    (hs : Step s (.press k i ts) s') :
    ∃ tap, (es.filterMap tapped).getLast? = some tap ∧ s'.event_dialog = false
      ∧ ((∃ p, Draw.event_types[k]? = some p ∧ Draw.getEvent (.str p.1) = .ok p.2
          ∧ s'.map = s.map.onClick (newEvent tap p.1 i ts)
          ∧ s'.current_location = s.current_location
          ∧ ∀ places, places ((Storage.newEvent tap p.1 i ts).prop "latlng") = true →
            Draw.drawEvent places (Storage.newEvent tap p.1 i ts) = .ok ())
        ∨ (k = Draw.event_types.length ∧ s'.map = s.map
          ∧ s'.current_location = some (View.place s.current_location tap ⟨"100"⟩))) := by
  have htap : Tapped es s :=
    h.history (I := Tapped) (fun _ hi hs => tapped_step hi hs) ⟨rfl, fun h => (by cases h)⟩
  cases step_effect hs with
  | pressed ho hp =>
      obtain ⟨tap, ht⟩ := Option.isSome_iff_exists.mp (htap.opened ho)
      refine ⟨tap, htap.last.symm.trans ht, ?_⟩
      cases hp with
      | @reported p latlng hp hl =>
          have hlatlng : latlng = tap := by
            unfold View.eventLatLng at hl
            rw [ht] at hl
            exact (Option.some.inj hl).symm
          subst hlatlng
          have hmem := List.mem_of_getElem? hp
          have hname : ∀ p ∈ Draw.event_types, p.1 ∉ Js.objectPrototype := by decide
          refine ⟨rfl, Or.inl ⟨p, hp, getEvent_of_button hmem, rfl, rfl, ?_⟩⟩
          intro places hplaces
          exact Draw.drawEvent_ok_iff.mpr ⟨rfl, ⟨p.1, rfl, hname p hmem⟩, hplaces⟩
      | @overridden tap' hk ht' =>
          obtain rfl := Option.some.inj (ht'.symm.trans ht)
          obtain ⟨r, cs, n, hset⟩ := setUserLocation_shape s tap' ⟨"100"⟩
          rw [hset]
          exact ⟨rfl, Or.inr ⟨hk, rfl, rfl⟩⟩
      | threw ht' =>
          rw [ht] at ht'
          cases ht'

/-- Before any position is known, the user taps on the map and presses the first button. -/
def firstTap : Event := .tap (Readme.readmeEvent Readme.idA).latlng

def firstPress : Event := .press 0 Readme.idA (Readme.readmeEvent Readme.idA).timestamp

theorem menu_run_firstPress :
    let s := handle (start {} true 1) firstTap
    ∃ tap, ([firstTap].filterMap tapped).getLast? = some tap
      ∧ (handle s firstPress).event_dialog = false
      ∧ ((∃ p, Draw.event_types[0]? = some p ∧ Draw.getEvent (.str p.1) = .ok p.2
          ∧ (handle s firstPress).map = s.map.onClick (newEvent tap p.1 Readme.idA
            (Readme.readmeEvent Readme.idA).timestamp)
          ∧ (handle s firstPress).current_location = s.current_location
          ∧ ∀ places, places ((Storage.newEvent tap p.1 Readme.idA
              (Readme.readmeEvent Readme.idA).timestamp).prop "latlng") = true →
            Draw.drawEvent places (Storage.newEvent tap p.1 Readme.idA
              (Readme.readmeEvent Readme.idA).timestamp) = .ok ())
        ∨ (0 = Draw.event_types.length ∧ (handle s firstPress).map = s.map
          ∧ (handle s firstPress).current_location
            = some (View.place s.current_location tap ⟨"100"⟩))) := by
  intro s
  have htap : Lts.Run Step (start {} true 1) [firstTap] s := .cons ⟨trivial, rfl⟩ .nil
  have hpress : Step s firstPress (handle s firstPress) :=
    ⟨⟨rfl, by decide, List.not_mem_nil⟩, rfl⟩
  exact menu_run htap hpress

/-! ## The markers -/

/--
**What happens to the markers** in a run of the controller is a run of `MapCtrl`, which
knows nothing of positions and routes; the events its user creates are those of the menu.
-/
theorem exists_map_run {app : App} {checked : Bool} {id : Nat} {es : List Event} {s : View}
    (h : Lts.Run Step (start app checked id) es s) :
    ∃ fs, Lts.Run MapCtrl.Step (MapCtrl.start app) fs s.map := by
  refine h.invariant (I := fun s => ∃ fs, Lts.Run MapCtrl.Step (MapCtrl.start app) fs s.map)
    ?_ ⟨[], .nil⟩
  intro s e s' hex hs
  obtain ⟨fs, hfs⟩ := hex
  have hmarker : ∀ {f : MapCtrl.Event} {m : Map}, MapCtrl.Step s.map f m →
      ∃ fs, Lts.Run MapCtrl.Step (MapCtrl.start app) fs m :=
    fun hm => ⟨_, hfs.append (.single hm)⟩
  cases step_effect hs with
  | found _ =>
      rw [setUserLocation_map]
      exact ⟨fs, hfs⟩
  | switched =>
      unfold View.setAutoLocation
      cases s.autoloc_checkbox <;> exact ⟨fs, hfs⟩
  | @pressed k id timestamp _ _ hp =>
      cases hp with
      | @reported p latlng hk _ =>
          have htype : p.1 ∈ Draw.event_types.map Prod.fst :=
            List.mem_map_of_mem (List.mem_of_getElem? hk)
          exact hmarker (f := .create latlng p.1 id timestamp) ⟨⟨hs.1.2.2, htype⟩, rfl⟩
      | @overridden tap _ _ =>
          show ∃ fs, Lts.Run MapCtrl.Step _ fs (s.setUserLocation tap ⟨"100"⟩).map
          rw [setUserLocation_map]
          exact ⟨fs, hfs⟩
      | threw _ => exact ⟨fs, hfs⟩
  | clicked hm _ => exact hmarker hm
  | confirmed hm _ => exact hmarker hm
  | replied hm _ => exact hmarker hm
  | _ => exact ⟨fs, hfs⟩

end EssApp.Location
