import EssApp.Js.Object
import EssApp.Readme.Database

/-!
# Drawing what a reply brought

The app draws a server's reply before it stores it, and it draws whatever the reply
says. What can go wrong is decided value by value: the element is `null`, its type
has no text, its type is a name every object answers for (so `getEvent` returns
something without icons), or Leaflet finds no position in its `latlng`.

Which positions Leaflet can place is Leaflet's business and is taken as a parameter,
`places`. That an icon must not be `undefined` is not: it is the one thing the type
of an event decides.
-/

namespace EssApp.Draw

open Js

/-- An entry of `event_types`, an icon being its `iconUrl`. -/
structure EventType where
  text : Option String := none
  button_icon : Option String := none
  marker_icon : Option String := none
  disabled_icon : Option String := none
  deriving DecidableEq, Repr

def eventType (text name : String) : EventType where
  text := some text
  button_icon := some ("custom/img/event_" ++ name ++ ".png")
  marker_icon := some ("custom/img/marker_" ++ name ++ ".png")
  disabled_icon := some ("custom/img/disabled_marker_" ++ name ++ ".png")

def other : EventType := eventType "Other event" "other"

def event_types : List (String × EventType) :=
  [("fire", eventType "Fire" "fire"),
   ("gas", eventType "Gas escapes" "gas"),
   ("electricity", eventType "Dropped cables" "electricity"),
   ("closed", eventType "Closed path" "closed"),
   ("collapse", eventType "Collapse" "collapse"),
   ("other", other)]

/-- `public.getEvent`. A name `event_types` inherits is a function or an object, with no icons. -/
def getEvent (type : Value) : Except Exn EventType := do
  let name ← type.toText
  match Table.get event_types name with
  | some ev => return ev
  | none => if name ∈ objectPrototype then return {} else return other

/-- `L.marker(latlng, {icon: icon})`, added to the map. -/
def addMarker (places : Value → Bool) (latlng : Value) (icon : Option String) : Except Exn Unit :=
  if places latlng && icon.isSome then .ok () else .error .typeError

section

variable (places : Value → Bool)

def drawEvent (event : Value) : Except Exn Unit := do
  let ev ← getEvent (← event.get "type")
  let latlng ← event.get "latlng"
  let validated ← event.get "validated"
  let _ ← event.get "id"
  addMarker places latlng (if validated.truthy then ev.marker_icon else ev.disabled_icon)

/-- Every status has an icon. -/
def wuIcon (status : Value) : String :=
  match status with
  | .str "up" => "wuUpMarker"
  | .str "down" => "wuDownMarker"
  | _ => "wuUnkMarker"

def drawWU (wu : Value) : Except Exn Unit := do
  let icon := wuIcon (← wu.get "status")
  let latlng ← wu.get "latlng"
  addMarker places latlng (some icon)

/-- `app.updateMarkers`, as far as it can throw. Clearing the map cannot. -/
def updateMarkers (marker_list wu_list : Value) : Except Exn Unit := do
  marker_list.values.forM (drawEvent places)
  wu_list.values.forM (drawWU places)

end

/-- The types of README-format events are such that they have icons. -/
def Typed (ms : List Readme.Marker) : Prop := ∀ m ∈ ms, m.type ∉ objectPrototype

instance (ms : List Readme.Marker) : Decidable (Typed ms) :=
  inferInstanceAs (Decidable (∀ m ∈ ms, m.type ∉ objectPrototype))

/-! ## What can be drawn -/

theorem forM_ok_iff {α : Type} {f : α → Except Exn Unit} {l : List α} :
    l.forM f = .ok () ↔ ∀ x ∈ l, f x = .ok () := by
  induction l with
  | nil => exact iff_of_true rfl (by simp)
  | cons x l ih =>
      show (f x >>= fun _ => l.forM f) = .ok () ↔ _
      rw [bind_ok_iff, List.forall_mem_cons, ← ih]
      constructor
      · rintro ⟨⟨⟩, hx, hl⟩
        exact ⟨hx, hl⟩
      · rintro ⟨hx, hl⟩
        exact ⟨(), hx, hl⟩

theorem addMarker_ok_iff {places : Value → Bool} {latlng : Value} {icon : Option String} :
    addMarker places latlng icon = .ok () ↔ places latlng = true ∧ icon.isSome := by
  unfold addMarker
  rw [← Bool.and_eq_true]
  split
  · exact iff_of_true rfl ‹_›
  · exact iff_of_false (by rintro ⟨⟩) ‹_›

/-- Every type that is no inherited name has both icons. -/
theorem getEvent_icons {type : Value} {name : String} (h : type.toStr = some name)
    (hn : name ∉ objectPrototype) :
    ∃ ev, getEvent type = .ok ev ∧ ev.marker_icon.isSome ∧ ev.disabled_icon.isSome := by
  have hall : ∀ e ∈ event_types, e.2.marker_icon.isSome ∧ e.2.disabled_icon.isSome := by decide
  rw [getEvent, Value.toText_ok_iff.mpr h]
  cases hg : Table.get event_types name with
  | some ev =>
      refine ⟨ev, ?_, hall _ (Table.mem_of_get hg)⟩
      simp only [hg, bind, Except.bind]
      rfl
  | none =>
      refine ⟨other, ?_, by decide⟩
      simp only [hg, bind, Except.bind, if_neg hn]
      rfl

/-- An inherited name has none. -/
theorem getEvent_builtin {type : Value} {name : String} {ev : EventType}
    (h : type.toStr = some name) (hn : name ∈ objectPrototype) (hev : getEvent type = .ok ev) :
    ev = {} := by
  have hnone : ∀ k ∈ objectPrototype, Table.get event_types k = none := by decide
  rw [getEvent, Value.toText_ok_iff.mpr h] at hev
  simp only [bind, Except.bind, hnone name hn, if_pos hn] at hev
  exact (Except.ok.inj hev).symm

/-- An event Leaflet can place, of a type that has a text and is no inherited name. -/
structure Drawable (places : Value → Bool) (event : Value) : Prop where
  present : event.isNullish = false
  type : ∃ name, (event.prop "type").toStr = some name ∧ name ∉ objectPrototype
  latlng : places (event.prop "latlng") = true

/-- **Which events are drawn.** Whether they are validated does not matter. -/
theorem drawEvent_ok_iff {places : Value → Bool} {event : Value} :
    drawEvent places event = .ok () ↔ Drawable places event := by
  constructor
  · intro h
    obtain ⟨type, htype, h⟩ := bind_ok_iff.mp h
    obtain ⟨hev, rfl⟩ := Value.get_ok_iff.mp htype
    obtain ⟨ev, hget, h⟩ := bind_ok_iff.mp h
    obtain ⟨latlng, hlatlng, h⟩ := bind_ok_iff.mp h
    obtain ⟨_, rfl⟩ := Value.get_ok_iff.mp hlatlng
    obtain ⟨validated, _, h⟩ := bind_ok_iff.mp h
    obtain ⟨_, _, h⟩ := bind_ok_iff.mp h
    obtain ⟨hplaces, hicon⟩ := addMarker_ok_iff.mp h
    obtain ⟨name, hname, _⟩ := bind_ok_iff.mp hget
    have hname' := Value.toText_ok_iff.mp hname
    refine ⟨hev, ⟨name, hname', fun hbuiltin => ?_⟩, hplaces⟩
    -- an inherited name has no icon to draw with
    rw [getEvent_builtin hname' hbuiltin hget] at hicon
    split at hicon <;> cases hicon
  · rintro ⟨hev, ⟨name, htype, hname⟩, hlatlng⟩
    have hread := Value.get_eq hev
    obtain ⟨ev, hget, hmarker, hdisabled⟩ := getEvent_icons htype hname
    unfold drawEvent
    refine bind_ok_iff.mpr ⟨_, hread "type", bind_ok_iff.mpr ⟨ev, hget, bind_ok_iff.mpr ⟨_,
      hread "latlng", bind_ok_iff.mpr ⟨_, hread "validated", bind_ok_iff.mpr ⟨_, hread "id", ?_⟩⟩⟩⟩⟩
    refine addMarker_ok_iff.mpr ⟨hlatlng, ?_⟩
    split
    · exact hmarker
    · exact hdisabled

/-- A Witness Unit Leaflet can place. -/
structure Placeable (places : Value → Bool) (wu : Value) : Prop where
  present : wu.isNullish = false
  latlng : places (wu.prop "latlng") = true

/-- **Which Witness Units are drawn.** Their status does not matter. -/
theorem drawWU_ok_iff {places : Value → Bool} {wu : Value} :
    drawWU places wu = .ok () ↔ Placeable places wu := by
  constructor
  · intro h
    obtain ⟨status, _, h⟩ := bind_ok_iff.mp h
    obtain ⟨latlng, hlatlng, h⟩ := bind_ok_iff.mp h
    obtain ⟨hwu, rfl⟩ := Value.get_ok_iff.mp hlatlng
    exact ⟨hwu, (addMarker_ok_iff.mp h).1⟩
  · rintro ⟨hwu, hplaces⟩
    have hread := Value.get_eq hwu
    exact bind_ok_iff.mpr ⟨_, hread "status", bind_ok_iff.mpr ⟨_, hread "latlng",
      addMarker_ok_iff.mpr ⟨hplaces, rfl⟩⟩⟩

/-- **A redraw gets through** exactly if everything in both lists can be drawn. -/
theorem updateMarkers_ok_iff {places : Value → Bool} {marker_list wu_list : Value} :
    updateMarkers places marker_list wu_list = .ok ()
      ↔ (∀ m ∈ marker_list.values, Drawable places m)
        ∧ ∀ w ∈ wu_list.values, Placeable places w := by
  simp only [← drawEvent_ok_iff, ← drawWU_ok_iff, ← forM_ok_iff]
  rw [updateMarkers, bind_ok_iff]
  constructor
  · rintro ⟨⟨⟩, hm, hw⟩
    exact ⟨hm, hw⟩
  · rintro ⟨hm, hw⟩
    exact ⟨(), hm, hw⟩

end EssApp.Draw
