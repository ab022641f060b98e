import EssApp.App.Draw
import EssApp.Js.Json
import EssApp.Lib.Places
import EssApp.Lib.Run
import EssApp.Readme.Database
import EssApp.Server.Merge
import EssApp.Sync.App

/-!
# The app's lists and `localStorage`

The app keeps three lists in memory and three texts in `localStorage`. It writes the
texts as the lists change and reads them when it starts. A new event is drawn before
it is added and a deletion searches before it removes, so whatever throws there
throws before anything has changed. A reply is different: it replaces the lists
first, is drawn next and stored last, and nobody has looked at what it says. If the
drawing throws, memory and storage part; if it does not, what is stored is whatever
the three properties were, `undefined` included, which is stored as a text that
`JSON.parse` rejects.

`restored_iff` says which replies a restart survives, and that nothing else can
come between the two. The three texts are taken never to exceed the quota of the browser:
`localStorage.setItem` does not throw.
-/

namespace EssApp.Storage

open Js Draw
open Readme (LatLng EventId JsonNumber)
open Sync (splice)
open WebSocketServer (printLength printLength_ok_iff)

/-! ## `==` -/

/-- Two numbers are equal if they are written alike; `NaN` is equal to nothing. -/
def numberEq (n m : Number) : Bool := n = m && n.text ≠ "NaN"

/-- A plain object's `valueOf` answers the object, so its text is what counts. -/
def toPrimitive (v : Value) : Except Exn Value :=
  if v.isObject then do return .str (← v.toText) else .ok v

def boolToNumber : Value → Value
  | .bool b => .num ⟨if b then "1" else "0"⟩
  | v => v

/-- `==` on numbers and strings; `toNumber` is what `Number` makes of a string. -/
def primitiveEq (toNumber : String → Number) : Value → Value → Bool
  | .num n, .num m => numberEq n m
  | .num n, .str s => numberEq n (toNumber s)
  | .str s, .num n => numberEq (toNumber s) n
  | .str s, .str t => s = t
  | _, _ => false

/-- `a == b`; `same` says whether two objects are one and the same. -/
def looseEq (toNumber : String → Number) (same : Bool) (a b : Value) : Except Exn Bool :=
  if a.isNullish || b.isNullish then .ok (a.isNullish && b.isNullish)
  else if a.isObject && b.isObject then .ok same
  else do
    let a ← toPrimitive a
    let b ← toPrimitive b
    return primitiveEq toNumber (boolToNumber a) (boolToNumber b)

/-- `Array.prototype.findIndex`, from the `i`-th element on, with a test that may throw. -/
def findIndex (p : Nat → Value → Except Exn Bool) : List Value → Nat → Except Exn Int
  | [], _ => .ok (-1)
  | el :: els, i => do
      if ← p i el then return (i : Int)
      else findIndex p els (i + 1)

/-! ## The handlers -/

/-- The three items of `localStorage`; `none` is one that was never set. -/
structure Items where
  marker_list : Option Text := none
  wu_list : Option Text := none
  waypoint_list : Option Text := none

structure Device where
  marker_list : Value
  wu_list : Value
  waypoint_list : Value
  storage : Items

/--
The text `setItem(k, JSON.stringify(v))` leaves, if there is room for it. Of `undefined` it is
`"undefined"`.
-/
def stored : Value → Text
  | .undefined => .malformed
  | v => JSON.stringify v

/-- `JSON.parse(localStorage.getItem(k))`. -/
def getItem : Option Text → Except Exn Value
  | none => .ok .null
  | some t => JSON.parse t

/-- The same for the marker and the WU list, with the line that prints the length. -/
def loadList (item : Option Text) : Except Exn Value := do
  let list ← getItem item
  if list.truthy then
    let _ ← printLength list
    return list
  else
    return .arr []

/-- Reading the three lists back, as the initialisation does. -/
def restore (storage : Items) : Except Exn (Value × Value × Value) := do
  let marker_list ← loadList storage.marker_list
  let wu_list ← loadList storage.wu_list
  let waypoint_list ← getItem storage.waypoint_list
  return (marker_list, wu_list, waypoint_list)

/-- The event the user reports. -/
def newEvent (latlng : LatLng) (type : String) (id : EventId) (timestamp : JsonNumber) : Value :=
  .obj [("latlng", .obj [("lat", .num latlng.lat.1), ("lng", .num latlng.lng.1)]),
    ("type", .str type), ("validated", .bool false), ("reported", .bool false),
    ("id", .str id.text), ("timestamp", .num timestamp.1)]

/-- The three properties of a message. The first read throws if there is no database at all. -/
def readMessage (data : Text) : Except Exn (Value × Value × Value) := do
  let database ← JSON.parse data
  let wus ← database.get "wus"
  let markers ← database.get "markers"
  let waypoints ← database.get "waypoints"
  return (wus, markers, waypoints)

section

variable (places : Value → Bool) (toNumber : String → Number)

/-- The initialisation, up to `app.initServer()`. -/
def initialise (storage : Items) : Except Exn Device := do
  let marker_list ← loadList storage.marker_list
  let wu_list ← loadList storage.wu_list
  updateMarkers places marker_list wu_list
  let waypoint_list ← getItem storage.waypoint_list
  return { marker_list, wu_list, waypoint_list, storage }

/-- `private.socket.onmessage`. A handler that throws ends where it threw. -/
def onmessage (d : Device) (data : Text) : Device :=
  match readMessage data with
  | .error _ => d
  | .ok (wus, markers, waypoints) =>
      let d := { d with wu_list := wus, marker_list := markers, waypoint_list := waypoints }
      match updateMarkers places d.marker_list d.wu_list with
      -- the lists are replaced, and nothing is stored
      | .error _ => d
      | .ok () =>
          { d with storage := { wu_list := some (stored d.wu_list),
                                marker_list := some (stored d.marker_list),
                                waypoint_list := some (stored d.waypoint_list) } }

/-- An event button's `onClick`; `latlng` is `none` while the app knows no position at all. -/
def onClick (d : Device) (latlng : Option LatLng) (type : String) (id : EventId)
    (timestamp : JsonNumber) : Device :=
  match latlng with
  | none => d
  | some latlng =>
      let event := newEvent latlng type id timestamp
      match drawEvent places event with
      | .error _ => d
      | .ok () =>
          match d.marker_list with
          | .arr es =>
              let marker_list := .arr (es ++ [event])
              { d with marker_list := marker_list,
                       storage := { d.storage with marker_list := some (stored marker_list) } }
          -- only an array has a `push`
          | _ => d

/-- `deleteEvent`, up to the map; `same i` says whether the `i`-th id is the very object `ident`. -/
def deleteEvent (d : Device) (ident : Value) (same : Nat → Bool) : Device :=
  match d.marker_list with
  | .arr es =>
      match findIndex (fun i el => do looseEq toNumber (same i) (← el.get "id") ident) es 0 with
      | .error _ => d
      | .ok index =>
          let marker_list := .arr (splice es index)
          { d with marker_list := marker_list,
                   storage := { d.storage with marker_list := some (stored marker_list) } }
  -- only an array has a `findIndex`
  | _ => d

inductive Event where
  | create (latlng : Option LatLng) (type : String) (id : EventId) (timestamp : JsonNumber)
  | confirm (ident : Value) (same : Nat → Bool)
  | message (data : Text)

def handle (d : Device) : Event → Device
  | .create latlng type id timestamp => onClick places d latlng type id timestamp
  | .confirm ident same => deleteEvent toNumber d ident same
  | .message data => onmessage places d data

/-- There is a button for every type of event. -/
def Enabled : Event → Prop
  | .create _ type _ _ => type ∈ event_types.map Prod.fst
  | _ => True

def Step (d : Device) (e : Event) (d' : Device) : Prop :=
  Enabled e ∧ d' = handle places toNumber d e

end

/-- **What a restart owes**: it reads back what the app holds. -/
def Restored (d : Device) : Prop :=
  restore d.storage = .ok (d.marker_list, d.wu_list, d.waypoint_list)

/-- The value comes back as it is, and counts as a list. -/
structure Restorable (v : Value) : Prop where
  stable : v.toJSON = some v
  truthy : v.truthy = true
  length : (v.prop "length").printable = true

/-- A message whose three properties can be drawn, stored and read back. -/
structure Storable (places : Value → Bool) (database : Value) : Prop where
  markers : Restorable (database.prop "markers")
  wus : Restorable (database.prop "wus")
  waypoints : (database.prop "waypoints").toJSON = some (database.prop "waypoints")
  drawable : ∀ m ∈ (database.prop "markers").values, Drawable places m
  placeable : ∀ w ∈ (database.prop "wus").values, Placeable places w

/-- The messages that keep memory and storage together; no other step can part them. -/
def Orderly (places : Value → Bool) (_ : Device) : Event → Prop
  | .message (.json database) => database.isNullish = true ∨ Storable places database
  | _ => True

/-- Everything in storage was written by the app. -/
structure Items.Written (s : Items) : Prop where
  marker_list : ∀ t, s.marker_list = some t → ∃ v, t = stored v
  wu_list : ∀ t, s.wu_list = some t → ∃ v, t = stored v
  waypoint_list : ∀ t, s.waypoint_list = some t → ∃ v, t = stored v

/-! ## Writing a value and reading it back -/

theorem stored_ne {v : Value} (h : v ≠ .undefined) : stored v = .json v.elemJSON := by
  cases v with
  | undefined => exact absurd rfl h
  | _ => rfl

theorem ne_undefined_of_stable {v : Value} (h : v.toJSON = some v) : v ≠ .undefined := by
  rintro rfl
  cases h

theorem elemJSON_of_stable {v : Value} (h : v.toJSON = some v) : v.elemJSON = v := by
  rw [Value.elemJSON, h]
  rfl

theorem getItem_stored_iff {v : Value} :
    getItem (some (stored v)) = .ok v ↔ v.toJSON = some v := by
  constructor
  · intro h
    cases v with
    | undefined => cases h
    | _ =>
        -- what is read is the value after a round trip, which a second one does not change
        have he := Except.ok.inj h
        exact he ▸ Value.toJSON_elemJSON _
  · intro h
    show JSON.parse (stored v) = .ok v
    rw [stored_ne (ne_undefined_of_stable h), elemJSON_of_stable h]
    rfl

/-- What is read from storage is stable. -/
theorem stable_of_getItem {t : Option Text} {v : Value} (ht : ∀ s, t = some s → ∃ w, s = stored w)
    (h : getItem t = .ok v) : v.toJSON = some v := by
  cases t with
  | none =>
      obtain rfl := Except.ok.inj h
      rfl
  | some s =>
      obtain ⟨w, rfl⟩ := ht s rfl
      cases w with
      | undefined => cases h
      | _ =>
          have he := Except.ok.inj h
          exact he ▸ Value.toJSON_elemJSON _

/-- A list that is read is printed, or it is the empty one. -/
theorem loadList_ok_iff {t : Option Text} {v : Value} :
    loadList t = .ok v ↔
      ∃ w, getItem t = .ok w
        ∧ (w.truthy = true ∧ (w.prop "length").printable = true ∧ v = w
          ∨ w.truthy = false ∧ v = .arr []) := by
  rw [loadList, bind_ok_iff]
  refine exists_congr ?_
  intro w
  refine and_congr_right ?_
  intro _
  cases hw : w.truthy with
  | true =>
      rw [if_pos rfl, bind_ok_iff]
      constructor
      · rintro ⟨n, hn, hv⟩
        obtain ⟨_, hlen⟩ := printLength_ok_iff.mp hn
        refine Or.inl ⟨rfl, ?_, (Except.ok.inj hv).symm⟩
        rw [Value.printable, hlen]
        rfl
      · rintro (⟨_, hlen, rfl⟩ | ⟨hf, _⟩)
        · obtain ⟨n, hn⟩ := Option.isSome_iff_exists.mp hlen
          exact ⟨n, printLength_ok_iff.mpr ⟨Value.not_nullish_of_truthy hw, hn⟩, rfl⟩
        · cases hf
  | false =>
      rw [if_neg (by decide)]
      constructor
      · intro hv
        exact Or.inr ⟨rfl, (Except.ok.inj hv).symm⟩
      · rintro (⟨hf, _⟩ | ⟨_, rfl⟩)
        · cases hf
        · rfl

/-- **A list survives** being stored and loaded exactly if it is restorable. -/
theorem loadList_stored_iff {v : Value} :
    loadList (some (stored v)) = .ok v ↔ Restorable v := by
  rw [loadList_ok_iff]
  constructor
  · rintro ⟨w, hw, ⟨ht, hlen, rfl⟩ | ⟨hf, rfl⟩⟩
    · exact ⟨getItem_stored_iff.mp hw, ht, hlen⟩
    · -- an empty array is read as an empty array, which counts as true
      obtain rfl := Except.ok.inj hw
      cases hf
  · intro h
    exact ⟨v, getItem_stored_iff.mpr h.stable, Or.inl ⟨h.truthy, h.length, rfl⟩⟩

theorem restore_ok_iff {s : Items} {m w p : Value} :
    restore s = .ok (m, w, p) ↔ loadList s.marker_list = .ok m ∧ loadList s.wu_list = .ok w
      ∧ getItem s.waypoint_list = .ok p := by
  constructor
  · intro h
    obtain ⟨m', hm, h⟩ := bind_ok_iff.mp h
    obtain ⟨w', hw, h⟩ := bind_ok_iff.mp h
    obtain ⟨p', hp, h⟩ := bind_ok_iff.mp h
    cases Except.ok.inj h
    exact ⟨hm, hw, hp⟩
  · rintro ⟨hm, hw, hp⟩
    exact bind_ok_iff.mpr ⟨m, hm, bind_ok_iff.mpr ⟨w, hw, bind_ok_iff.mpr ⟨p, hp, rfl⟩⟩⟩

theorem stable_arr_iff {es : List Value} :
    (Value.arr es).toJSON = some (.arr es) ↔ ∀ e ∈ es, e.toJSON = some e := by
  rw [Value.toJSON, Option.some.injEq, Value.arr.injEq]
  constructor
  · intro h e he
    refine Value.elemsJSON_stable es e ?_
    rw [h]
    exact he
  · exact Value.elemsJSON_of_stable

theorem restorable_arr {es : List Value} (h : ∀ e ∈ es, e.toJSON = some e) :
    Restorable (.arr es) :=
  ⟨stable_arr_iff.mpr h, rfl, rfl⟩

theorem newEvent_stable (latlng : LatLng) (type : String) (id : EventId)
    (timestamp : JsonNumber) :
    (newEvent latlng type id timestamp).toJSON = some (newEvent latlng type id timestamp) := by
  simp [newEvent, Value.toJSON, Value.propsJSON, latlng.lat.2, latlng.lng.2, timestamp.2]

/-! ## What a step does -/

/-- The invariant of every run that has kept the two together. -/
structure Sound (places : Value → Bool) (d : Device) : Prop where
  /-- The markers come back as they are. -/
  stable : d.marker_list.toJSON = some d.marker_list
  /-- What is in memory has been drawn. -/
  drawable : ∀ m ∈ d.marker_list.values, Drawable places m
  placeable : ∀ w ∈ d.wu_list.values, Placeable places w

/-- **Everything a step can do** to the lists and the storage. -/
inductive Effect (places : Value → Bool) (d : Device) : Event → Device → Prop where
  | quiet {e : Event} : Orderly places d e → Effect places d e d
  | created {latlng : Option LatLng} {type : String} {id : EventId} {timestamp : JsonNumber}
      {es : List Value} {event : Value} : d.marker_list = .arr es → event.toJSON = some event →
      Drawable places event →
      Effect places d (.create latlng type id timestamp)
        { d with marker_list := .arr (es ++ [event]),
                 storage := { d.storage with
                   marker_list := some (stored (.arr (es ++ [event]))) } }
  | deleted {ident : Value} {same : Nat → Bool} {es : List Value} {index : Int} :
      d.marker_list = .arr es →
      Effect places d (.confirm ident same)
        { d with marker_list := .arr (splice es index),
                 storage := { d.storage with
                   marker_list := some (stored (.arr (splice es index))) } }
  | undrawn {database : Value} : database.isNullish = false →
      updateMarkers places (database.prop "markers") (database.prop "wus") ≠ .ok () →
      Effect places d (.message (.json database))
        { d with wu_list := database.prop "wus", marker_list := database.prop "markers",
                 waypoint_list := database.prop "waypoints" }
  | replied {database : Value} : database.isNullish = false →
      updateMarkers places (database.prop "markers") (database.prop "wus") = .ok () →
      Effect places d (.message (.json database))
        { wu_list := database.prop "wus", marker_list := database.prop "markers",
          waypoint_list := database.prop "waypoints",
          storage := { wu_list := some (stored (database.prop "wus")),
                       marker_list := some (stored (database.prop "markers")),
                       waypoint_list := some (stored (database.prop "waypoints")) } }

theorem readMessage_ok_iff {data : Text} {wus markers waypoints : Value} :
    readMessage data = .ok (wus, markers, waypoints)
      ↔ ∃ database, data = .json database ∧ database.isNullish = false
        ∧ wus = database.prop "wus" ∧ markers = database.prop "markers"
        ∧ waypoints = database.prop "waypoints" := by
  constructor
  · intro h
    obtain ⟨database, hparse, h⟩ := bind_ok_iff.mp h
    obtain ⟨_, hw, h⟩ := bind_ok_iff.mp h
    obtain ⟨_, hm, h⟩ := bind_ok_iff.mp h
    obtain ⟨_, hp, h⟩ := bind_ok_iff.mp h
    cases Except.ok.inj h
    obtain ⟨hn, hw⟩ := Value.get_ok_iff.mp hw
    refine ⟨database, ?_, hn, hw.symm, (Value.get_ok_iff.mp hm).2.symm,
      (Value.get_ok_iff.mp hp).2.symm⟩
    cases data with
    | malformed => cases hparse
    | json v => rw [Except.ok.inj hparse]
  · rintro ⟨database, rfl, hn, rfl, rfl, rfl⟩
    have hread := Value.get_eq hn
    exact bind_ok_iff.mpr ⟨database, rfl, bind_ok_iff.mpr ⟨_, hread _, bind_ok_iff.mpr ⟨_, hread _,
      bind_ok_iff.mpr ⟨_, hread _, rfl⟩⟩⟩⟩

theorem onmessage_effect (places : Value → Bool) (d : Device) (data : Text) :
    Effect places d (.message data) (onmessage places d data) := by
  unfold onmessage
  cases hr : readMessage data with
  | error e =>
      -- no text of a database, or none of one that has properties
      refine .quiet ?_
      cases data with
      | malformed => trivial
      | json database =>
          refine Or.inl ?_
          by_contra hn
          rw [readMessage_ok_iff.mpr ⟨database, rfl, by simpa using hn, rfl, rfl, rfl⟩] at hr
          cases hr
  | ok r =>
      obtain ⟨wus, markers, waypoints⟩ := r
      obtain ⟨database, rfl, hn, rfl, rfl, rfl⟩ := readMessage_ok_iff.mp hr
      dsimp only
      cases hu : updateMarkers places (database.prop "markers") (database.prop "wus") with
      | error e =>
          refine .undrawn hn ?_
          rw [hu]
          rintro ⟨⟩
      | ok u => exact .replied hn hu

theorem onClick_effect (places : Value → Bool) (d : Device) (latlng : Option LatLng)
    (type : String) (id : EventId) (timestamp : JsonNumber) :
    Effect places d (.create latlng type id timestamp)
      (onClick places d latlng type id timestamp) := by
  unfold onClick
  cases latlng with
  | none => exact .quiet trivial
  | some latlng =>
      dsimp only
      cases hd : drawEvent places (newEvent latlng type id timestamp) with
      | error e => exact .quiet trivial
      | ok u =>
          cases hl : d.marker_list with
          | arr es => exact .created hl (newEvent_stable _ _ _ _) (drawEvent_ok_iff.mp hd)
          | _ => exact .quiet trivial

theorem deleteEvent_effect (places : Value → Bool) (toNumber : String → Number) (d : Device)
    (ident : Value) (same : Nat → Bool) :
    Effect places d (.confirm ident same) (deleteEvent toNumber d ident same) := by
  unfold deleteEvent
  cases hl : d.marker_list with
  | arr es =>
      dsimp only
      split
      · exact .quiet trivial
      · exact .deleted hl
  | _ => exact .quiet trivial

theorem step_effect {places : Value → Bool} {toNumber : String → Number} {d d' : Device}
    {e : Event} (h : Step places toNumber d e d') : Effect places d e d' := by
  obtain ⟨_, rfl⟩ := h
  cases e with
  | create latlng type id timestamp => exact onClick_effect places d latlng type id timestamp
  | confirm ident same => exact deleteEvent_effect places toNumber d ident same
  | message data => exact onmessage_effect places d data

/-! ## Runs -/

theorem step_deterministic (places : Value → Bool) (toNumber : String → Number) (d : Device)
    (e : Event) (d₁ d₂ : Device) (h₁ : Step places toNumber d e d₁)
    (h₂ : Step places toNumber d e d₂) : d₁ = d₂ := by
  rw [h₁.2, h₂.2]

/-- An array that replaces the markers in memory and storage leaves a restart in order. -/
theorem restored_arr {d : Device} {es : List Value} (h : Restored d)
    (hes : ∀ e ∈ es, e.toJSON = some e) :
    Restored { d with marker_list := .arr es,
                      storage := { d.storage with
                        marker_list := some (stored (.arr es)) } } := by
  obtain ⟨_, hw, hp⟩ := restore_ok_iff.mp h
  exact restore_ok_iff.mpr ⟨loadList_stored_iff.mpr (restorable_arr hes), hw, hp⟩

theorem sound_arr {places : Value → Bool} {d : Device} {es : List Value} (h : Sound places d)
    (hes : ∀ e ∈ es, e.toJSON = some e ∧ Drawable places e) {storage : Items} :
    Sound places { d with marker_list := .arr es, storage := storage } where
  stable := stable_arr_iff.mpr (fun e he => (hes e he).1)
  drawable := by
    intro m hm
    rw [Value.values_arr] at hm
    exact (hes m hm).2
  placeable := h.placeable

/-- The elements of an array in memory are stable and can be drawn. -/
theorem Sound.elements {places : Value → Bool} {d : Device} (h : Sound places d)
    {es : List Value} (hl : d.marker_list = .arr es) :
    ∀ e ∈ es, e.toJSON = some e ∧ Drawable places e := by
  intro e he
  refine ⟨stable_arr_iff.mp (hl ▸ h.stable) e he, h.drawable e ?_⟩
  rw [hl, Value.values_arr]
  exact he

/-- **What a step needs** to keep memory and storage together. -/
theorem restored_step {places : Value → Bool} {toNumber : String → Number} {d d' : Device}
    {e : Event} (hs : Sound places d) (h : Restored d) (hst : Step places toNumber d e d') :
    Restored d' ↔ Orderly places d e := by
  cases step_effect hst with
  | quiet ho => exact iff_of_true h ho
  | created hl hstable hdraw =>
      refine iff_of_true (restored_arr h ?_) trivial
      exact Places.forall_mem_concat (fun e he => (hs.elements hl e he).1) hstable
  | deleted hl =>
      refine iff_of_true (restored_arr h ?_) trivial
      intro e he
      exact (hs.elements hl e (Sync.splice_subset _ _ he)).1
  | @undrawn database hn hu =>
      -- what is read back is still the old lists, and those could be drawn
      constructor
      · intro h'
        have hsame := (Except.ok.inj (h'.symm.trans h) : _)
        simp only [Prod.mk.injEq] at hsame
        obtain ⟨hm, hw, _⟩ := hsame
        refine absurd (updateMarkers_ok_iff.mpr ⟨?_, ?_⟩) hu
        · rw [hm]
          exact hs.drawable
        · rw [hw]
          exact hs.placeable
      · rintro (hnull | hstor)
        · rw [hn] at hnull
          cases hnull
        · exact absurd (updateMarkers_ok_iff.mpr ⟨hstor.drawable, hstor.placeable⟩) hu
  | @replied database hn hu =>
      obtain ⟨hdraw, hplace⟩ := updateMarkers_ok_iff.mp hu
      constructor
      · intro h'
        obtain ⟨hm, hw, hp⟩ := restore_ok_iff.mp h'
        exact Or.inr ⟨loadList_stored_iff.mp hm, loadList_stored_iff.mp hw,
          getItem_stored_iff.mp hp, hdraw, hplace⟩
      · rintro (hnull | hstor)
        · rw [hn] at hnull
          cases hnull
        · exact restore_ok_iff.mpr ⟨loadList_stored_iff.mpr hstor.markers,
            loadList_stored_iff.mpr hstor.wus, getItem_stored_iff.mpr hstor.waypoints⟩

theorem sound_step {places : Value → Bool} {toNumber : String → Number} {d d' : Device}
    {e : Event} (hs : Sound places d) (ho : Orderly places d e)
    (hst : Step places toNumber d e d') : Sound places d' := by
  cases step_effect hst with
  | quiet _ => exact hs
  | created hl hstable hdraw =>
      exact sound_arr hs (Places.forall_mem_concat (hs.elements hl) ⟨hstable, hdraw⟩)
  | deleted hl =>
      refine sound_arr hs ?_
      intro e he
      exact hs.elements hl e (Sync.splice_subset _ _ he)
  | undrawn hn hu =>
      rcases ho with hnull | hstor
      · rw [hn] at hnull
        cases hnull
      · exact absurd (updateMarkers_ok_iff.mpr ⟨hstor.drawable, hstor.placeable⟩) hu
  | replied hn hu =>
      rcases ho with hnull | hstor
      · rw [hn] at hnull
        cases hnull
      · exact ⟨hstor.markers.stable, hstor.drawable, hstor.placeable⟩

/-- **After the initialisation** memory and storage agree, and what was read was drawn. -/
theorem initialise_spec {places : Value → Bool} {s : Items} {d : Device} (hw : s.Written)
    (h : initialise places s = .ok d) : Sound places d ∧ Restored d := by
  obtain ⟨m, hm, h⟩ := bind_ok_iff.mp h
  obtain ⟨w, hwu, h⟩ := bind_ok_iff.mp h
  obtain ⟨⟨⟩, hu, h⟩ := bind_ok_iff.mp h
  obtain ⟨p, hp, h⟩ := bind_ok_iff.mp h
  obtain rfl := Except.ok.inj h
  obtain ⟨hdraw, hplace⟩ := updateMarkers_ok_iff.mp hu
  have hstable : m.toJSON = some m := by
    obtain ⟨v, hv, ⟨_, _, rfl⟩ | ⟨_, rfl⟩⟩ := loadList_ok_iff.mp hm
    · exact stable_of_getItem hw.marker_list hv
    · rfl
  exact ⟨⟨hstable, hdraw, hplace⟩, restore_ok_iff.mpr ⟨hm, hwu, hp⟩⟩

/--
**A restart restores what the app had** in the runs whose replies are storable, are
`null`, or are no JSON at all.
-/
theorem restored_iff {places : Value → Bool} {toNumber : String → Number} {s : Items}
    (hw : s.Written) {d₀ d : Device} (h0 : initialise places s = .ok d₀) {es : List Event}
    (h : Lts.Run (Step places toNumber) d₀ es d) :
    Lts.Always (Step places toNumber) Restored d₀ es
      ↔ Lts.Run (Lts.Guarded (Step places toNumber) (Orderly places)) d₀ es d :=
  Lts.always_iff_guarded (I := Sound places) (step_deterministic places toNumber)
    (fun hs _ ho hst => sound_step hs ho hst) restored_step h (initialise_spec hw h0).1
    (initialise_spec hw h0).2

/-! ## A first start -/

/-- What Leaflet places, of plain objects. -/
def hasLatLng (v : Value) : Bool := (v.own "lat").isSome && (v.own "lng").isSome

/-- Nothing stored, nothing in memory. -/
def firstStart : Device where
  marker_list := .arr []
  wu_list := .arr []
  waypoint_list := .null
  storage := {}

theorem written_nothing : Items.Written {} where
  marker_list := by rintro t ⟨⟩
  wu_list := by rintro t ⟨⟩
  waypoint_list := by rintro t ⟨⟩

/-- The user reports an event and takes it back; in between comes a text that is no JSON. -/
def reportAndDelete : List Event :=
  [.create (some ⟨⟨⟨"-38.68"⟩, rfl⟩, ⟨⟨"-62.25"⟩, rfl⟩⟩) "fire" Readme.idA ⟨⟨"1579123393000"⟩, rfl⟩,
    .message .malformed, .confirm (.str Readme.idA.text) fun _ => false]

theorem restored_iff_of_reportAndDelete :
    Lts.Always (Step hasLatLng Number.mk) Restored firstStart reportAndDelete
      ↔ Lts.Run (Lts.Guarded (Step hasLatLng Number.mk) (Orderly hasLatLng)) firstStart
        reportAndDelete (reportAndDelete.foldl (handle hasLatLng Number.mk) firstStart) :=
  restored_iff written_nothing rfl
    (.cons ⟨(by decide : "fire" ∈ event_types.map Prod.fst), rfl⟩
      (.cons ⟨trivial, rfl⟩ (.cons ⟨trivial, rfl⟩ .nil)))

/-- A reply without waypoints: what a Witness Unit answers that was set up without any. -/
def noWaypoints : Text := .json (.obj [("wus", .arr []), ("markers", .arr [])])

/--
**The code does not keep this**: the reply is drawn and stored, `undefined` with it,
and the next start cannot parse what it finds.
-/
theorem noWaypoints_breaks_restart :
    initialise hasLatLng {} = .ok firstStart
      ∧ Lts.Run (Step hasLatLng Number.mk) firstStart [.message noWaypoints]
        (onmessage hasLatLng firstStart noWaypoints)
      ∧ restore (onmessage hasLatLng firstStart noWaypoints).storage = .error .syntaxError
      ∧ ¬ Restored (onmessage hasLatLng firstStart noWaypoints) := by
  have hthrow : restore (onmessage hasLatLng firstStart noWaypoints).storage
      = .error .syntaxError := rfl
  refine ⟨rfl, .cons ⟨trivial, rfl⟩ .nil, hthrow, ?_⟩
  intro h
  rw [Restored, hthrow] at h
  cases h

end EssApp.Storage
