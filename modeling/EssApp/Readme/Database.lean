import EssApp.Js.Value
import EssApp.Lib.Keyed

/-!
# Databases in the README's format

What the server and the app pass around when nobody sends them anything else: the
three lists of the README, every event under an id that `generateID` drew. An
`EventId` carries the proof of its form, a `JsonNumber` the proof that JSON has a
notation for it, so on this level there is no payload left to go wrong and no
exception to model.

`mergeDatabases` is the server's, loop by loop. What it does to the marker lists is
`Keyed.absorb` on `Keyed.collapse`, and from there on the general lemmas apply.
-/

namespace EssApp.Readme

/-- The digits of `Number.prototype.toString(36)`. -/
def isBase36 (c : Char) : Bool := c.isDigit || c.isLower

/-- What `generateID` returns: an underscore and some digits. -/
structure EventId where
  text : String
  /-- The form, as it can be checked. -/
  form : text.toList.head? = some '_' ∧ text.toList.tail.all isBase36 = true
  deriving DecidableEq

/-- `generateID`, for the digits `Math.random()` shows after the point. -/
def generateID (digits : List { c : Char // isBase36 c = true }) : EventId where
  text := String.ofList ('_' :: (digits.take 20).map Subtype.val)
  form := by
    rw [String.toList_ofList]
    refine ⟨rfl, ?_⟩
    rw [List.tail_cons, List.all_map, List.all_eq_true]
    exact fun d _ => d.2

/-- A number that JSON can write. -/
abbrev JsonNumber := { n : Js.Number // n.finite = true }

structure LatLng where
  lat : JsonNumber
  lng : JsonNumber
  deriving DecidableEq

/-- A Witness Unit, as the databases list it. -/
structure Wu where
  latlng : LatLng
  id : String
  status : String
  deriving DecidableEq

/-- An event. -/
structure Marker where
  latlng : LatLng
  type : String
  validated : Bool
  reported : Bool
  id : EventId
  timestamp : JsonNumber
  deriving DecidableEq

/-- `waypoints` is `null` in what an app sends before it has had its first reply. -/
@[ext] structure Database where
  wus : List Wu
  markers : List Marker
  waypoints : Option (List LatLng)
  deriving DecidableEq

/-- `m.validated = true`. -/
def Marker.validate (m : Marker) : Marker := { m with validated := true }

/-- `m.reported = true`. -/
def Marker.report (m : Marker) : Marker := { m with reported := true }

@[simp] theorem Marker.validate_id (m : Marker) : m.validate.id = m.id := rfl

/-- The ids of a list of events, in order. -/
def ids (ms : List Marker) : List EventId := ms.map Marker.id

theorem mem_ids {ms : List Marker} {id : EventId} : id ∈ ids ms ↔ ∃ m ∈ ms, m.id = id :=
  List.mem_map

theorem mem_ids_of_mem {ms : List Marker} {m : Marker} (h : m ∈ ms) : m.id ∈ ids ms :=
  List.mem_map_of_mem h

/-! ## The merge -/

/-- First loop: `newMarkerList[m.id] = m`. -/
def addLocal (newMarkerList : List (EventId × Marker)) (m : Marker) : List (EventId × Marker) :=
  Table.set newMarkerList m.id m

/-- Second loop: add `m`, validated, if its id is not there. -/
def addRemote (newMarkerList : List (EventId × Marker)) (m : Marker) : List (EventId × Marker) :=
  if (Table.get newMarkerList m.id).isSome then newMarkerList
  else Table.set newMarkerList m.id m.validate

def mergeDatabases (local_db remote_db : Database) : Database :=
  let newMarkerList := local_db.markers.foldl addLocal []
  let newMarkerList := remote_db.markers.foldl addRemote newMarkerList
  { wus := local_db.wus, markers := newMarkerList.map Prod.snd, waypoints := local_db.waypoints }

/-- The markers a merge with `ms` starts from: of several with one id, the last. -/
def collapsed (ms : List Marker) : List Marker := Keyed.collapse Marker.id ms

/-- **The merge of the lists**: what is remote and new is appended, validated. -/
theorem markers_mergeDatabases (local_db remote_db : Database) :
    (mergeDatabases local_db remote_db).markers
      = Keyed.absorb Marker.id Marker.validate (collapsed local_db.markers) remote_db.markers := by
  show (List.foldl addRemote (List.foldl addLocal [] local_db.markers)
    remote_db.markers).map Prod.snd = _
  -- the first loop leaves the collapsed list in the table, the second absorbs into it
  rw [show List.foldl addLocal [] local_db.markers
      = Keyed.indexed Marker.id (collapsed local_db.markers) from Keyed.foldl_set _,
    show List.foldl addRemote (Keyed.indexed Marker.id (collapsed local_db.markers))
        remote_db.markers
      = Keyed.indexed Marker.id (Keyed.absorb Marker.id Marker.validate
        (collapsed local_db.markers) remote_db.markers) from
      Keyed.foldl_absorb Marker.validate_id _ _,
    Keyed.indexed_values]

/-- **Ids are united.** -/
theorem mem_ids_merge {local_db remote_db : Database} {id : EventId} :
    id ∈ ids (mergeDatabases local_db remote_db).markers
      ↔ id ∈ ids local_db.markers ∨ id ∈ ids remote_db.markers := by
  rw [markers_mergeDatabases, ids, Keyed.mem_keys_absorb Marker.validate_id, collapsed,
    Keyed.mem_keys_collapse]
  rfl

theorem nodup_merge (local_db remote_db : Database) :
    (ids (mergeDatabases local_db remote_db).markers).Nodup := by
  rw [markers_mergeDatabases]
  exact Keyed.nodup_absorb Marker.validate_id (Keyed.nodup_collapse _)

/-- **Every marker of a merge** is a local one, or a remote one that was new, validated. -/
theorem mem_merge {local_db remote_db : Database} {m : Marker}
    (h : m ∈ (mergeDatabases local_db remote_db).markers) :
    m ∈ local_db.markers
      ∨ ∃ r ∈ remote_db.markers, r.id ∉ ids local_db.markers ∧ m = r.validate := by
  rw [markers_mergeDatabases] at h
  rcases Keyed.mem_absorb h with h | ⟨r, hr, hn, rfl⟩
  · exact Or.inl (Keyed.mem_collapse h)
  · -- collapsing loses no id, so what is new to the table is new to the list
    exact Or.inr ⟨r, hr, fun hc => hn (Keyed.mem_keys_collapse.mpr hc), rfl⟩

/-- With distinct ids, every local marker survives as it is, in its place. -/
theorem prefix_merge {local_db : Database} (hn : (ids local_db.markers).Nodup)
    (remote_db : Database) :
    local_db.markers <+: (mergeDatabases local_db remote_db).markers := by
  rw [markers_mergeDatabases, collapsed, Keyed.collapse_of_nodup hn]
  exact Keyed.prefix_absorb _ _

/-- **Merging what is known changes nothing.** -/
theorem merge_of_known {local_db remote_db : Database} (hn : (ids local_db.markers).Nodup)
    (h : ∀ m ∈ remote_db.markers, m.id ∈ ids local_db.markers) :
    mergeDatabases local_db remote_db = local_db := by
  have hm : (mergeDatabases local_db remote_db).markers = local_db.markers := by
    rw [markers_mergeDatabases, collapsed, Keyed.collapse_of_nodup hn]
    exact Keyed.absorb_of_known h
  exact Database.ext rfl hm rfl

/-! ## Data to compute with -/

/-- The event of the README's example, under a given id. -/
def readmeEvent (id : EventId) : Marker where
  latlng := ⟨⟨⟨"-38.689217299999996"⟩, rfl⟩, ⟨⟨"-62.2506036"⟩, rfl⟩⟩
  type := "fire"
  validated := true
  reported := false
  id := id
  timestamp := ⟨⟨"1579123392000"⟩, rfl⟩

/-- The README's example, with given markers. -/
def readmeDatabase (markers : List Marker) : Database where
  wus := [⟨⟨⟨⟨"-38.6842173"⟩, rfl⟩, ⟨⟨"-62.2406036"⟩, rfl⟩⟩, "wu_0", "up"⟩]
  markers := markers
  waypoints := some [⟨⟨⟨"-38.6992173"⟩, rfl⟩, ⟨⟨"-62.2626036"⟩, rfl⟩⟩]

def idA : EventId := ⟨"_sw8c8d9umph", by decide⟩

def idB : EventId := ⟨"_uwovk0ubv1", by decide⟩

theorem idA_ne_idB : idA ≠ idB := by decide

example : ids (mergeDatabases (readmeDatabase [readmeEvent idA])
    (readmeDatabase [readmeEvent idB, readmeEvent idA])).markers = [idA, idB] := by decide

end EssApp.Readme
