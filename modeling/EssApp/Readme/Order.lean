import EssApp.Readme.Server

/-!
# The order in which phones reach a unit

Several phones sync with one unit, each sends its database once. A merge keeps what
the unit has, so of several copies of an event the first that arrives decides the
flags. `validated` is set on the way in, but `reported` is taken as it comes, and a
later copy that says the event was reported by some unit is passed by.

So the order shows in the file exactly if two phones disagree about a flag the unit
has no opinion on.
-/

namespace EssApp.Readme

/-- `cl.on('message')` for one database after the other. -/
def receive (s : Server) (clients : List Database) : Server :=
  clients.foldl (fun s remote_db => (onClientMessage s remote_db).2) s

/-- All markers the phones bring, in the order of their arrival. -/
def brought (clients : List Database) : List Marker := clients.flatMap Database.markers

/-- Two copies of one event: they differ at most in their flags. -/
structure Copies (m m' : Marker) : Prop where
  latlng : m.latlng = m'.latlng
  type : m.type = m'.type
  timestamp : m.timestamp = m'.timestamp

instance (m m' : Marker) : Decidable (Copies m m') :=
  decidable_of_iff (m.latlng = m'.latlng ∧ m.type = m'.type ∧ m.timestamp = m'.timestamp)
    ⟨fun ⟨hl, ht, hs⟩ => ⟨hl, ht, hs⟩, fun h => ⟨h.latlng, h.type, h.timestamp⟩⟩

/-- Every database lists an event once, and the events of one id are copies of each other. -/
structure Consistent (db : Database) (clients : List Database) : Prop where
  localIds : (ids db.markers).Nodup
  clientIds : ∀ remote_db ∈ clients, (ids remote_db.markers).Nodup
  copies : ∀ m ∈ db.markers ++ brought clients, ∀ m' ∈ db.markers ++ brought clients,
    m.id = m'.id → Copies m m'

/-- In every order of arrival the file ends up with the same markers and flags. -/
def OrderFree (s : Server) (clients : List Database) : Prop :=
  ∀ clients' : List Database, clients'.Perm clients →
    ∀ m, m ∈ (receive s clients').database.markers ↔ m ∈ (receive s clients).database.markers

/-- `receive` is the run of the server that handles these messages and nothing else. -/
theorem run_receive (s : Server) (clients : List Database) :
    Lts.Run Step s (clients.map .clientMessage) (receive s clients) := by
  induction clients generalizing s with
  | nil => exact .nil
  | cons remote_db clients ih => exact .cons ⟨trivial, rfl⟩ (ih _)

/-- **All messages, as one merge**: what they bring is absorbed as one list. -/
theorem markers_receive {s : Server} (hn : (ids s.database.markers).Nodup)
    (clients : List Database) :
    (receive s clients).database.markers
      = Keyed.absorb Marker.id Marker.validate s.database.markers (brought clients) := by
  induction clients generalizing s with
  | nil => rfl
  | cons remote_db clients ih =>
      have hfirst : (onClientMessage s remote_db).2.database.markers
          = Keyed.absorb Marker.id Marker.validate s.database.markers remote_db.markers := by
        show (mergeDatabases s.database remote_db).markers = _
        rw [markers_mergeDatabases, collapsed, Keyed.collapse_of_nodup hn]
      rw [receive, List.foldl_cons]
      show (receive (onClientMessage s remote_db).2 clients).database.markers = _
      rw [ih (nodup_merge _ _), hfirst, ← Keyed.absorb_append]
      rfl

/-- Copies enter alike exactly if they agree about `reported`. -/
theorem Copies.validate_eq_iff {m m' : Marker} (h : Copies m m') (hid : m.id = m'.id) :
    m.validate = m'.validate ↔ m.reported = m'.reported := by
  constructor
  · intro he
    have hr := congrArg Marker.reported he
    exact hr
  · intro hr
    rw [Marker.validate, Marker.validate, Marker.mk.injEq]
    exact ⟨h.latlng, h.type, rfl, hr, hid, h.timestamp⟩

/--
**When the order does not matter.** For every unit and every list of phones whose
databases are consistent, the file ends up with the same markers and the same flags
in every order of arrival exactly if any two phones' copies of an event that the
unit does not hold agree about `reported`.
-/
theorem orderFree_iff {s : Server} {clients : List Database}
    (h : Consistent s.database clients) :
    OrderFree s clients
      ↔ ∀ m ∈ brought clients, ∀ m' ∈ brought clients, m.id = m'.id →
        m.id ∉ ids s.database.markers → m.reported = m'.reported := by
  have horder : OrderFree s clients
      ↔ ∀ clients' : List Database, clients'.Perm clients → ∀ m,
        m ∈ Keyed.absorb Marker.id Marker.validate s.database.markers (brought clients')
          ↔ m ∈ Keyed.absorb Marker.id Marker.validate s.database.markers (brought clients) := by
    simp only [OrderFree, markers_receive h.localIds]
  rw [horder]
  refine (Keyed.absorb_perm_iff Marker.validate_id h.localIds h.clientIds).trans ?_
  have hcopies : ∀ m ∈ brought clients, ∀ m' ∈ brought clients, m.id = m'.id →
      (m.validate = m'.validate ↔ m.reported = m'.reported) := by
    intro m hm m' hm' hid
    have hc := h.copies m (List.mem_append_right _ hm) m' (List.mem_append_right _ hm') hid
    exact hc.validate_eq_iff hid
  constructor
  · intro halike m hm m' hm' hid hnew
    exact (hcopies m hm m' hm' hid).mp (halike m hm m' hm' hid hnew)
  · intro hagree m hm m' hm' hid hnew
    exact (hcopies m hm m' hm' hid).mpr (hagree m hm m' hm' hid hnew)

/-- What the unit holds already, the phones may disagree about. -/
theorem orderFree_of_known :
    OrderFree (boot (readmeDatabase [readmeEvent idA]))
      [readmeDatabase [(readmeEvent idA).report],
       readmeDatabase [readmeEvent idA, readmeEvent idB]] :=
  (orderFree_iff ⟨by decide, by decide, by decide⟩).mpr (by decide)

/-- The phone that made an event, and one that had it back from a unit that reported it. -/
def phones : List Database :=
  [readmeDatabase [readmeEvent idA], readmeDatabase [(readmeEvent idA).report]]

/--
Another unit takes the event for reported or for unreported, depending on which of
the two phones comes first.
-/
theorem first_phone_decides :
    ¬ ∀ (s : Server) (clients : List Database), Consistent s.database clients →
      OrderFree s clients := by
  intro h
  have hfree : OrderFree (boot (readmeDatabase [])) phones :=
    h _ _ ⟨by decide, by decide, by decide⟩
  have hlate : (readmeEvent idA).report ∈
      (receive (boot (readmeDatabase [])) phones.reverse).database.markers := by decide
  -- in the first order the unreported copy has taken the id
  have hearly := (hfree phones.reverse (List.reverse_perm phones) _).mp hlate
  exact absurd hearly (by decide)

end EssApp.Readme
