import EssApp.Readme.Refine

/-!
# What a merge returns

The server's merge on any two databases whose markers carry ids of the form
`generateID` returns, whatever else these markers hold. The result is given whole:
the local markers as they are, and behind them, for each id that is new, the first
remote marker that has it, with `validated` set.

Such an id is no array index, so the lookup object lists its properties in the order
they were set, and it is no name the object answers for by itself. So the object is,
at every step of the two loops, the table of the markers filed so far
(`addLocal_table`, `addRemote_table`), and `Keyed.absorb_eq` says what that comes to.
-/

namespace EssApp.Readme

open Js
open WebSocketServer (HasId hasId_set)

/-- A marker with an id of the form `generateID` returns; whatever else it holds. -/
def Drawn (m : Value) : Prop := ∃ id : EventId, HasId m id.text

/-- The text of a marker's id. -/
def idText (m : Value) : String :=
  match m.own "id" with
  | some (.str s) => s
  | _ => ""

/-- `m.validated = true`. -/
def validated (m : Value) : Value := m.set "validated" (.bool true)

theorem idText_eq {m : Value} {X : String} (h : HasId m X) : idText m = X := by
  rw [idText, h]

theorem idText_validated (m : Value) : idText (validated m) = idText m := by
  rw [idText, idText, validated, Value.own_set_ne m _ (by decide)]

theorem Drawn.validated {m : Value} (h : Drawn m) : Drawn (validated m) := by
  obtain ⟨id, hid⟩ := h
  exact ⟨id, (hasId_set (by decide)).mpr hid⟩

/-- Every field but one is as it was. -/
theorem own_validated {m : Value} (h : Drawn m) :
    (validated m).own "validated" = some (.bool true)
      ∧ ∀ k, k ≠ "validated" → (validated m).own k = m.own k := by
  obtain ⟨id, hid⟩ := h
  obtain ⟨ps, rfl⟩ := hid.obj
  refine ⟨?_, fun k hk => Value.own_set_ne _ _ hk⟩
  rw [validated, Value.own_set_obj, if_pos rfl]

/-- The lookup object that files `ms`, each under its own id. -/
def table (ms : List Value) : PlainObject := { own := Keyed.indexed idText ms }

theorem putProp_indexed {ms : List Value} {m : Value} {id : EventId} (hid : HasId m id.text)
    (hnew : idText m ∉ ms.map idText) :
    putProp (Keyed.indexed idText ms) id.text m = Keyed.indexed idText (ms ++ [m]) := by
  rw [putProp_eq_set id.arrayIndex?, ← idText_eq hid, Keyed.set_indexed_new hnew]

/-- **First loop**: a marker with a new id goes to the end. -/
theorem addLocal_table {ms : List Value} {m : Value} (hm : Drawn m)
    (hnew : idText m ∉ ms.map idText) :
    WebSocketServer.addLocal (table ms) m = .ok (table (ms ++ [m])) := by
  obtain ⟨id, hid⟩ := hm
  refine bind_ok_iff.mpr ⟨id.text, hid.markerKey, ?_⟩
  rw [PlainObject.assign_of_ne id.ne_proto]
  show Except.ok { own := putProp (Keyed.indexed idText ms) id.text m : PlainObject } = _
  rw [putProp_indexed hid hnew]
  rfl

/-- The lookup answers for an id exactly if a marker is filed under it. -/
theorem truthy_table {ms : List Value} (hms : ∀ m ∈ ms, Drawn m) (id : EventId) :
    ((table ms).get id.text).truthy = true ↔ id.text ∈ ms.map idText := by
  have htame : (table ms).Tame := rfl
  cases hg : Table.get (Keyed.indexed idText ms) id.text with
  | none =>
      rw [PlainObject.Tame.get_of_not_own htame hg, if_neg id.not_builtin]
      refine iff_of_false (by decide) ?_
      intro hc
      rw [← Keyed.get_indexed_isSome, hg] at hc
      cases hc
  | some v =>
      rw [PlainObject.get_of_own hg]
      -- what is filed is a marker, and a marker is an object
      have hv : v ∈ ms := by
        have := List.mem_map_of_mem (f := Prod.snd) (Table.mem_of_get hg)
        rwa [Keyed.indexed_values] at this
      obtain ⟨id', hid'⟩ := hms v hv
      refine iff_of_true (Value.truthy_of_isObject hid'.isObject) ?_
      rw [← Keyed.get_indexed_isSome, hg]
      rfl

/-- **Second loop**: a marker with a new id goes to the end, validated; any other is passed by. -/
theorem addRemote_table {ms : List Value} {m : Value} (hms : ∀ x ∈ ms, Drawn x) (hm : Drawn m) :
    WebSocketServer.addRemote (table ms) m = .ok (table (Keyed.add idText validated ms m)) := by
  obtain ⟨id, hid⟩ := hm
  rw [WebSocketServer.addRemote_ok hid.markerKey, Keyed.add, idText_eq hid]
  by_cases hk : id.text ∈ ms.map idText
  · rw [if_pos ((truthy_table hms id).mpr hk), if_pos hk]
  · rw [if_neg (fun h => hk ((truthy_table hms id).mp h)), if_neg hk,
      PlainObject.assign_of_ne id.ne_proto]
    have hid' : HasId (validated m) id.text := (hasId_set (by decide)).mpr hid
    have hnew : idText (validated m) ∉ ms.map idText := by rwa [idText_eq hid']
    show Except.ok { own := putProp (Keyed.indexed idText ms) id.text (validated m) :
      PlainObject } = _
    rw [putProp_indexed hid' hnew]
    rfl

theorem foldlM_addLocal {ms acc : List Value} (hms : ∀ m ∈ ms, Drawn m)
    (hn : ((acc ++ ms).map idText).Nodup) :
    ms.foldlM WebSocketServer.addLocal (table acc) = .ok (table (acc ++ ms)) := by
  induction ms generalizing acc with
  | nil =>
      rw [List.append_nil]
      rfl
  | cons m ms ih =>
      have hnew : idText m ∉ acc.map idText := by
        rw [List.map_append, List.map_cons] at hn
        intro hc
        exact List.disjoint_of_nodup_append hn hc List.mem_cons_self
      rw [List.foldlM_cons, addLocal_table (hms m List.mem_cons_self) hnew]
      have hrest : ms.foldlM WebSocketServer.addLocal (table (acc ++ [m])) = _ :=
        ih (fun x hx => hms x (List.mem_cons_of_mem _ hx))
          (by rwa [List.append_assoc, List.singleton_append])
      rw [List.append_assoc, List.singleton_append] at hrest
      exact hrest

theorem foldlM_addRemote {ms l : List Value} (hl : ∀ m ∈ l, Drawn m) (hms : ∀ m ∈ ms, Drawn m) :
    ms.foldlM WebSocketServer.addRemote (table l)
      = .ok (table (Keyed.absorb idText validated l ms)) := by
  induction ms generalizing l with
  | nil => rfl
  | cons m ms ih =>
      have hm := hms m List.mem_cons_self
      have hadd : ∀ x ∈ Keyed.add idText validated l m, Drawn x := by
        unfold Keyed.add
        split
        · exact hl
        · exact Places.forall_mem_concat hl hm.validated
      rw [List.foldlM_cons, addRemote_table hl hm, Keyed.absorb_cons]
      exact ih hadd (fun x hx => hms x (List.mem_cons_of_mem _ hx))

theorem values_table (ms : List Value) : (table ms).values = ms := by
  have htame : (table ms).Tame := rfl
  rw [htame.values_eq]
  exact Keyed.indexed_values ms

/--
**The specification of the merge.** For ids of the form `generateID` returns, the local
ones distinct: the local lists `wus` and `waypoints`, and as markers the local ones
unchanged and in order, followed by the first remote marker of each new id, in the
order of the remote list, with `validated` true and every other field as received.
-/
theorem mergeDatabases_spec {local_db remote_db : Value} {lms rms : List Value}
    (hl : local_db.own "markers" = some (.arr lms))
    (hr : remote_db.own "markers" = some (.arr rms)) (hlms : ∀ m ∈ lms, Drawn m)
    (hrms : ∀ m ∈ rms, Drawn m) (hn : (lms.map idText).Nodup) :
    WebSocketServer.mergeDatabases local_db remote_db
        = .ok (.obj [("wus", local_db.prop "wus"),
          ("markers", .arr (lms ++ ((Keyed.firsts idText rms).filter
            fun m => idText m ∉ lms.map idText).map validated)),
          ("waypoints", local_db.prop "waypoints")])
      ∧ ∀ m ∈ rms, (validated m).own "validated" = some (.bool true)
        ∧ ∀ k, k ≠ "validated" → (validated m).own k = m.own k := by
  refine ⟨?_, fun m hm => own_validated (hrms m hm)⟩
  obtain ⟨lps, rfl⟩ := Value.obj_of_own hl (by decide) (by decide)
  obtain ⟨rps, rfl⟩ := Value.obj_of_own hr (by decide) (by decide)
  have hprint : ∀ ms : List Value,
      WebSocketServer.printLength (.arr ms) = .ok (toString ms.length) := fun _ => rfl
  have ho₁ : lms.foldlM WebSocketServer.addLocal (table []) = _ := foldlM_addLocal hlms hn
  have ho₂ := foldlM_addRemote hlms hrms
  refine bind_ok_iff.mpr ⟨_, Value.get_of_own hr, bind_ok_iff.mpr ⟨_, hprint rms,
    bind_ok_iff.mpr ⟨_, Value.get_of_own hl, bind_ok_iff.mpr ⟨_, hprint lms, ?_⟩⟩⟩⟩
  rw [Value.values_arr, Value.values_arr]
  refine bind_ok_iff.mpr ⟨_, ho₁, bind_ok_iff.mpr ⟨_, ho₂, bind_ok_iff.mpr
    ⟨_, Value.get_obj _ _, bind_ok_iff.mpr ⟨_, Value.get_obj _ _, ?_⟩⟩⟩⟩
  rw [values_table, Keyed.absorb_eq idText_validated]
  rfl

/-- A marker with nothing but an id. -/
def bareMarker (id : EventId) : Value := .obj [("id", .str id.text)]

/-- A database with given markers, and nothing else in its lists. -/
def bareDatabase (ms : List Value) : Value :=
  .obj [("wus", .arr []), ("markers", .arr ms), ("waypoints", .arr [])]

/-- What is known is passed by, what is repeated gets in once. -/
theorem mergeDatabases_spec_repeated :
    WebSocketServer.mergeDatabases (bareDatabase [bareMarker idA])
        (bareDatabase [bareMarker idB, bareMarker idA, bareMarker idB])
      = .ok (bareDatabase [bareMarker idA, validated (bareMarker idB)]) := by
  have hdrawn : ∀ id, Drawn (bareMarker id) := fun id => ⟨id, rfl⟩
  have hall : ∀ m ∈ [bareMarker idB, bareMarker idA, bareMarker idB], Drawn m := by
    simp [hdrawn]
  exact (mergeDatabases_spec rfl rfl (List.forall_mem_singleton.mpr (hdrawn idA)) hall
    (List.nodup_singleton _)).1

end EssApp.Readme
