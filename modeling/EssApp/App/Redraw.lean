import EssApp.App.MapCtrl

/-!
# A redraw puts the map right

`shown_iff` is about runs from the start. Once a confirmation has gone wrong, the map
shows an event that the list does not have, and goes on showing it. This ends with the
next reply: it replaces the list and draws it on an empty map, and what counts from then
on is what is confirmed from then on (`redrawn_run`).

What makes this so is that everything on the map is in `drawnEvents` or `drawnWUs`, so
that it will be cleared, and is a Leaflet object of its own, so that no removal takes
two of them (`Objects`). The Witness Units are never removed but by a redraw, and the
map always has one marker for each.
-/

namespace EssApp.MapCtrl

open Readme Sync

/-- The Leaflet markers on the map, by number. -/
def objects (s : Map) : List Nat := s.onMap.map Drawn.number ++ s.wusOnMap

/-- Each of them is an object of its own, and the next one will be. -/
structure Objects (s : Map) : Prop where
  nodup : (objects s).Nodup
  fresh : ∀ n ∈ objects s, n < s.next

/-- The map has a marker for each Witness Unit, and will clear it. -/
structure Units (s : Map) : Prop where
  drawn : s.wusOnMap = s.drawnWUs
  length : s.wusOnMap.length = s.app.wu_list.length

/-! ## Objects -/

/-- **One object more.** -/
theorem Objects.concat {s s' : Map} (h : Objects s) (hp : (objects s').Perm (s.next :: objects s))
    (hn : s'.next = s.next + 1) : Objects s' where
  nodup := by
    rw [hp.nodup_iff, List.nodup_cons]
    exact ⟨fun hc => Nat.lt_irrefl _ (h.fresh _ hc), h.nodup⟩
  fresh n hmem := by
    rw [hn]
    rcases List.mem_cons.mp (hp.subset hmem) with rfl | hmem
    · exact Nat.lt_succ_self _
    · exact Nat.lt_succ_of_lt (h.fresh n hmem)

/-- Fewer objects. -/
theorem Objects.sublist {s s' : Map} (h : Objects s) (hs : (objects s').Sublist (objects s))
    (hn : s'.next = s.next) : Objects s' where
  nodup := h.nodup.sublist hs
  fresh n hmem := hn ▸ h.fresh n (hs.subset hmem)

theorem objects_drawEvent {s : Map} (h : Objects s) (event : Marker) :
    Objects (s.drawEvent event) := by
  refine h.concat ?_ rfl
  show (List.map Drawn.number (s.onMap ++ [_]) ++ s.wusOnMap).Perm _
  rw [List.map_append, List.append_assoc]
  exact List.perm_middle

theorem objects_drawWU {s : Map} (h : Objects s) (wu : Wu) : Objects (s.drawWU wu) := by
  refine h.concat ?_ rfl
  show (s.onMap.map Drawn.number ++ (s.wusOnMap ++ [s.next])).Perm _
  rw [← List.append_assoc]
  exact List.perm_append_singleton _ _

theorem objects_removeFrom {s : Map} (h : Objects s) (event : Drawn) :
    Objects (s.removeFrom event) :=
  h.sublist ((List.filter_sublist.map _).append (List.Sublist.refl _)) rfl

theorem objects_clear {s : Map} (h : Objects s) : Objects s.clear := by
  have hwus : Objects { s with wusOnMap := s.wusOnMap.filter fun m => m ∉ s.drawnWUs,
                               drawnWUs := [] } :=
    h.sublist ((List.Sublist.refl _).append List.filter_sublist) rfl
  have hevents : ∀ (ds : List Drawn) {s : Map}, Objects s →
      Objects (ds.foldl Map.removeFrom s) := by
    intro ds
    induction ds with
    | nil => exact id
    | cons d ds ih => exact fun h => ih (objects_removeFrom h d)
  exact ⟨(hevents s.drawnEvents hwus).nodup, (hevents s.drawnEvents hwus).fresh⟩

/-- A redraw takes off old objects and puts on new ones. -/
theorem objects_updateMarkers {s : Map} (h : Objects s) : Objects s.updateMarkers := by
  have hevents : ∀ (ms : List Marker) {s : Map}, Objects s →
      Objects (ms.foldl Map.drawEvent s) := by
    intro ms
    induction ms with
    | nil => exact id
    | cons m ms ih => exact fun h => ih (objects_drawEvent h m)
  have hwus : ∀ (ws : List Wu) {s : Map}, Objects s → Objects (ws.foldl Map.drawWU s) := by
    intro ws
    induction ws with
    | nil => exact id
    | cons w ws ih => exact fun h => ih (objects_drawWU h w)
  exact hwus _ (hevents _ (objects_clear h))

theorem objects_step {s s' : Map} {e : Event} (h : Objects s) (hs : Step s e s') : Objects s' := by
  obtain ⟨_, rfl⟩ := hs
  cases e with
  | create latlng type id timestamp =>
      have hd := objects_drawEvent h (newEvent latlng type id timestamp)
      exact ⟨hd.nodup, hd.fresh⟩
  | click k =>
      simp only [handle]
      split
      · exact h
      · exact ⟨h.nodup, h.fresh⟩
  | confirm i =>
      simp only [handle]
      split
      · exact h
      · rename_i m _
        have hd := objects_removeFrom h m
        exact ⟨hd.nodup, hd.fresh⟩
  | reply database =>
      have hs : Objects { s with app := s.app.onmessage database } := ⟨h.nodup, h.fresh⟩
      exact objects_updateMarkers hs

/-! ## The Witness Units -/

theorem drawWUs_spec (ws : List Wu) {s : Map} (h : s.wusOnMap = s.drawnWUs) :
    (ws.foldl Map.drawWU s).wusOnMap = (ws.foldl Map.drawWU s).drawnWUs
      ∧ (ws.foldl Map.drawWU s).wusOnMap.length = s.wusOnMap.length + ws.length := by
  induction ws generalizing s with
  | nil => exact ⟨h, rfl⟩
  | cons w ws ih =>
      have hdraw : (s.drawWU w).wusOnMap = (s.drawWU w).drawnWUs := congrArg (· ++ [s.next]) h
      obtain ⟨h1, h2⟩ := ih hdraw
      refine ⟨h1, ?_⟩
      have hone : (s.drawWU w).wusOnMap.length = s.wusOnMap.length + 1 := List.length_append
      rw [List.foldl_cons, h2, hone, List.length_cons, Nat.add_assoc, Nat.add_comm 1]

theorem drawEvents_wus (ms : List Marker) (s : Map) :
    (ms.foldl Map.drawEvent s).wusOnMap = s.wusOnMap
      ∧ (ms.foldl Map.drawEvent s).drawnWUs = s.drawnWUs
      ∧ (ms.foldl Map.drawEvent s).app = s.app := by
  induction ms generalizing s with
  | nil => exact ⟨rfl, rfl, rfl⟩
  | cons m ms ih => exact ih (s.drawEvent m)

theorem removeFrom_wus (ds : List Drawn) (s : Map) :
    (ds.foldl Map.removeFrom s).wusOnMap = s.wusOnMap
      ∧ (ds.foldl Map.removeFrom s).drawnWUs = s.drawnWUs := by
  induction ds generalizing s with
  | nil => exact ⟨rfl, rfl⟩
  | cons d ds ih => exact ih (s.removeFrom d)

/-- **After a redraw** there is a marker for each Witness Unit of the list. -/
theorem units_updateMarkers {s : Map} (h : s.wusOnMap = s.drawnWUs) : Units s.updateMarkers := by
  have hclear : s.clear.wusOnMap = [] ∧ s.clear.drawnWUs = [] := by
    obtain ⟨h1, h2⟩ := removeFrom_wus s.drawnEvents
      { s with wusOnMap := s.wusOnMap.filter fun m => m ∉ s.drawnWUs, drawnWUs := [] }
    refine ⟨?_, h2⟩
    rw [show s.clear.wusOnMap = _ from h1]
    show s.wusOnMap.filter _ = []
    rw [h]
    simp
  obtain ⟨k1, k2, _⟩ := drawEvents_wus s.app.marker_list s.clear
  rw [hclear.1] at k1
  rw [hclear.2] at k2
  obtain ⟨h1, h2⟩ := drawWUs_spec (s.app.marker_list.foldl Map.drawEvent s.clear).app.wu_list
    (k1.trans k2.symm)
  rw [k1, List.length_nil, Nat.zero_add] at h2
  refine ⟨h1, h2.trans ?_⟩
  exact congrArg (fun a : App => a.wu_list.length) (drawWUs_fields _ _).1.symm

theorem units_step {s s' : Map} {e : Event} (h : Units s) (hs : Step s e s') : Units s' := by
  obtain ⟨_, rfl⟩ := hs
  cases e with
  | create => exact ⟨h.drawn, h.length⟩
  | click k =>
      simp only [handle]
      split
      · exact h
      · exact ⟨h.drawn, h.length⟩
  | confirm i =>
      simp only [handle]
      split
      · exact h
      · exact ⟨h.drawn, h.length⟩
  | reply database =>
      exact units_updateMarkers (s := { s with app := s.app.onmessage database }) h.drawn

/-! ## Runs -/

/--
**A redraw puts the map right.** After any run each marker is an object of its own and
each Witness Unit has one; and whatever was confirmed before, a reply leaves on the map
the events it brought, in its order, and what is confirmed after it decides whether the
map and the list stay together.
-/
theorem redrawn_run {app : App} (hn : (ids app.marker_list).Nodup) {es : List Event} {s : Map}
    (h : Lts.Run Step (start app) es s) :
    (objects s).Nodup ∧ s.wusOnMap.length = s.app.wu_list.length
      ∧ ∀ database s', Step s (.reply database) s' → idents s' = ids database.markers
        ∧ ∀ es' s'', Lts.Run Step s' es' s'' →
          (Lts.Always Step Shown s' es' ↔ Lts.Run (Lts.Guarded Step Orderly) s' es' s'') := by
  have hobjects : Objects (start app) := by
    have hempty : Objects { app := app } :=
      ⟨List.nodup_nil, fun n hmem => absurd hmem List.not_mem_nil⟩
    exact objects_updateMarkers hempty
  have hunits : Units (start app) := units_updateMarkers (s := { app := app }) rfl
  have hlisted : Listed s := h.invariant (I := Listed) listed_step (start_spec hn).1
  refine ⟨(h.invariant (I := Objects) objects_step hobjects).nodup,
    (h.invariant (I := Units) units_step hunits).length, ?_⟩
  intro database s' hs
  have hlisted' := listed_step hlisted hs
  obtain ⟨_, rfl⟩ := hs
  obtain ⟨hidents, happ, _, _⟩ :=
    updateMarkers_spec (s := { s with app := s.app.onmessage database }) hlisted.drawn
  refine ⟨hidents, ?_⟩
  intro es' s'' hrun
  have hlist : ids (handle s (.reply database)).app.marker_list = ids database.markers :=
    congrArg (fun a : App => ids a.marker_list) happ
  have hshown : Shown (handle s (.reply database)) :=
    shown_of_eq (hidents.trans hlist.symm) hlisted'.nodup
  exact Lts.always_iff_guarded (I := Listed) step_deterministic
    (fun hl _ _ hs => listed_step hl hs) shown_step hrun hlisted' hshown

/-- After the confirmation that went wrong, a reply that is right again. -/
theorem redrawn_run_replyWhileOpen :
    idents (handle (replyWhileOpen.foldl handle (start { marker_list := [readmeEvent idA] }))
      (.reply (readmeDatabase [readmeEvent idB]))) = [idB] := by
  have hrun : Lts.Run Step (start { marker_list := [readmeEvent idA] }) replyWhileOpen
      (replyWhileOpen.foldl handle (start { marker_list := [readmeEvent idA] })) :=
    .cons ⟨by decide, rfl⟩ (.cons ⟨by decide, rfl⟩ (.cons ⟨by decide, rfl⟩ .nil))
  have hn : (ids ({ marker_list := [readmeEvent idA] } : App).marker_list).Nodup := by decide
  have hnew : (ids (readmeDatabase [readmeEvent idB]).markers).Nodup := by decide
  exact ((redrawn_run hn hrun).2.2 _ _ ⟨⟨hnew, by decide⟩, rfl⟩).1

end EssApp.MapCtrl
