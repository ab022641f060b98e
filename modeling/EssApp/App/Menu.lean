import EssApp.App.Draw

/-!
# The menu of events

A tap on the map opens a dialog with a button for every type of event and one more to
set the user's position by hand. The buttons are made by `forEach`, which walks over
whatever it is given: the own properties of a plain object, or the elements of
anything else that has a length.
-/

namespace EssApp.Menu

open Draw

/-- What `forEach` can be given. -/
inductive Collection (α : Type) where
  /-- A plain object, and what its prototypes have to enumerate. -/
  | object (own inherited : List (String × α))
  /-- An array or a `NodeList`. -/
  | indexed (elems : List α)

/-- The second argument of the callback. -/
inductive Key where
  | prop (name : String)
  | index (i : Nat)
  deriving DecidableEq

/-- The key as the `type` of an event. -/
def Key.text : Key → String
  | .prop name => name
  | .index i => toString i

/-- What a `for…in` visits: a name on a prototype is hidden by an own one. -/
def forIn {α : Type} (own inherited : List (String × α)) : List (String × α) :=
  own ++ inherited.filter fun p => (Table.get own p.1).isNone

/-- `forEach` of `utils.js`; `s` is all that the callback can change. -/
def forEach {σ α : Type} (collection : Collection α) (callback : σ → α → Key → σ) (s : σ) : σ :=
  match collection with
  | .object own inherited =>
      (forIn own inherited).foldl
        (fun s p => if (Table.get own p.1).isSome then callback s p.2 (.prop p.1) else s) s
  | .indexed elems => elems.zipIdx.foldl (fun s p => callback s p.1 (.index p.2)) s

/-- What a button does. -/
inductive Click where
  /-- Report an event of this type. -/
  | report (type : String)
  /-- Set the user's position. -/
  | override
  deriving DecidableEq

structure Button where
  text : String
  onClick : Click
  deriving DecidableEq

def eventButton (ev : EventType) (type : Key) : Button where
  text := "<img src=\"" ++ ev.button_icon.getD "undefined"
    ++ "\" style=\"max-width:50px;vertical-align: middle;\"/> "
    ++ "<span style=\"margin-left:20px;font-size:1.1em;\"> " ++ ev.text.getD "undefined"
    ++ "</span>"
  onClick := .report type.text

def overrideButton : Button where
  text := "<img src=\"custom/img/override.png\" style=\"max-width:50px;vertical-align: middle;\"/> "
    ++ "<span style=\"margin-left:20px;font-size:1.1em;\">Override location</span>"
  onClick := .override

/-- The buttons of `event_dialog`. -/
def buttons : List Button :=
  forEach (.object event_types []) (fun buttons ev type => buttons ++ [eventButton ev type]) []
    ++ [overrideButton]

/-! ## What `forEach` visits -/

/-- **Of an object** it visits the own properties, in their order, and nothing inherited. -/
theorem forEach_object {σ α : Type} (own inherited : List (String × α))
    (callback : σ → α → Key → σ) (s : σ) :
    forEach (.object own inherited) callback s
      = own.foldl (fun s p => callback s p.2 (.prop p.1)) s := by
  have hown : own.filter (fun p => (Table.get own p.1).isSome) = own :=
    List.filter_eq_self.mpr fun p hp => Table.get_isSome_of_mem hp
  have hinherited : (inherited.filter fun p => (Table.get own p.1).isNone).filter
      (fun p => (Table.get own p.1).isSome) = [] := by
    refine List.filter_eq_nil_iff.mpr ?_
    intro p hp hsome
    have hnone := (List.mem_filter.mp hp).2
    rw [Option.isNone_iff_eq_none.mp hnone] at hsome
    cases hsome
  -- the test in the loop is a filter
  rw [forEach, ← List.foldl_filter, forIn, List.filter_append, hown, hinherited,
    List.append_nil]

theorem foldl_concat {α β : Type} (f : α → β) (l : List α) (bs : List β) :
    l.foldl (fun bs a => bs ++ [f a]) bs = bs ++ l.map f := by
  induction l generalizing bs with
  | nil => exact (List.append_nil bs).symm
  | cons a l ih => rw [List.foldl_cons, ih, List.map_cons, List.append_assoc]; rfl

/-- **There is a button for every type of event**, in their order, and one to override. -/
theorem buttons_eq :
    buttons = event_types.map (fun p => eventButton p.2 (.prop p.1)) ++ [overrideButton] := by
  rw [buttons, forEach_object,
    foldl_concat (fun p : String × EventType => eventButton p.2 (.prop p.1)), List.nil_append]

/-- A button reports an event of a type of its own, or overrides. -/
theorem getElem?_buttons {k : Nat} {b : Button} (h : buttons[k]? = some b) :
    (∃ p, event_types[k]? = some p ∧ b = eventButton p.2 (.prop p.1))
      ∨ k = event_types.length ∧ b = overrideButton := by
  rw [buttons_eq] at h
  by_cases hk : k < (event_types.map fun p => eventButton p.2 (.prop p.1)).length
  · rw [List.getElem?_append_left hk, List.getElem?_map] at h
    obtain ⟨p, hp, hb⟩ := Option.map_eq_some_iff.mp h
    exact Or.inl ⟨p, hp, hb.symm⟩
  · rw [List.getElem?_append_right (Nat.le_of_not_lt hk)] at h
    obtain ⟨hk', hb⟩ := List.getElem?_eq_some_iff.mp h
    rw [List.length_singleton] at hk'
    rw [List.length_map] at hk hk'
    refine Or.inr ⟨by omega, ?_⟩
    rw [List.getElem_singleton] at hb
    exact hb.symm

/-- **The type a button reports** is drawn with the icons of that very type. -/
theorem getEvent_of_button {p : String × EventType} (h : p ∈ event_types) :
    getEvent (.str p.1) = .ok p.2 := by
  have hall : ∀ p ∈ event_types, Table.get event_types p.1 = some p.2 := by decide
  have htext : (Js.Value.str p.1).toText = .ok p.1 := rfl
  rw [getEvent, htext]
  simp only [bind, Except.bind, hall p h]
  rfl

end EssApp.Menu
