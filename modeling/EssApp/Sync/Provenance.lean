import EssApp.Readme.Turns
import EssApp.Sync.Network
import EssApp.Sync.Relay

/-!
# What can be believed of an event

In a network of apps and units nobody checks what a message says. What can be said
of an event, wherever a copy of it turns up and whatever was lost or sent twice on
the way: that somebody told it, in these words (`authentic_run`), and, if it is marked as
reported, that some unit's callback has run for it (`reported_anywhere`).

The flag is set in the snapshot before the event is sent, so a snapshot says less
than a file: its own event may still be on its way to the broker.
-/

namespace EssApp.Sync.Network

open Readme
open Relay (Same)

variable {ι κ γ : Type}

/-! ## Who told it -/

/-- Where an event can come from. -/
inductive Told (apps : ι → App) (dbs : κ → Database) (es : List (Event ι κ γ)) : Marker → Prop where
  /-- An app had it stored, -/
  | app {i : ι} {m : Marker} : m ∈ (apps i).marker_list → Told apps dbs es m
  /-- or a unit, -/
  | unit {k : κ} {m : Marker} : m ∈ (dbs k).markers → Told apps dbs es m
  /-- or a user reported it, -/
  | created {i : ι} {latlng : LatLng} {type : String} {id : EventId} {timestamp : JsonNumber} :
      .create i latlng type id timestamp ∈ es →
      Told apps dbs es (newEvent latlng type id timestamp)
  /-- or a message from outside brought it. -/
  | message {k : κ} {f : Readme.Event} {m : Marker} : .unit k f ∈ es → m ∈ payload f →
      Told apps dbs es m

theorem Told.later {apps : ι → App} {dbs : κ → Database} {es : List (Event ι κ γ)} {m : Marker}
    (h : Told apps dbs es m) (e : Event ι κ γ) : Told apps dbs (es ++ [e]) m := by
  cases h with
  | app hm => exact .app hm
  | unit hm => exact .unit hm
  | created he => exact .created (List.mem_append_left _ he)
  | message he hm => exact .message (List.mem_append_left _ he) hm

/-- The event is one that was told, but for its marks. -/
def Authentic (apps : ι → App) (dbs : κ → Database) (es : List (Event ι κ γ)) (m : Marker) : Prop :=
  ∃ m₀, Told apps dbs es m₀ ∧ m₀.id = m.id ∧ Same m₀ m

theorem Told.authentic {apps : ι → App} {dbs : κ → Database} {es : List (Event ι κ γ)}
    {m : Marker} (h : Told apps dbs es m) : Authentic apps dbs es m := ⟨m, h, rfl, rfl, rfl, rfl⟩

theorem Authentic.later {apps : ι → App} {dbs : κ → Database} {es : List (Event ι κ γ)} {m : Marker}
    (h : Authentic apps dbs es m) (e : Event ι κ γ) : Authentic apps dbs (es ++ [e]) m := by
  obtain ⟨m₀, hm₀, hid, hsame⟩ := h
  exact ⟨m₀, hm₀.later e, hid, hsame⟩

theorem Authentic.validate {apps : ι → App} {dbs : κ → Database} {es : List (Event ι κ γ)}
    {m : Marker} (h : Authentic apps dbs es m) : Authentic apps dbs es m.validate := by
  obtain ⟨m₀, hm₀, hid, hsame⟩ := h
  exact ⟨m₀, hm₀, hid, hsame.latlng, hsame.type, hsame.timestamp⟩

/-- Setting flags does not change what an event says. -/
theorem authentic_setReported {apps : ι → App} {dbs : κ → Database} {es : List (Event ι κ γ)}
    {db : Database} (h : ∀ m ∈ db.markers, Authentic apps dbs es m) (k : Nat) :
    ∀ m ∈ (setReported db k).markers, Authentic apps dbs es m := by
  intro m hm
  obtain ⟨x, hx, rfl | rfl⟩ := mem_setReported hm
  · exact h m hx
  · obtain ⟨m₀, hm₀, hid, hsame⟩ := h x hx
    exact ⟨m₀, hm₀, hid, hsame.latlng, hsame.type, hsame.timestamp⟩

/-- The invariant of a run `es`. -/
structure AuthenticInv (apps : ι → App) (dbs : κ → Database) (es : List (Event ι κ γ))
    (w : Network ι κ γ) : Prop where
  copies : Copies (Authentic apps dbs es) w
  snapshots : Snapshots (fun _ _ => Authentic apps dbs es) w

theorem authenticInv_init (apps : ι → App) (dbs : κ → Database) :
    AuthenticInv apps dbs [] (opened apps dbs : Network ι κ γ) where
  copies :=
    { apps := fun _ _ hm => (Told.app hm).authentic
      units := fun k _ hm => Told.authentic (.unit (k := k) hm)
      requests := fun _ _ hr => absurd hr List.not_mem_nil
      replies := fun _ _ hr => absurd hr List.not_mem_nil }
  snapshots := fun _ _ hp => absurd hp List.not_mem_nil

section

variable [DecidableEq ι] [DecidableEq κ] [DecidableEq γ]

theorem authenticInv_step {apps : ι → App} {dbs : κ → Database} {es : List (Event ι κ γ)}
    {e : Event ι κ γ} {w w' : Network ι κ γ} (h : AuthenticInv apps dbs es w) (hs : Step w e w') :
    AuthenticInv apps dbs (es ++ [e]) w' where
  copies := by
    have hlast : e ∈ es ++ [e] := List.mem_append_right _ (List.mem_singleton_self e)
    refine copies_step h.copies hs (fun m hm => hm.later e) (fun m hm => (hm.later e).validate)
      ?_ ?_ ?_
    · intro i latlng type id timestamp heq
      subst heq
      exact (Told.created hlast).authentic
    · intro k f heq m hm
      subst heq
      exact (Told.message hlast hm).authentic.validate
    · intro m hex
      obtain ⟨k, i, d, p, _, hp, _, hm⟩ := hex
      have hsnap := h.snapshots k p (List.mem_of_getElem? hp)
      exact authentic_setReported (fun m hm => (hsnap m hm).later e) _ m hm
  snapshots := by
    refine snapshots_step h.snapshots hs (fun _ _ m hm => hm.later e) (fun _ _ _ _ hm => hm) ?_
    intro k n _
    exact authentic_setReported (fun m hm => (h.copies.units k m hm).later e) n

/--
**Nothing is made up.** Whatever happens in the network, every copy of an event and
everything handed to a broker is an event somebody told, with its latlng, type and
timestamp; so if no two tellings of one event differ, no two copies of it do.
-/
theorem authentic_run {apps : ι → App} {dbs : κ → Database} {es : List (Event ι κ γ)}
    {w : Network ι κ γ} (hrun : Lts.Run Step (opened apps dbs) es w) :
    Copies (Authentic apps dbs es) w
      ∧ (∀ k, ∀ p ∈ (w.units k).publishes, ∀ m, p.data = some m → Authentic apps dbs es m)
      ∧ ((∀ m m', Told apps dbs es m → Told apps dbs es m' → m.id = m'.id → Same m m') →
        Copies (fun m => Copies (fun m' => m.id = m'.id → Same m m') w) w) := by
  have hinv := hrun.history (I := AuthenticInv apps dbs) (fun _ h hs => authenticInv_step h hs)
    (authenticInv_init apps dbs)
  refine ⟨hinv.copies, ?_, ?_⟩
  · intro k p hp m hm
    exact hinv.snapshots k p hp m (List.mem_of_getElem? hm)
  · intro hone
    refine hinv.copies.imp ?_
    intro m hex
    obtain ⟨m₀, hm₀, hid₀, hsame₀⟩ := hex
    refine hinv.copies.imp ?_
    intro m' hex hid
    obtain ⟨m₁, hm₁, hid₁, hsame₁⟩ := hex
    -- both go back to one telling
    have hsame := hone m₀ m₁ hm₀ hm₁ (by rw [hid₀, hid₁, hid])
    exact ⟨by rw [hsame₁.latlng, hsame.latlng, hsame₀.latlng],
      by rw [hsame₁.type, hsame.type, hsame₀.type],
      by rw [hsame₁.timestamp, hsame.timestamp, hsame₀.timestamp]⟩

end

/-- A phone with nothing stored, and the README's unit without events. -/
def met : Network Unit Unit Unit := opened (fun _ => {}) fun _ => readmeDatabase []

/-- The user reports an event, the phone syncs, the unit transmits, the phone syncs again. -/
def reportTransmitSync : List (Event Unit Unit Unit) :=
  [.create () (readmeEvent idA).latlng "fire" idA (readmeEvent idA).timestamp,
    .send () () (), .handle () () (), .process () () (),
    .unit () .connect, .unit () .tick, .unit () (.published 0 .success),
    .send () () (), .handle () () (), .process () () ()]

/-- In the end the phone has it as a reported one. -/
theorem run_reportTransmitSync :
    ∃ w, Lts.Run Step met reportTransmitSync w
      ∧ ∃ m ∈ (w.apps ()).marker_list, m.id = idA ∧ m.reported = true := by
  refine ⟨_, .cons .create (.cons .send (.cons (.handle rfl) (.cons (.process rfl)
    (.cons (.unit ⟨trivial, rfl⟩) (.cons (.unit ⟨trivial, rfl⟩)
      (.cons (.unit ⟨⟨_, rfl, rfl⟩, rfl⟩) (.cons .send (.cons (.handle rfl)
        (.single (.process rfl)))))))))), ?_⟩
  decide

/-- What the phone holds then, and what was transmitted, is what its user reported. -/
theorem authentic_reportTransmitSync :
    ∃ w, Lts.Run Step met reportTransmitSync w
      ∧ Copies (Authentic (fun _ => {}) (fun _ => readmeDatabase []) reportTransmitSync) w := by
  obtain ⟨w, hrun, _⟩ := run_reportTransmitSync
  exact ⟨w, hrun, (authentic_run hrun).1⟩

/-! ## What `reported` means -/

/-- The event was told as a reported one. -/
def ToldReported (apps : ι → App) (dbs : κ → Database) (es : List (Event ι κ γ)) (id : EventId) :
    Prop :=
  ∃ m, Told apps dbs es m ∧ m.reported = true ∧ m.id = id

section

variable [DecidableEq ι] [DecidableEq κ] [DecidableEq γ]

/-- At some moment of the run some unit was answered that had handed the event to its broker. -/
def Answered (apps : ι → App) (dbs : κ → Database) (es : List (Event ι κ γ)) (id : EventId) :
    Prop :=
  ∃ pre k i d post u p, es = pre ++ .unit k (.published i d) :: post
    ∧ Lts.Run Step (opened apps dbs) pre u ∧ (u.units k).publishes[i]? = some p
    ∧ p.data.map Marker.id = some id

/-- What the flag of an event says. -/
def Accounted (apps : ι → App) (dbs : κ → Database) (es : List (Event ι κ γ)) (id : EventId) :
    Prop :=
  ToldReported apps dbs es id ∨ Answered apps dbs es id

theorem Accounted.later {apps : ι → App} {dbs : κ → Database} {es : List (Event ι κ γ)}
    {id : EventId} (h : Accounted apps dbs es id) (e : Event ι κ γ) :
    Accounted apps dbs (es ++ [e]) id := by
  rcases h with ⟨m, hm, hr, hid⟩ | ⟨pre, k, i, d, post, u, p, rfl, hrun, hp, hdata⟩
  · exact Or.inl ⟨m, hm.later e, hr, hid⟩
  · refine Or.inr ⟨pre, k, i, d, post ++ [e], u, p, ?_, hrun, hp, hdata⟩
    rw [List.append_assoc]
    rfl

structure ReportedInv (apps : ι → App) (dbs : κ → Database) (es : List (Event ι κ γ))
    (w : Network ι κ γ) : Prop where
  copies : Copies (fun m => m.reported = true → Accounted apps dbs es m.id) w
  /-- In a snapshot the flag of its own event is set ahead of time. -/
  snapshots : Snapshots (fun _ p m => m.reported = true →
    Accounted apps dbs es m.id ∨ p.data.map Marker.id = some m.id) w

theorem reportedInv_init (apps : ι → App) (dbs : κ → Database) :
    ReportedInv apps dbs [] (opened apps dbs : Network ι κ γ) where
  copies :=
    { apps := fun _ m hm hr => Or.inl ⟨m, .app hm, hr, rfl⟩
      units := fun k m hm hr => Or.inl ⟨m, .unit (k := k) hm, hr, rfl⟩
      requests := fun _ _ hr => absurd hr List.not_mem_nil
      replies := fun _ _ hr => absurd hr List.not_mem_nil }
  snapshots := fun _ _ hp => absurd hp List.not_mem_nil

theorem reportedInv_step {apps : ι → App} {dbs : κ → Database} {es : List (Event ι κ γ)}
    {e : Event ι κ γ} {w w' : Network ι κ γ} (hrun : Lts.Run Step (opened apps dbs) es w)
    (h : ReportedInv apps dbs es w) (hs : Step w e w') : ReportedInv apps dbs (es ++ [e]) w' where
  copies := by
    have hkept : ∀ m : Marker, (m.reported = true → Accounted apps dbs es m.id) →
        m.reported = true → Accounted apps dbs (es ++ [e]) m.id :=
      fun m hm hr => (hm hr).later e
    refine copies_step h.copies hs hkept hkept ?_ ?_ ?_
    · nofun
    · intro k f he m hm hr
      subst he
      have hlast := List.mem_append_right es (List.mem_singleton_self (Event.unit k f))
      exact Or.inl ⟨m, .message hlast hm, hr, rfl⟩
    · intro m hex hr
      obtain ⟨k, i, d, p, rfl, hp, hd, hm⟩ := hex
      -- this very step is the answer for the event the publish is about
      have hown : p.data.map Marker.id = some m.id →
          Accounted apps dbs (es ++ [.unit k (.published i d)]) m.id :=
        fun hid => Or.inr ⟨es, k, i, d, [], w, p, rfl, hrun, hp, hid⟩
      rcases mem_setReported_at hm with hm | ⟨m₀, hm₀, rfl⟩
      · rcases h.snapshots k p (List.mem_of_getElem? hp) m hm hr with hacc | hdata
        · exact hacc.later _
        · exact hown hdata
      · refine hown ?_
        rw [Publish.data, hm₀]
        rfl
  snapshots := by
    refine snapshots_step h.snapshots hs ?_ (fun _ _ _ _ hm => hm) ?_
    · intro k p m hm hr
      exact (hm hr).imp_left fun hacc => hacc.later e
    · intro k n _ m hm hr
      rcases mem_setReported_at hm with hm | ⟨m₀, hm₀, rfl⟩
      · exact Or.inl ((h.copies.units k m hm hr).later e)
      · refine Or.inr ?_
        rw [Publish.data, getElem?_setReported, hm₀]
        simp

/--
**What the reported mark means, anywhere**: it came with the event, or some unit handed
the event to its broker and heard the answer. Nobody marks an event ahead of that. The
answer may have been that it failed, and the unit may have forgotten it since.
-/
theorem reported_anywhere {apps : ι → App} {dbs : κ → Database} {es : List (Event ι κ γ)}
    {w : Network ι κ γ} (hrun : Lts.Run Step (opened apps dbs) es w) :
    Copies (fun m => m.reported = true →
      ToldReported apps dbs es m.id
        ∨ ∃ pre k i d post u p, es = pre ++ .unit k (.published i d) :: post
          ∧ Lts.Run Step (opened apps dbs) pre u ∧ (u.units k).publishes[i]? = some p
          ∧ p.data.map Marker.id = some m.id) w := by
  have hinv := hrun.history (I := ReportedInv apps dbs) reportedInv_step
    (reportedInv_init apps dbs)
  exact hinv.copies

end

/-- The phone's copy is reported because the unit's only publish was answered. -/
theorem reported_anywhere_reportTransmitSync :
    ∃ w, Lts.Run Step met reportTransmitSync w
      ∧ ∃ m ∈ (w.apps ()).marker_list, m.reported = true
        ∧ (ToldReported (fun _ => {}) (fun _ => readmeDatabase []) reportTransmitSync m.id
          ∨ ∃ pre k i d post u p, reportTransmitSync = pre ++ .unit k (.published i d) :: post
            ∧ Lts.Run Step met pre u ∧ (u.units k).publishes[i]? = some p
            ∧ p.data.map Marker.id = some m.id) := by
  obtain ⟨w, hrun, m, hm, _, hr⟩ := run_reportTransmitSync
  exact ⟨w, hrun, m, hm, hr, (reported_anywhere hrun).apps () m hm hr⟩

end EssApp.Sync.Network
