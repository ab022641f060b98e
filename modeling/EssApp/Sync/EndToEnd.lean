import EssApp.Sync.Acknowledged
import EssApp.Sync.Route

/-!
# What a phone shows, and what the operations centre hears

Between the user who reports an event and the one who sees it there are a list in the
memory of a phone, a text in its storage, a socket, a parser, a merge, a file, another
socket and another phone, and any of these may be closed, dropped or started again on
the way. Each of them has been followed on its own: phones and sockets up to texts,
texts up to `Network`, and in `Network` the copies of an event.

Here the layers are put together. `told_everywhere` is about the values a phone draws
and the texts a unit hands to its broker: each of them says what somebody told.
`routed_everywhere` is about the route a phone draws, and the units: they are those of
one unit, the one that answered last.
-/

namespace EssApp.Sync.Sockets

open Js Texts
open Readme (Marker Database LatLng EventId JsonNumber MarkerRep WuRep WaypointsRep ServerRep
  readmeDatabase)
open Relay (Same)
open Restart (Phone)
open Storage (PlacesAll hasLatLng)

variable {ι κ : Type}

/-- Where an event can come from. -/
inductive Told (apps : ι → App) (dbs : κ → Database) (es : List (Event ι κ)) : Marker → Prop where
  /-- A phone had it stored, -/
  | app {i : ι} {m : Marker} : m ∈ (apps i).marker_list → Told apps dbs es m
  /-- or a unit, -/
  | unit {k : κ} {m : Marker} : m ∈ (dbs k).markers → Told apps dbs es m
  /-- or a user reported it, -/
  | created {i : ι} {latlng : LatLng} {type : String} {id : EventId} {timestamp : JsonNumber} :
      .phone i (.create (some latlng) type id timestamp) ∈ es →
      Told apps dbs es (newEvent latlng type id timestamp)
  /-- or a message from outside brought it. -/
  | message {k : κ} {e : WebSocketServer.Event} {f : Readme.Event} {m : Marker} :
      .unit k e ∈ es → Readme.EventRep e f → m ∈ Readme.payload f → Told apps dbs es m

/-- The event is one that was told, but for its marks. -/
def Authentic (apps : ι → App) (dbs : κ → Database) (es : List (Event ι κ)) (m : Marker) : Prop :=
  ∃ m₀, Told apps dbs es m₀ ∧ m₀.id = m.id ∧ Same m₀ m

/-- What the user or the broker does, behind an event on the connections. -/
def behind : Texts.Event ι κ Key → Option (Event ι κ)
  | .phone i (.app e) => some (.phone i e)
  | .unit k e => some (.unit k e)
  | _ => none

theorem behind_traffic {w w' : System ι κ} {e e' : Event ι κ} {f : Texts.Event ι κ Key}
    (hf : f ∈ traffic w e w') (he : behind f = some e') : e = e' := by
  cases e with
  | phone i g =>
      obtain rfl := List.mem_singleton.mp hf
      exact Option.some.inj he
  | restart i =>
      obtain rfl := List.mem_singleton.mp hf
      cases he
  | manager i g =>
      obtain ⟨j, _, hf⟩ := List.mem_flatMap.mp hf
      obtain ⟨k, _, rfl⟩ := List.mem_map.mp hf
      cases he
  | accept i k j => cases hf
  | handle i s =>
      obtain ⟨k, _, rfl⟩ := List.mem_map.mp hf
      cases he
  | process i j =>
      obtain ⟨k, _, rfl⟩ := List.mem_map.mp hf
      cases he
  | close i s => cases hf
  | unit k g =>
      obtain rfl := List.mem_singleton.mp hf
      exact Option.some.inj he
  | reboot k =>
      obtain rfl := List.mem_singleton.mp hf
      cases he

/-- What came over the connections in the run `es`. -/
structure Said (es : List (Event ι κ)) (fs : List (Texts.Event ι κ Key)) : Prop where
  /-- What was told there was told in the run, -/
  behind : ∀ f ∈ fs, ∀ e, behind f = some e → e ∈ es
  /-- and everything stands for something in `Network`. -/
  rep : ∀ f ∈ fs, ∃ gs, EventRep f gs

section

variable [DecidableEq ι] [DecidableEq κ]

theorem said_step {places : Value → Bool} {toNumber : String → Number} {es : List (Event ι κ)}
    {fs : List (Texts.Event ι κ Key)} {w w' : System ι κ} {e : Event ι κ} (h : Said es fs)
    (hs : Lts.Guarded (Step places toNumber) (fun _ => Formatted) w e w') :
    Said (es ++ [e]) (fs ++ traffic w e w') := by
  constructor
  · intro f hf e' he'
    rcases List.mem_append.mp hf with hf | hf
    · exact List.mem_append_left _ (h.behind f hf e' he')
    · rw [behind_traffic hf he']
      exact List.mem_append_right _ (List.mem_singleton_self _)
  · intro f hf
    rcases List.mem_append.mp hf with hf | hf
    · exact h.rep f hf
    · exact exists_eventRep hs.1 hs.2 f hf

omit [DecidableEq ι] [DecidableEq κ] in
/-- **What was told in `Network`** was told here. -/
theorem told_of_network {apps : ι → App} {dbs : κ → Database} {es : List (Event ι κ)}
    {fs : List (Texts.Event ι κ Key)} {gss : List (List (Network.Event ι κ Key))} {m : Marker}
    (h : Said es fs) (hgss : List.Forall₂ EventRep fs gss)
    (hm : Network.Told apps dbs gss.flatten m) : Told apps dbs es m := by
  -- what is told there stands for something on the connections
  have hback : ∀ g ∈ gss.flatten, ∃ f ∈ fs, ∃ gs, EventRep f gs ∧ g ∈ gs := by
    intro g hg
    obtain ⟨gs, hgs, hg⟩ := List.mem_flatten.mp hg
    obtain ⟨f, hf, hrep⟩ := Places.forall₂_exists_mem hgss.flip gs hgs
    exact ⟨f, hf, gs, hrep, hg⟩
  cases hm with
  | app hm => exact .app hm
  | unit hm => exact .unit hm
  | created he =>
      obtain ⟨f, hf, gs, hrep, he⟩ := hback _ he
      cases hrep with
      | create =>
          cases List.mem_singleton.mp he
          exact .created (h.behind _ hf _ rfl)
      | nowhere => cases he
      | restart => cases he
      | _ => cases List.mem_singleton.mp he
  | message he hm =>
      obtain ⟨f, hf, gs, hrep, he⟩ := hback _ he
      cases hrep with
      | unit hef _ =>
          cases List.mem_singleton.mp he
          exact .message (h.behind _ hf _ rfl) hef hm
      | nowhere => cases he
      | restart => cases he
      | _ => cases List.mem_singleton.mp he

/-- **A run of the system is a run of `Network`**, in which the same was said. -/
theorem network_run {places : Value → Bool} {toNumber : String → Number}
    (hplaces : PlacesAll places) {phones : ι → Phone} {units : κ → WebSocketServer.Server}
    {n₀ : Network ι κ Key} (h0 : SystemRep places (texts phones units) n₀)
    {es : List (Event ι κ)} {fs : List (Texts.Event ι κ Key)} {w : System ι κ}
    (h : Lts.Trace (Lts.Guarded (Step places toNumber) fun _ => Formatted) traffic
      (start phones units) es fs w) :
    ∃ gss n, Said es fs ∧ List.Forall₂ EventRep fs gss ∧ Lts.Run Network.Step n₀ gss.flatten n
      ∧ (∀ i, PhoneRep places (w.phones i) (n.apps i))
      ∧ ∀ k, ServerRep (w.units k) (n.units k) := by
  have hsaid : Said es fs := by
    refine h.history (I := fun es fs _ => Said es fs) said_step ?_
    exact ⟨fun _ hf => absurd hf List.not_mem_nil, fun _ hf => absurd hf List.not_mem_nil⟩
  obtain ⟨gss, hgss⟩ := Places.exists_forall₂ hsaid.rep
  obtain ⟨m, hm, hc⟩ := carries_run h.unguard
  obtain ⟨n, hn, hrep⟩ := hm.simulate_runs (step_rep hplaces) hgss h0
  refine ⟨gss, n, hsaid, hgss, hn, ?_, ?_⟩
  · intro i
    rw [← hc.phones]
    exact hrep.phones i
  · intro k
    rw [← hc.units]
    exact (hrep.units k).1

/--
**Whatever a phone shows and whatever a broker is handed was told by somebody**, with its
latlng, type and timestamp, in every run of the whole system on README-format data.
-/
theorem told_everywhere {places : Value → Bool} {toNumber : String → Number}
    (hplaces : PlacesAll places) {phones : ι → Phone} {units : κ → WebSocketServer.Server}
    {apps : ι → App} {dbs : κ → Database}
    (h0 : SystemRep places (texts phones units) (Network.opened apps dbs)) {es : List (Event ι κ)}
    {fs : List (Texts.Event ι κ Key)} {w : System ι κ}
    (h : Lts.Trace (Lts.Guarded (Step places toNumber) fun _ => Formatted) traffic
      (start phones units) es fs w) :
    (∀ i, ∃ vs, (w.phones i).device.marker_list = .arr vs
        ∧ ∀ v ∈ vs, ∃ m, MarkerRep v m ∧ Authentic apps dbs es m)
      ∧ ∀ k, ∀ p ∈ (w.units k).publishes,
        ∃ v m, p.payload = .json v ∧ MarkerRep v m ∧ Authentic apps dbs es m := by
  obtain ⟨gss, n, hsaid, hgss, hn, hphones, hunits⟩ := network_run hplaces h0 h
  have hinv := hn.history (I := Network.AuthenticInv apps dbs)
    (fun _ hi hs => Network.authenticInv_step hi hs) (Network.authenticInv_init apps dbs)
  have hback : ∀ m, Network.Authentic apps dbs gss.flatten m → Authentic apps dbs es m := by
    intro m hex
    obtain ⟨m₀, hm₀, hid, hsame⟩ := hex
    exact ⟨m₀, told_of_network hsaid hgss hm₀, hid, hsame⟩
  constructor
  · intro i
    obtain ⟨vs, hvs, hall⟩ := (hphones i).device.markers
    refine ⟨vs, hvs, ?_⟩
    intro v hv
    obtain ⟨m, hm, hrep⟩ := Places.forall₂_exists_mem hall v hv
    exact ⟨m, hrep, hback m (hinv.copies.apps i m hm)⟩
  · intro k p hp
    obtain ⟨q, hq, hrep⟩ := Places.forall₂_exists_mem (hunits k).publishes p hp
    obtain ⟨v, m, hpay, hm, hv⟩ := hrep.payload
    exact ⟨v, m, hpay, hv, hback m (hinv.snapshots k q hq m (List.mem_of_getElem? hm))⟩

/-! ## The route -/

/-- The unit whose reply phone `i` processes in an event. -/
def server (i : ι) : Texts.Event ι κ Key → Option κ
  | .process i' k _ => if i' = i then some k else none
  | _ => none

/-- Where phone `i` has its route from: the unit that answered it last, or its own storage. -/
def source (apps : ι → App) (dbs : κ → Database) (i : ι) (fs : List (Texts.Event ι κ Key)) :
    Database :=
  (fs.filterMap (server i)).getLast?.elim (apps i).database dbs

omit [DecidableEq κ] in
/-- It is the unit that serves the app. -/
theorem server_network {i : ι} {fs : List (Texts.Event ι κ Key)}
    {gss : List (List (Network.Event ι κ Key))} (h : List.Forall₂ EventRep fs gss) :
    gss.flatten.filterMap (Network.server i) = fs.filterMap (server i) := by
  induction h with
  | nil => rfl
  | @cons f gs fs gss hrep _ ih =>
      have hone : gs.filterMap (Network.server i) = [f].filterMap (server i) := by
        cases hrep <;> rfl
      rw [List.flatten_cons, List.filterMap_append, hone, ih, ← List.filterMap_append]
      rfl

/--
**The route a phone shows is that of the unit that answered last**, or the one that the
phone had stored, and so are the Witness Units it shows, in every run of the whole system
on README-format data.
-/
theorem routed_everywhere {places : Value → Bool} {toNumber : String → Number}
    (hplaces : PlacesAll places) {phones : ι → Phone} {units : κ → WebSocketServer.Server}
    {apps : ι → App} {dbs : κ → Database}
    (h0 : SystemRep places (texts phones units) (Network.opened apps dbs)) {es : List (Event ι κ)}
    {fs : List (Texts.Event ι κ Key)} {w : System ι κ}
    (h : Lts.Trace (Lts.Guarded (Step places toNumber) fun _ => Formatted) traffic
      (start phones units) es fs w) (i : ι) :
    WaypointsRep (w.phones i).device.waypoint_list (source apps dbs i fs).waypoints
      ∧ ∃ vs, (w.phones i).device.wu_list = .arr vs
        ∧ List.Forall₂ WuRep vs (source apps dbs i fs).wus := by
  obtain ⟨gss, n, _, hgss, hn, hphones, _⟩ := network_run hplaces h0 h
  have hinv := hn.history (I := Network.RouteInv apps dbs)
    (fun _ hi hs => Network.routeInv_step hi hs) (Network.routeInv_init apps dbs)
  obtain ⟨hwus, hwaypoints⟩ := hinv.apps i
  rw [Network.source, server_network hgss] at hwus hwaypoints
  constructor
  · rw [source, ← hwaypoints]
    exact (hphones i).device.waypoints
  · rw [source, ← hwus]
    exact (hphones i).device.wus

end

theorem met_rep : SystemRep hasLatLng (Texts.start readmeUnit : Texts.System Unit Unit Key)
    (Network.opened (fun _ => {}) readmeUnit) :=
  start_rep hasLatLng fun _ _ hm => absurd hm List.not_mem_nil

/-- Then the unit reaches the broker, and its timer fires. -/
def reportPublish : List (Event Unit Unit) :=
  reportConnectSync ++ [.unit () .connect, .unit () (.tick {})]

/-- The phone shows what its user reported, and the unit has handed it to the broker. -/
theorem told_everywhere_reportPublish : ∃ fs w,
    Lts.Trace (Lts.Guarded (Step hasLatLng Number.mk) fun _ => Formatted) traffic met
        reportPublish fs w
      ∧ (∀ i, ∃ vs, (w.phones i).device.marker_list = .arr vs
        ∧ ∀ v ∈ vs, ∃ m, MarkerRep v m
          ∧ Authentic (fun _ => {}) readmeUnit reportPublish m)
      ∧ (w.units ()).publishes.length = 1
      ∧ ∀ k, ∀ p ∈ (w.units k).publishes, ∃ v m, p.payload = .json v ∧ MarkerRep v m
        ∧ Authentic (fun _ => {}) readmeUnit reportPublish m := by
  have hfire : "fire" ∈ Draw.event_types.map Prod.fst := by decide
  have hconnect : ∃ f, Readme.EventRep .connect f ∧ Draw.Typed (Readme.payload f) :=
    ⟨_, .connect, fun _ hm => absurd hm List.not_mem_nil⟩
  have htick : ∃ f, Readme.EventRep (.tick {}) f ∧ Draw.Typed (Readme.payload f) :=
    ⟨_, .tick, fun _ hm => absurd hm List.not_mem_nil⟩
  have htrace : Lts.Trace (Lts.Guarded (Step hasLatLng Number.mk) fun _ => Formatted) traffic met
      reportPublish (reportSync ++ [.unit () .connect, .unit () (.tick {})]) _ :=
    .cons_eq ⟨.phone nofun ⟨⟨rfl, hfire⟩, rfl⟩, trivial⟩
      (.cons_eq ⟨.manager ⟨trivial, rfl⟩ rfl (fun _ => rfl) nofun, trivial⟩
        (.cons_eq ⟨.accept rfl rfl, trivial⟩
          (.cons_eq ⟨.manager ⟨rfl, rfl⟩ rfl nofun (by rintro j ⟨⟩; rfl), trivial⟩
            (.cons_eq ⟨.upload ⟨⟨.update, rfl⟩, rfl⟩ rfl, trivial⟩
              (.cons_eq ⟨.handle rfl rfl rfl rfl, trivial⟩
                (.cons_eq ⟨.process rfl rfl ⟨⟨rfl, trivial⟩, rfl⟩, trivial⟩
                  (.cons_eq ⟨.unit ⟨trivial, rfl⟩, hconnect⟩
                    (.cons_eq ⟨.unit ⟨trivial, rfl⟩, htick⟩ .nil rfl) rfl) rfl) rfl) rfl) rfl)
          rfl) rfl) rfl
  obtain ⟨hshown, hpublished⟩ := told_everywhere placesAll_hasLatLng met_rep htrace
  exact ⟨_, _, htrace, hshown, rfl, hpublished⟩

/-- And it shows the route of the unit, and the units that this one knows. -/
theorem routed_everywhere_reportConnectSync : ∃ fs w,
    Lts.Trace (Lts.Guarded (Step hasLatLng Number.mk) fun _ => Formatted) traffic met
        reportConnectSync fs w
      ∧ WaypointsRep (w.phones ()).device.waypoint_list
        (source (fun _ => {}) readmeUnit () fs).waypoints
      ∧ ∃ vs, (w.phones ()).device.wu_list = .arr vs
        ∧ List.Forall₂ WuRep vs (source (fun _ => {}) readmeUnit () fs).wus := by
  obtain ⟨w, hrun⟩ := formatted_reportConnectSync
  obtain ⟨fs, htrace⟩ : ∃ fs, Lts.Trace (Lts.Guarded (Step hasLatLng Number.mk) fun _ => Formatted)
      traffic met reportConnectSync fs w := Lts.Trace.exists_of_run hrun
  exact ⟨fs, w, htrace, routed_everywhere placesAll_hasLatLng met_rep htrace ()⟩

end EssApp.Sync.Sockets
