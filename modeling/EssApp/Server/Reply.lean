import EssApp.Server.AnyIds

/-!
# What a reply is worth

A client takes the reply for the database the server keeps, but the handler sends it before
it writes the file, so a failed write leaves the client with a database that is nowhere
stored. `Harmless` says, of the inputs of one message, when that cannot happen: the send
fails, the write works, nothing is sent because the payload or the file is no database
the merge can read, or the reply says no more than the file, since the message brings
nothing and the file is already in the form a merge leaves it in (`Repeats`).

`acknowledged_iff` shows that this is enough for every input. It is also necessary where
the lists hold what they should (`Plain`). Outside, a reply can be the text of the file
by accident: with two events of id `null` in the file, a message with an event of id
`1e999` has the lookup drop one of the two and add one that is written as `null`
(`acknowledged_by_accident`).
-/

namespace EssApp.WebSocketServer

open Js

/-- What was sent is what is stored, and nothing is stored that was not sent. -/
def Acknowledged (s t : Server) : Prop :=
  (∀ reply, t.sent = s.sent ++ [reply] → t.database = some reply)
    ∧ (t.sent = s.sent → t.database = s.database)

/-- The file is in the form a merge leaves it in. -/
structure Formed (local_db : Value) : Prop where
  /-- It has the three lists, in the order of the server, -/
  shape : JSON.stringify (.obj [("wus", local_db.prop "wus"),
    ("markers", .arr (markersOf local_db)), ("waypoints", local_db.prop "waypoints")])
      = .json local_db
  /-- and its markers are in the order of an object that has them as properties. -/
  names : ∃ ks, (markersOf local_db).map markerKey = ks.map .ok ∧ Enumerated ks

/-- Every name of the message is one that the file's markers answer for, or every object. -/
def Known (local_db remote_db : Value) : Prop :=
  ∀ r ∈ markersOf remote_db, ∀ k, markerKey r = .ok k →
    Held (markersOf local_db) k ∨ k ∈ objectPrototype

/-- The message brings nothing to a file in that form. -/
structure Repeats (local_db remote_db : Value) : Prop where
  noProto : NoProto (markersOf local_db)
  formed : Formed local_db
  known : Known local_db remote_db

/--
The inputs on which reply and file agree: the send fails, or the write works, or there is no
merge, or the merge adds nothing.
-/
def Harmless (io : Outcomes) (s : Server) (data : Text) : Prop :=
  io.sendOk = true → io.writeOk = false → io.readOk = true →
    ∀ local_db remote_db, s.database = some (.json local_db) → data = .json remote_db →
      Mergeable local_db → Mergeable remote_db → Repeats local_db remote_db

/--
Markers are objects, none of the file's is called `__proto__`, and those of the message keep their
names when they are written.
-/
structure Plain (local_db remote_db : Value) : Prop where
  noProto : NoProto (markersOf local_db)
  locals : ∀ m ∈ markersOf local_db, m.isObject = true
  remotes : ∀ r ∈ markersOf remote_db, r.isObject = true ∧ markerKey r.elemJSON = markerKey r

/-! ## The one case that matters -/

theorem sent_ne_concat (s : Server) (reply : Text) : s.sent ≠ s.sent ++ [reply] := by
  intro h
  have := congrArg List.length h
  rw [List.length_append, List.length_singleton] at this
  omega

/-- A step that sends and writes nothing is in agreement. -/
theorem acknowledged_refl (s : Server) : Acknowledged s s :=
  ⟨fun reply h => absurd h (sent_ne_concat s reply), fun _ => rfl⟩

/-- A step that sends one reply is in agreement if the file then holds it. -/
theorem acknowledged_sent_iff {s : Server} {reply : Text} {file : Option Text} :
    Acknowledged s { s with sent := s.sent ++ [reply], database := file } ↔ file = some reply := by
  constructor
  · intro h
    exact h.1 reply rfl
  · intro h
    refine ⟨fun reply' h' => ?_, fun h' => absurd h'.symm (sent_ne_concat s reply)⟩
    rw [← List.singleton_inj.mp (List.append_cancel_left h')]
    exact h

/-- The merge a message leads to is that of the file and the payload. -/
theorem mergedFor_eq_ok_iff {io : Outcomes} {s : Server} {data : Text} {db : Value} :
    mergedFor io s data = .ok db ↔ io.readOk = true ∧ ∃ local_db remote_db,
      s.database = some (.json local_db) ∧ data = .json remote_db
        ∧ mergeDatabases local_db remote_db = .ok db := by
  constructor
  · intro h
    obtain ⟨remote_db, hd, hm⟩ := bind_ok_iff.mp h
    have hl := (mergeDatabases_ok_iff.mp ⟨db, hm⟩).1
    have hfile := loaded_of_mergeable hl
    refine ⟨?_, _, remote_db, hfile, ?_, hm⟩
    · -- a file that cannot be read leaves `undefined`
      by_contra hr
      have hnone : readFileSync io s = .error .systemError := by
        rw [readFileSync, hfile]
        exact if_neg hr
      have hload : loadDatabase io s = .undefined := by
        rw [loadDatabase, hnone]
        rfl
      rw [hload] at hl
      exact absurd hl.not_nullish (by decide)
    · cases data with
      | malformed => cases hd
      | json v => rw [Except.ok.inj hd]
  · intro hex
    obtain ⟨hr, local_db, remote_db, hfile, rfl, hm⟩ := hex
    have hl := (mergeDatabases_ok_iff.mp ⟨db, hm⟩).1
    have hload : loadDatabase io s = local_db := by
      have hread : readFileSync io s = .ok (.json local_db) := by
        rw [readFileSync, hfile]
        exact if_pos hr
      rw [loadDatabase, hread]
      exact if_pos (mergeable_truthy hl)
    show mergeDatabases (loadDatabase io s) remote_db = .ok db
    rw [hload]
    exact hm

/-- **Where they can differ**: the reply is out, the write fails, and it is not the file's text. -/
theorem acknowledged_message_iff (io : Outcomes) (s : Server) (data : Text) :
    Acknowledged s (after s (.clientMessage io data))
      ↔ (io.sendOk = true → io.writeOk = false →
          ∀ db, mergedFor io s data = .ok db → s.database = some (JSON.stringify db)) := by
  rw [after, handle, run_clientMessage]
  cases hm : mergedFor io s data with
  | error e => exact ⟨fun _ _ _ db h => (by cases h), fun _ => acknowledged_refl s⟩
  | ok db =>
      cases hs : io.sendOk with
      | false => exact ⟨fun _ h => absurd h (by simp), fun _ => acknowledged_refl s⟩
      | true =>
          refine acknowledged_sent_iff.trans ?_
          rw [fileAfter]
          cases hw : io.writeOk with
          | true => exact ⟨fun _ _ h => absurd h (by simp), fun _ => rfl⟩
          | false =>
              constructor
              · intro h _ _ db' hdb
                rw [← Except.ok.inj hdb]
                exact h
              · intro h
                exact h rfl rfl db rfl

/-! ## A merge that adds nothing -/

/-- The properties a table has, without what they hold. -/
def names (o : PlainObject) : List (String × Unit) := o.own.map (Prod.map id fun _ => ())

theorem names_keys (o : PlainObject) : (names o).map Prod.fst = o.own.map Prod.fst := by
  rw [names, List.map_map]
  rfl

/-- The first loop gives the table the names of the markers, one after the other. -/
theorem names_addLocal {ms : List Value} {ks : List String} {o o' : PlainObject}
    (h : ms.foldlM addLocal o = .ok o') (hks : ms.map markerKey = ks.map .ok)
    (hp : "__proto__" ∉ ks) :
    names o' = ks.foldl (fun ps k => putProp ps k ()) (names o) := by
  induction ms generalizing ks o with
  | nil =>
      obtain rfl := Except.ok.inj h
      rw [List.map_eq_nil_iff.mp hks.symm]
      rfl
  | cons m ms ih =>
      cases ks with
      | nil => cases hks
      | cons k ks =>
          rw [List.map_cons, List.map_cons] at hks
          obtain ⟨hk, hks⟩ := List.cons_eq_cons.mp hks
          obtain ⟨hkp, hp⟩ := not_or.mp (mt List.mem_cons.mpr hp)
          rw [List.foldlM_cons] at h
          obtain ⟨o₁, h1, h⟩ := bind_ok_iff.mp h
          obtain ⟨_, hk', h1⟩ := bind_ok_iff.mp h1
          obtain rfl := Except.ok.inj (hk.symm.trans hk')
          rw [ih h hks hp, List.foldl_cons, ← Except.ok.inj h1,
            PlainObject.assign_of_ne (Ne.symm hkp)]
          congr 1
          exact map_putProp _ _ _ _

theorem NoProto.not_mem {ms : List Value} {ks : List String} (h : NoProto ms)
    (hks : ms.map markerKey = ks.map .ok) : "__proto__" ∉ ks := by
  intro hmem
  have hk : Except.ok "__proto__" ∈ ms.map markerKey := hks ▸ List.mem_map_of_mem hmem
  obtain ⟨m, hm, hmk⟩ := List.mem_map.mp hk
  exact h m hm hmk

/-- Two lists with the same distinct keys, one made of elements of the other, are one list. -/
theorem eq_of_keys {α κ : Type} {f : α → κ} {xs ys : List α} (h : xs.map f = ys.map f)
    (hn : (ys.map f).Nodup) (hsub : xs ⊆ ys) : xs = ys := by
  refine List.ext_getElem (by simpa using congrArg List.length h) ?_
  intro i h1 h2
  refine List.inj_on_of_nodup_map hn (hsub (List.getElem_mem h1)) (List.getElem_mem h2) ?_
  have hi := congrArg (fun l => l[i]?) h
  rw [List.getElem?_map, List.getElem?_map, List.getElem?_eq_getElem h1,
    List.getElem?_eq_getElem h2] at hi
  exact Option.some.inj hi

/-- What answers falsely for being held by something falsy has no id. -/
theorem markerKey_of_falsy {m : Value} {k : String} (hm : m.truthy = false)
    (hk : markerKey m = .ok k) : k = "undefined" := by
  have hund : ∀ v : Value, v.isNullish = false → v.own "id" = none →
      markerKey v = .ok k → k = "undefined" := by
    intro v _ hv hk
    have hstr := (markerKey_ok_iff.mp hk).2
    rw [Value.prop, hv] at hstr
    exact (Option.some.inj hstr).symm
  cases m with
  | undefined => cases hk
  | null => cases hk
  | bool b => exact hund _ rfl rfl hk
  | num n => exact hund _ rfl rfl hk
  | str s =>
      refine hund _ rfl ?_ hk
      rw [Value.own, if_neg (by decide)]
      rfl
  | arr es => cases hm
  | obj ps => cases hm

section Loops

variable {local_db remote_db db : Value} {o₁ o₂ : PlainObject}
  (t : Loops local_db remote_db db o₁ o₂)
include t

/-- Between the loops every known name answers. -/
theorem Loops.answers_of_known (h : Known local_db remote_db) {r : Value} {k : String}
    (hr : r ∈ markersOf remote_db) (hk : markerKey r = .ok k) : (o₁.get k).truthy = true := by
  rcases h r hr k hk with hheld | hbuiltin
  · obtain ⟨x, hx, hxt, _, _⟩ := t.filed_of_held hheld
    rw [PlainObject.get_of_own hx]
    exact hxt
  · cases hg : Table.get o₁.own k with
    | none =>
        rw [t.filed₁.tame.get_of_not_own hg, if_pos hbuiltin]
        rfl
    | some x =>
        rw [PlainObject.get_of_own hg]
        by_contra hx
        -- what is held by something falsy is the name `undefined`, which is not built in
        have hxk : markerKey x = .ok k := t.filed₁.keyed _ (Table.mem_of_get hg)
        have hx' : x.truthy = false := by simpa [Found.truthy] using hx
        rw [markerKey_of_falsy hx' hxk] at hbuiltin
        exact absurd hbuiltin (by decide)

/-- **What is known adds nothing.** -/
theorem Loops.eq_of_known (h : Known local_db remote_db) : o₂ = o₁ := by
  have hloop : ∀ rs : List Value, rs ⊆ markersOf remote_db →
      rs.foldlM addRemote o₁ = .ok o₂ → o₂ = o₁ := by
    intro rs
    induction rs with
    | nil => exact fun _ h => (Except.ok.inj h).symm
    | cons r rs ih =>
        intro hsub hf
        rw [List.foldlM_cons] at hf
        obtain ⟨o, h1, hf⟩ := bind_ok_iff.mp hf
        obtain ⟨k, hk, _⟩ := bind_ok_iff.mp h1
        rw [addRemote_ok hk, if_pos (t.answers_of_known h (hsub List.mem_cons_self) hk)] at h1
        rw [← Except.ok.inj h1] at hf
        exact ih (fun x hx => hsub (List.mem_cons_of_mem _ hx)) hf
  exact hloop _ (List.Subset.refl _) t.loop₂

/-- In a file in form, the table of the first loop lists the file's markers. -/
theorem Loops.values_of_formed (hp : NoProto (markersOf local_db)) (h : Formed local_db) :
    o₁.own.map Prod.snd = markersOf local_db := by
  obtain ⟨ks, hks, henum⟩ := h.names
  have hnames : o₁.own.map Prod.fst = ks := by
    rw [← names_keys, names_addLocal t.loop₁ hks (hp.not_mem hks)]
    exact henum
  have hkeys : (o₁.own.map Prod.snd).map markerKey = (markersOf local_db).map markerKey := by
    rw [hks, ← hnames, List.map_map, List.map_map]
    exact List.map_congr_left (fun e he => t.filed₁.keyed e he)
  refine eq_of_keys hkeys ?_ ?_
  · rw [hks, ← hnames]
    exact t.filed₁.nodup.map (fun a b hab => Except.ok.inj hab)
  · intro x hx
    obtain ⟨e, he, rfl⟩ := List.mem_map.mp hx
    exact t.locals e he

end Loops

section

variable {local_db remote_db db : Value}

/-- **A message that repeats what the file has** is answered with the text of the file. -/
theorem stringify_of_repeats (h : Repeats local_db remote_db)
    (hm : mergeDatabases local_db remote_db = .ok db) : JSON.stringify db = .json local_db := by
  obtain ⟨o₁, o₂, t⟩ := exists_loops hm h.noProto
  obtain ⟨ms, hdb⟩ := mergeDatabases_shape hm
  have hms : ms = markersOf local_db := by
    have hmarkers : markersOf db = ms := by
      rw [hdb]
      exact markersOf_of_own rfl
    rw [← hmarkers, t.result, t.eq_of_known h.known, t.values_of_formed h.noProto h.formed]
  rw [hdb, hms]
  exact h.formed.shape

/-- **Only such a message is**, where the lists hold what they should. -/
theorem repeats_of_stringify (h : Plain local_db remote_db)
    (hm : mergeDatabases local_db remote_db = .ok db)
    (hfile : JSON.stringify db = .json local_db) : Repeats local_db remote_db := by
  obtain ⟨o₁, o₂, t⟩ := exists_loops hm h.noProto
  have hlocal : markersOf local_db = written (markersOf db) := by
    rw [← Text.json.inj hfile]
    exact markersOf_of_own (own_written (own_merged hm))
  -- what the file holds has been written before
  have hstable : ∀ m ∈ markersOf local_db, m.elemJSON = m := by
    intro m hmem
    rw [hlocal] at hmem
    obtain ⟨n, _, rfl⟩ := List.mem_map.mp hmem
    exact Value.elemJSON_elemJSON n
  have hknown : Known local_db remote_db := by
    intro r hr k hk
    by_contra hc
    obtain ⟨hnew, hbuiltin⟩ := not_or.mp hc
    -- the merge lists something under the name, and so does the file once that is written
    have hanswer :=
      (addRemote_answers t.loop₂ t.filed₁ (fun x hx => (h.remotes x hx).1)).2 r hr k hk
    cases hg : Table.get o₂.own k with
    | none =>
        rw [t.filed₂.tame.get_of_not_own hg, if_neg hbuiltin] at hanswer
        cases hanswer
    | some x =>
        have hmem := Table.mem_of_get hg
        have hx : x ∈ markersOf db := by
          rw [t.result]
          exact List.mem_map_of_mem (f := Prod.snd) hmem
        obtain ⟨n, hn, hkey, hwritten⟩ := exists_origin hm h.noProto hx
        have hname : markerKey n.elemJSON = markerKey n := by
          rcases List.mem_append.mp hn with hn | hn
          · rw [hstable n hn]
          · exact (h.remotes n hn).2
        have hxk : markerKey x.elemJSON = .ok k := by
          rw [← hwritten, hname, hkey]
          exact t.filed₂.keyed _ hmem
        refine hnew ⟨⟨x.elemJSON, ?_, hxk⟩, ?_⟩
        · rw [hlocal]
          exact List.mem_map_of_mem hx
        · exact fun m hm _ => Value.truthy_of_isObject (h.locals m hm)
  have hvalues : markersOf db = o₁.own.map Prod.snd := by
    rw [t.result, t.eq_of_known hknown]
  have hsame : markersOf db = markersOf local_db := by
    rw [hlocal, written]
    refine (List.map_id _).symm.trans (List.map_congr_left ?_)
    intro m hmem
    rw [hvalues] at hmem
    obtain ⟨e, he, rfl⟩ := List.mem_map.mp hmem
    exact (hstable _ (t.locals e he)).symm
  have hkeys : (markersOf local_db).map markerKey = (o₁.own.map Prod.fst).map .ok := by
    rw [← hsame, hvalues, List.map_map, List.map_map]
    exact List.map_congr_left (fun e he => t.filed₁.keyed e he)
  refine ⟨h.noProto, ⟨?_, _, hkeys, ?_⟩, hknown⟩
  · obtain ⟨ms, hdb⟩ := mergeDatabases_shape hm
    have hms : markersOf db = ms := by
      rw [hdb]
      exact markersOf_of_own rfl
    rw [← hsame, hms, ← hdb]
    exact hfile
  · have hnames := names_addLocal t.loop₁ hkeys (h.noProto.not_mem hkeys)
    exact (congrArg (List.map Prod.fst) hnames).symm.trans (names_keys o₁)

end

/--
**A reply is worth what the write is.** Whatever the message, the file and the outcomes of the
handler's operations, reply and file agree on harmless inputs; and where the lists of the
file and the message hold what they should, on no others.
-/
theorem acknowledged_iff (io : Outcomes) (s : Server) (data : Text) :
    (Harmless io s data → Acknowledged s (after s (.clientMessage io data)))
      ∧ ((∀ local_db remote_db, s.database = some (.json local_db) → data = .json remote_db →
          Plain local_db remote_db) →
        (Acknowledged s (after s (.clientMessage io data)) ↔ Harmless io s data)) := by
  have henough : Harmless io s data → Acknowledged s (after s (.clientMessage io data)) := by
    intro h
    refine (acknowledged_message_iff io s data).mpr ?_
    intro hsend hwrite db hdb
    obtain ⟨hread, local_db, remote_db, hfile, hdata, hm⟩ := mergedFor_eq_ok_iff.mp hdb
    obtain ⟨hl, hr⟩ := mergeDatabases_ok_iff.mp ⟨db, hm⟩
    have hrepeats := h hsend hwrite hread local_db remote_db hfile hdata hl hr
    rw [hfile, stringify_of_repeats hrepeats hm]
  refine ⟨henough, fun hplain => ⟨?_, henough⟩⟩
  intro hack hsend hwrite hread local_db remote_db hfile hdata hl hr
  obtain ⟨db, hm⟩ := mergeDatabases_ok_iff.mpr ⟨hl, hr⟩
  have hdb := mergedFor_eq_ok_iff.mpr ⟨hread, local_db, remote_db, hfile, hdata, hm⟩
  have hsame := (acknowledged_message_iff io s data).mp hack hsend hwrite db hdb
  exact repeats_of_stringify (hplain local_db remote_db hfile hdata) hm
    (Option.some.inj (hfile.symm.trans hsame)).symm

/-- The write fails after the reply has gone out: the client holds a marker the file does not. -/
theorem reply_without_write :
    ¬ ∀ (io : Outcomes) (s : Server) (data : Text),
      Acknowledged s (after s (.clientMessage io data)) := by
  intro h
  have h' := (h { writeOk := false }
    { database := some (.json (.obj [("wus", .arr []), ("markers", .arr []),
        ("waypoints", .arr [])])) }
    (.json (.obj [("markers", .arr [.obj [("id", .str "_a")]])]))).1 _ rfl
  cases h'

/-- A file with two events of id `null`. -/
def twoNulls : Value :=
  .obj [("wus", .arr []),
    ("markers", .arr [.obj [("id", .null), ("validated", .bool true)],
      .obj [("id", .null), ("validated", .bool true)]]),
    ("waypoints", .arr [])]

/-- A message with an event whose id JSON cannot write. -/
def unwritable : Value := .obj [("markers", .arr [.obj [("id", .num ⟨"Infinity"⟩)]])]

/-- Outside of `Plain`, the reply can be the text of the file by accident. -/
theorem acknowledged_by_accident : ∃ (io : Outcomes) (s : Server) (data : Text),
    Acknowledged s (after s (.clientMessage io data)) ∧ ¬ Harmless io s data := by
  refine ⟨{ writeOk := false }, { database := some (.json twoNulls) }, .json unwritable, ?_, ?_⟩
  · refine ⟨?_, fun _ => rfl⟩
    intro reply h
    cases List.append_cancel_left h
    rfl
  · intro h
    obtain ⟨hl, hr⟩ : Mergeable twoNulls ∧ Mergeable unwritable :=
      mergeDatabases_ok_iff.mp ⟨_, rfl⟩
    -- the name of the new event is neither one of the file's nor built in
    have hrepeats := h rfl rfl rfl twoNulls unwritable rfl rfl hl hr
    rcases hrepeats.known _ List.mem_cons_self "Infinity" rfl with hheld | hbuiltin
    · obtain ⟨⟨m, hm, hk⟩, _⟩ := hheld
      have hname : "null" ≠ "Infinity" := by decide
      rcases List.mem_pair.mp hm with rfl | rfl
      · exact hname (Except.ok.inj hk)
      · exact hname (Except.ok.inj hk)
    · exact absurd hbuiltin (by decide)

end EssApp.WebSocketServer
