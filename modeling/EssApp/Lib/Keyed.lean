import EssApp.Lib.Table

/-!
# Merging lists of records that carry their own key

`absorb l r` extends `l` by those records of `r` whose key is not there yet, each
passed through `mark` on the way in. As an operation on key sets it is union; as
an operation on records the left side always wins. Those two facts, with
`absorb_of_known` (what is already known adds nothing, not even an order), are
what makes repeated merging settle.

`collapse` is the list a table keyed by the records' own keys is left with, and
`foldl_set` and `foldl_absorb` are the two loops that compute `collapse` and
`absorb` through such a table.
-/

namespace Keyed

variable {α κ : Type} [DecidableEq κ] {key : α → κ} {mark : α → α}

/-- Append `m`, marked, unless its key is taken. -/
def add (key : α → κ) (mark : α → α) (l : List α) (m : α) : List α :=
  if key m ∈ l.map key then l else l ++ [mark m]

/-- Extend `l` by the records of `r` with new keys, the first of each key. -/
def absorb (key : α → κ) (mark : α → α) (l r : List α) : List α :=
  r.foldl (add key mark) l

@[simp] theorem absorb_nil (l : List α) : absorb key mark l [] = l := rfl

theorem absorb_cons (l : List α) (m : α) (r : List α) :
    absorb key mark l (m :: r) = absorb key mark (add key mark l m) r := rfl

/-! ## On keys it is union -/

section Keys

variable (hk : ∀ m, key (mark m) = key m)
include hk

theorem mem_keys_add {l : List α} {m : α} {k : κ} :
    k ∈ (add key mark l m).map key ↔ k ∈ l.map key ∨ k = key m := by
  unfold add
  split
  · rename_i hm
    exact ⟨Or.inl, fun h => h.elim id (fun h' => h' ▸ hm)⟩
  · rw [List.map_append, List.mem_append, List.map_singleton, List.mem_singleton, hk]

theorem mem_keys_absorb {l r : List α} {k : κ} :
    k ∈ (absorb key mark l r).map key ↔ k ∈ l.map key ∨ k ∈ r.map key := by
  induction r generalizing l with
  | nil => simp
  | cons m r ih =>
      rw [absorb_cons, ih, mem_keys_add hk, List.map_cons, List.mem_cons, or_assoc]

theorem nodup_add {l : List α} {m : α} (hn : (l.map key).Nodup) :
    ((add key mark l m).map key).Nodup := by
  unfold add
  split
  · exact hn
  · rename_i hm
    rw [List.map_append, List.map_singleton, hk]
    refine List.Nodup.append hn (List.nodup_singleton _) ?_
    intro k h1 h2
    rw [List.mem_singleton] at h2
    exact hm (h2 ▸ h1)

theorem nodup_absorb {l r : List α} (hn : (l.map key).Nodup) :
    ((absorb key mark l r).map key).Nodup := by
  induction r generalizing l with
  | nil => exact hn
  | cons m r ih => exact ih (nodup_add hk hn)

end Keys

/-! ## On records the left side wins -/

theorem prefix_add (l : List α) (m : α) : l <+: add key mark l m := by
  unfold add
  split
  · exact List.prefix_refl l
  · exact List.prefix_append l _

/-- What is there stays there, in its place. -/
theorem prefix_absorb (l r : List α) : l <+: absorb key mark l r := by
  induction r generalizing l with
  | nil => exact List.prefix_refl l
  | cons m r ih => exact (prefix_add l m).trans (ih _)

theorem mem_absorb {l r : List α} {x : α} (h : x ∈ absorb key mark l r) :
    x ∈ l ∨ ∃ m ∈ r, key m ∉ l.map key ∧ x = mark m := by
  induction r generalizing l with
  | nil => exact Or.inl h
  | cons m r ih =>
      rcases ih h with h' | ⟨m', hm', hn, hx⟩
      · unfold add at h'
        split at h'
        · exact Or.inl h'
        · rename_i hm
          rcases List.mem_append.mp h' with h'' | h''
          · exact Or.inl h''
          · exact Or.inr ⟨m, List.mem_cons_self, hm, List.mem_singleton.mp h''⟩
      · -- a key that was free after adding `m` was free before
        refine Or.inr ⟨m', List.mem_cons_of_mem _ hm', fun hc => hn ?_, hx⟩
        obtain ⟨y, hy, hyk⟩ := List.mem_map.mp hc
        exact List.mem_map.mpr ⟨y, (prefix_add l m).subset hy, hyk⟩

/-- **Merging what is known changes nothing**: not a record, not their order. -/
theorem absorb_of_known {l r : List α} (h : ∀ m ∈ r, key m ∈ l.map key) :
    absorb key mark l r = l := by
  induction r with
  | nil => rfl
  | cons m r ih =>
      rw [absorb_cons, add, if_pos (h m List.mem_cons_self)]
      exact ih (fun m' hm' => h m' (List.mem_cons_of_mem _ hm'))

/-! ## What is appended -/

/-- The records of a list without those whose key an earlier one has. -/
def firsts (key : α → κ) : List α → List α
  | [] => []
  | m :: ms => m :: (firsts key ms).filter (fun x => key x ≠ key m)

/-- **The merge, as one list**: the left records, then the first of each new key, marked. -/
theorem absorb_eq (hk : ∀ m, key (mark m) = key m) (l r : List α) :
    absorb key mark l r
      = l ++ ((firsts key r).filter (fun m => key m ∉ l.map key)).map mark := by
  induction r generalizing l with
  | nil => rw [absorb_nil, firsts, List.filter_nil, List.map_nil, List.append_nil]
  | cons m r ih =>
      rw [absorb_cons, ih, firsts, add]
      by_cases hm : key m ∈ l.map key
      · -- nor do the later records with this key get in
        rw [if_pos hm, List.filter_cons_of_neg (by simpa using hm), List.filter_filter]
        congr 2
        refine List.filter_congr ?_
        intro x _
        rw [Bool.eq_iff_iff, Bool.and_eq_true, decide_eq_true_eq, decide_eq_true_eq]
        exact ⟨fun hx => ⟨hx, fun he => hx (he ▸ hm)⟩, And.left⟩
      · rw [if_neg hm, List.filter_cons_of_pos (by simpa using hm), List.filter_filter,
          List.map_cons, List.append_assoc, List.singleton_append]
        congr 3
        refine List.filter_congr ?_
        intro x _
        rw [Bool.eq_iff_iff, Bool.and_eq_true, decide_eq_true_eq, decide_eq_true_eq,
          decide_eq_true_eq, List.map_append, List.map_singleton, hk, List.mem_append,
          List.mem_singleton, not_or]

/-! ## Removing a key -/

/-- If keys are distinct, without the first record of a key no record of that key is left. -/
theorem eraseP_eq_filter {l : List α} (hn : (l.map key).Nodup) (k : κ) :
    l.eraseP (fun m => key m = k) = l.filter fun m => key m ≠ k := by
  induction l with
  | nil => rfl
  | cons m l ih =>
      obtain ⟨hm, hl⟩ := List.nodup_cons.mp hn
      by_cases hk : key m = k
      · rw [List.eraseP_cons_of_pos (by simpa using hk),
          List.filter_cons_of_neg (by simpa using hk)]
        -- no later record has the key
        refine (List.filter_eq_self.mpr ?_).symm
        intro x hx
        refine decide_eq_true ?_
        intro hxk
        exact hm (hk.trans hxk.symm ▸ List.mem_map_of_mem hx)
      · rw [List.eraseP_cons_of_neg (by simpa using hk),
          List.filter_cons_of_pos (by simpa using hk), ih hl]

/-! ## Absorbing several lists -/

theorem absorb_append (l r₁ r₂ : List α) :
    absorb key mark l (r₁ ++ r₂) = absorb key mark (absorb key mark l r₁) r₂ :=
  List.foldl_append

section Order

variable (hk : ∀ m, key (mark m) = key m) {l : List α}
include hk

/-- If keys are distinct, every record with a new key gets in. -/
theorem mark_mem_absorb {r : List α} {m : α} (hn : (r.map key).Nodup) (hm : m ∈ r)
    (hnew : key m ∉ l.map key) : mark m ∈ absorb key mark l r := by
  induction r generalizing l with
  | nil => exact absurd hm List.not_mem_nil
  | cons x r ih =>
      obtain ⟨hx, hr⟩ := List.nodup_cons.mp hn
      rw [absorb_cons]
      rcases List.mem_cons.mp hm with rfl | hm
      · refine (prefix_absorb _ r).subset ?_
        rw [add, if_neg hnew]
        exact List.mem_append_right l (List.mem_singleton_self _)
      · refine ih hr hm ?_
        -- what was added has another key
        rw [mem_keys_add hk]
        rintro (hc | hc)
        · exact hnew hc
        · exact hx (hc ▸ List.mem_map_of_mem hm)

/-- If copies of a new record enter alike, what is absorbed depends on the records only. -/
theorem absorb_subset {r r' : List α} (hsub : r ⊆ r')
    (halike : ∀ m ∈ r', ∀ m' ∈ r', key m = key m' → key m ∉ l.map key → mark m = mark m')
    {x : α} (hx : x ∈ absorb key mark l r) : x ∈ absorb key mark l r' := by
  rcases mem_absorb hx with hx | ⟨m, hm, hnew, rfl⟩
  · exact (prefix_absorb l r').subset hx
  · have hkey : key m ∈ (absorb key mark l r').map key :=
      (mem_keys_absorb hk).mpr (Or.inr (List.mem_map_of_mem (hsub hm)))
    obtain ⟨y, hy, hyk⟩ := List.mem_map.mp hkey
    rcases mem_absorb hy with hl | ⟨m', hm', _, rfl⟩
    · exact absurd (hyk ▸ List.mem_map_of_mem hl) hnew
    · rw [hk] at hyk
      rw [halike m (hsub hm) m' hm' hyk.symm hnew]
      exact hy

/--
**When the order of the sources does not matter.** Absorbing the records of sources
without repeated keys gives the same records in every order exactly if all copies of a
new record enter alike.
-/
theorem absorb_perm_iff {β : Type} {records : β → List α} {ss : List β}
    (hl : (l.map key).Nodup) (hss : ∀ s ∈ ss, ((records s).map key).Nodup) :
    (∀ ss' : List β, ss'.Perm ss → ∀ x, x ∈ absorb key mark l (ss'.flatMap records)
        ↔ x ∈ absorb key mark l (ss.flatMap records))
      ↔ ∀ m ∈ ss.flatMap records, ∀ m' ∈ ss.flatMap records, key m = key m' →
        key m ∉ l.map key → mark m = mark m' := by
  constructor
  · intro hfree m hm m' hm' he hnew
    -- with its own source first, a copy gets in, and so it is there in every order
    have hin : ∀ m ∈ ss.flatMap records, key m ∉ l.map key →
        mark m ∈ absorb key mark l (ss.flatMap records) := by
      intro m hm hnew
      obtain ⟨s, hs, hms⟩ := List.mem_flatMap.mp hm
      obtain ⟨before, after, rfl⟩ := List.append_of_mem hs
      refine (hfree _ List.perm_middle.symm _).mp ?_
      rw [List.flatMap_cons, absorb_append]
      exact (prefix_absorb _ _).subset (mark_mem_absorb hk (hss s hs) hms hnew)
    -- two records of one key are one record
    refine List.inj_on_of_nodup_map (nodup_absorb hk hl) (hin m hm hnew)
      (hin m' hm' (he ▸ hnew)) ?_
    rw [hk, hk, he]
  · intro halike ss' hp x
    have hmem : ∀ m, m ∈ ss'.flatMap records ↔ m ∈ ss.flatMap records := by
      intro m
      rw [List.mem_flatMap, List.mem_flatMap]
      exact exists_congr fun s => and_congr_left fun _ => hp.mem_iff
    constructor
    · exact absorb_subset hk (fun m => (hmem m).mp) halike
    · refine absorb_subset hk (fun m => (hmem m).mpr) ?_
      intro m hm m' hm'
      exact halike m ((hmem m).mp hm) m' ((hmem m').mp hm')

end Order

/-! ## The loops that compute it through a table -/

/-- The table that binds each record of `ms` to its own key. -/
def indexed (key : α → κ) (ms : List α) : List (κ × α) := ms.map (fun m => (key m, m))

omit [DecidableEq κ] in
@[simp] theorem indexed_values (ms : List α) : (indexed key ms).map Prod.snd = ms := by
  simp [indexed, Function.comp_def]

omit [DecidableEq κ] in
theorem indexed_keys (ms : List α) : (indexed key ms).map Prod.fst = ms.map key := by
  simp [indexed, Function.comp_def]

theorem get_indexed_isSome {ms : List α} {k : κ} :
    (Table.get (indexed key ms) k).isSome ↔ k ∈ ms.map key := by
  rw [← indexed_keys]
  constructor
  · intro h
    obtain ⟨v, hv⟩ := Option.isSome_iff_exists.mp h
    exact List.mem_map_of_mem (f := Prod.fst) (Table.mem_of_get hv)
  · intro h
    obtain ⟨⟨k', v⟩, he, rfl⟩ := List.mem_map.mp h
    exact Table.get_isSome_of_mem he

theorem set_indexed_new {ms : List α} {m : α} (h : key m ∉ ms.map key) :
    Table.set (indexed key ms) (key m) m = indexed key (ms ++ [m]) := by
  rw [Table.set, if_neg (fun hs => h (get_indexed_isSome.mp hs))]
  simp [indexed]

/-- What a table keyed by the records' own keys is left with when `l` is written to it. -/
def collapse (key : α → κ) (l : List α) : List α :=
  (l.foldl (fun t m => Table.set t (key m) m) []).map Prod.snd

/-- A table whose bindings sit under their own keys, each key once. -/
def SelfKeyed (key : α → κ) (t : List (κ × α)) : Prop :=
  (∀ e ∈ t, key e.2 = e.1) ∧ (t.map Prod.fst).Nodup

omit [DecidableEq κ] in
theorem SelfKeyed.eq_indexed {t : List (κ × α)} (h : SelfKeyed key t) :
    t = indexed key (t.map Prod.snd) := by
  rw [indexed, List.map_map]
  conv => lhs; rw [← List.map_id t]
  refine List.map_congr_left (fun e he => ?_)
  simp [h.1 e he]

theorem SelfKeyed.set {t : List (κ × α)} (h : SelfKeyed key t) (m : α) :
    SelfKeyed key (Table.set t (key m) m) := by
  refine ⟨fun e he => ?_, (Table.put_set t (key m) m).nodup h.2⟩
  rcases (Table.put_set t (key m) m).mem he with rfl | ⟨he', _⟩
  · rfl
  · exact h.1 e he'

/-- Every record comes from the list, and every key of the list survives. -/
theorem foldl_set_spec {l : List α} {t : List (κ × α)} (h : SelfKeyed key t) :
    SelfKeyed key (l.foldl (fun t m => Table.set t (key m) m) t)
      ∧ (∀ e ∈ l.foldl (fun t m => Table.set t (key m) m) t, e ∈ t ∨ e.2 ∈ l)
      ∧ ∀ k, k ∈ (l.foldl (fun t m => Table.set t (key m) m) t).map Prod.fst
          ↔ k ∈ t.map Prod.fst ∨ k ∈ l.map key := by
  induction l generalizing t with
  | nil => exact ⟨h, fun e he => Or.inl he, fun k => by simp⟩
  | cons m l ih =>
      obtain ⟨h1, h2, h3⟩ := ih (h.set m)
      have hput := Table.put_set t (key m) m
      refine ⟨h1, ?_, ?_⟩
      · intro e he
        rcases h2 e he with h' | h'
        · rcases hput.mem h' with rfl | ⟨h'', _⟩
          · exact Or.inr List.mem_cons_self
          · exact Or.inl h''
        · exact Or.inr (List.mem_cons_of_mem _ h')
      · intro k
        rw [List.foldl_cons, h3 k, List.map_cons, List.mem_cons, ← or_assoc]
        -- the first write adds its own key to those of the table
        refine or_congr_left ⟨fun hk => ?_, fun hk => ?_⟩
        · obtain ⟨e, he, rfl⟩ := List.mem_map.mp hk
          rcases hput.mem he with rfl | ⟨h'', _⟩
          · exact Or.inr rfl
          · exact Or.inl (List.mem_map_of_mem h'')
        · by_cases hkm : k = key m
          · exact hkm ▸ List.mem_map_of_mem (f := Prod.fst) (Table.mem_of_get hput.get_self)
          · obtain ⟨⟨k', v⟩, he, rfl⟩ := List.mem_map.mp (hk.resolve_right hkm)
            obtain ⟨w, hw⟩ := Option.isSome_iff_exists.mp (Table.get_isSome_of_mem he)
            have hw' := (hput.get_ne hkm).trans hw
            exact List.mem_map.mpr ⟨(k', w), Table.mem_of_get hw', rfl⟩

omit [DecidableEq κ] in
theorem selfKeyed_nil : SelfKeyed key ([] : List (κ × α)) :=
  ⟨by simp, by simp⟩

theorem foldl_set (l : List α) :
    l.foldl (fun t m => Table.set t (key m) m) [] = indexed key (collapse key l) :=
  (foldl_set_spec selfKeyed_nil).1.eq_indexed

theorem mem_collapse {l : List α} {m : α} (h : m ∈ collapse key l) : m ∈ l := by
  obtain ⟨e, he, rfl⟩ := List.mem_map.mp h
  rcases (foldl_set_spec selfKeyed_nil).2.1 e he with h' | h'
  · simp at h'
  · exact h'

theorem mem_keys_collapse {l : List α} {k : κ} :
    k ∈ (collapse key l).map key ↔ k ∈ l.map key := by
  rw [← indexed_keys, ← foldl_set, (foldl_set_spec selfKeyed_nil).2.2 k]
  simp

theorem nodup_collapse (l : List α) : ((collapse key l).map key).Nodup := by
  rw [← indexed_keys, ← foldl_set]
  exact (foldl_set_spec selfKeyed_nil).1.2

/-- With distinct keys nothing is overwritten. -/
theorem collapse_of_nodup {l : List α} (hn : (l.map key).Nodup) : collapse key l = l := by
  -- the table is the list written so far, and every further write is of a new key
  have go : ∀ (l acc : List α), ((acc ++ l).map key).Nodup →
      l.foldl (fun t m => Table.set t (key m) m) (indexed key acc) = indexed key (acc ++ l) := by
    intro l
    induction l with
    | nil => intro acc _; rw [List.append_nil]; rfl
    | cons m l ih =>
        intro acc h
        have hm : key m ∉ acc.map key := by
          rw [List.map_append, List.map_cons] at h
          intro hc
          exact List.disjoint_of_nodup_append h hc List.mem_cons_self
        rw [List.foldl_cons, set_indexed_new hm, ih (acc ++ [m]) (by simpa using h)]
        simp
  have := go l [] hn
  rw [collapse, show ([] : List (κ × α)) = indexed key [] from rfl, this]
  exact indexed_values l

/-- The loop that adds the records of `r` whose key is free, the free ones marked. -/
theorem foldl_absorb (hk : ∀ m, key (mark m) = key m) (l r : List α) :
    r.foldl (fun t m => if (Table.get t (key m)).isSome then t
        else Table.set t (key m) (mark m)) (indexed key l)
      = indexed key (absorb key mark l r) := by
  induction r generalizing l with
  | nil => rfl
  | cons m r ih =>
      rw [List.foldl_cons, absorb_cons, add]
      by_cases hm : key m ∈ l.map key
      · rw [if_pos (get_indexed_isSome.mpr hm), if_pos hm, ih]
      · rw [if_neg (fun hs => hm (get_indexed_isSome.mp hs)), if_neg hm, ← hk m,
          set_indexed_new (by rwa [hk m]), ih]

end Keyed
