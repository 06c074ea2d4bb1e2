import ComponentCatalog.OrderedMap

/-!
# Look-ups in ordered maps
-/

namespace ComponentCatalog

namespace OrderedMap

variable {κ α β : Type}

theorem keys_map (m : OrderedMap κ α) (f : κ → α → β) : (m.map f).keys = m.keys := by
  simp [keys, map, Function.comp_def]

theorem nodup_entries (m : OrderedMap κ α) : m.entries.Nodup :=
  List.Pairwise.of_map Prod.fst (fun _ _ hne heq => hne (congrArg Prod.fst heq)) m.nodup

theorem map_id (m : OrderedMap κ α) : (m.map fun _ v => v) = m := ext (List.map_id m.entries)

theorem map_congr {m : OrderedMap κ α} {f g : κ → α → β} (h : ∀ k v, (k, v) ∈ m.entries → f k v = g k v) :
    m.map f = m.map g :=
  ext (List.map_congr_left fun (k, v) hmem => congrArg (k, ·) (h k v hmem))

variable [DecidableEq κ]

/-! ## Setting the value of a key -/

theorem find?_setEntry (key k : κ) (v : α) (entries : List (κ × α)) :
    (setEntry key v entries).find? (fun entry => entry.1 == k) =
      if key = k then some (key, v) else entries.find? fun entry => entry.1 == k := by
  induction entries with
  | nil => by_cases h : key = k <;> simp [setEntry, h]
  | cons entry rest ih =>
      by_cases hk : entry.1 = key
      · by_cases h : key = k <;> simp [setEntry, hk, h]
      · by_cases h : entry.1 = k
        · have hne : key ≠ k := fun hkey => hk (h.trans hkey.symm)
          rw [setEntry, if_neg hk, if_neg hne]
          simp [h]
        · simp [setEntry, hk, h, ih]

theorem find?_insert (m : OrderedMap κ α) (key k : κ) (v : α) :
    (m.insert key v).find? k = if key = k then some v else m.find? k := by
  unfold find? insert
  rw [find?_setEntry]
  by_cases h : key = k <;> simp [h]

theorem keys_setEntry (key : κ) (v : α) (entries : List (κ × α)) :
    (setEntry key v entries).map Prod.fst =
      if key ∈ entries.map Prod.fst then entries.map Prod.fst else entries.map Prod.fst ++ [key] := by
  induction entries with
  | nil => simp [setEntry]
  | cons entry rest ih =>
      by_cases hk : entry.1 = key
      · simp [setEntry, hk]
      · by_cases h : key ∈ rest.map Prod.fst
        · simp [setEntry, hk, ih, h]
        · simp [setEntry, hk, ih, h, Ne.symm hk]

/-- A new key comes last; a key that is there keeps its place. -/
theorem keys_insert (m : OrderedMap κ α) (key : κ) (v : α) :
    (m.insert key v).keys = if key ∈ m.keys then m.keys else m.keys ++ [key] :=
  keys_setEntry key v m.entries

theorem mem_keys_insert {m : OrderedMap κ α} {key k : κ} {v : α} :
    k ∈ (m.insert key v).keys ↔ key = k ∨ k ∈ m.keys := by
  rw [keys_insert]
  split
  · next hkey => exact ⟨.inr, fun h => h.elim (fun h => h ▸ hkey) id⟩
  · rw [List.mem_append, List.mem_singleton, or_comm, eq_comm]

theorem setEntry_of_notMem {key : κ} {v : α} {entries : List (κ × α)} (h : key ∉ entries.map Prod.fst) :
    setEntry key v entries = entries ++ [(key, v)] := by
  induction entries with
  | nil => rfl
  | cons entry rest ih =>
      obtain ⟨hne, hrest⟩ := not_or.1 (mt List.mem_cons.2 h)
      rw [setEntry, if_neg (Ne.symm hne), ih hrest, List.cons_append]

theorem setEntry_setEntry (key : κ) (v w : α) (entries : List (κ × α)) :
    setEntry key w (setEntry key v entries) = setEntry key w entries := by
  induction entries with
  | nil => simp [setEntry]
  | cons entry rest ih => by_cases hk : entry.1 = key <;> simp [setEntry, hk, ih]

theorem insert_insert (m : OrderedMap κ α) (key : κ) (v w : α) :
    (m.insert key v).insert key w = m.insert key w :=
  ext (setEntry_setEntry key v w m.entries)

/-- A list of entries whose keys are distinct is a map as it is. -/
theorem entries_ofList {entries : List (κ × α)} (h : (entries.map Prod.fst).Nodup) :
    (ofList entries).entries = entries := by
  have hfold : ∀ (rest : List (κ × α)) (m : OrderedMap κ α), (m.keys ++ rest.map Prod.fst).Nodup →
      (rest.foldl (fun m x => m.insert x.1 x.2) m).entries = m.entries ++ rest := by
    intro rest
    induction rest with
    | nil => simp
    | cons entry rest ih =>
        intro m hnodup
        obtain ⟨key, v⟩ := entry
        have hnew : key ∉ m.keys := fun hmem =>
          (List.nodup_append.1 hnodup).2.2 key hmem key (by simp) rfl
        have hkeys : (m.insert key v).keys = m.keys ++ [key] := by rw [keys_insert, if_neg hnew]
        rw [List.foldl_cons, ih _ (by simpa [hkeys] using hnodup)]
        simp [insert, setEntry_of_notMem hnew]
  exact hfold entries empty (by simpa [keys, empty] using h)

/-! ## Changing all values -/

theorem find?_map (m : OrderedMap κ α) (f : κ → α → β) (k : κ) :
    (m.map f).find? k = (m.find? k).map (f k) := by
  unfold find? map
  simp only [List.find?_map, Option.map_map, Function.comp_def]
  cases h : m.entries.find? fun entry => entry.1 == k with
  | none => rfl
  | some entry =>
      have hk : entry.1 = k := by simpa using List.find?_some h
      simp [hk]

theorem setEntry_map {entries : List (κ × α)} (hnodup : (entries.map Prod.fst).Nodup) {key : κ}
    (hkey : key ∈ entries.map Prod.fst) (f : κ → α → β) (w : β) :
    setEntry key w (entries.map fun (k, v) => (k, f k v)) =
      entries.map fun (k, v) => (k, if k = key then w else f k v) := by
  induction entries with
  | nil => exact absurd hkey (by simp)
  | cons entry rest ih =>
      obtain ⟨k, v⟩ := entry
      obtain ⟨hfirst, hrest⟩ := List.nodup_cons.1 hnodup
      by_cases hk : k = key
      · have hsame : rest.map (fun (k, v) => (k, if k = key then w else f k v)) =
            rest.map fun (k, v) => (k, f k v) :=
          List.map_congr_left fun (k', v') hmem => congrArg (k', ·) <| if_neg fun heq =>
            hfirst (List.mem_map.2 ⟨_, hmem, heq.trans hk.symm⟩)
        simp only [List.map_cons, setEntry, if_pos hk, hsame]
        rw [hk]
      · have hmem : key ∈ rest.map Prod.fst := (List.mem_cons.1 hkey).resolve_left (Ne.symm hk)
        simp only [List.map_cons, setEntry, if_neg hk, ih hrest hmem]

theorem insert_map {m : OrderedMap κ α} {key : κ} (hkey : key ∈ m.keys) (f : κ → α → β) (w : β) :
    (m.map f).insert key w = m.map fun k v => if k = key then w else f k v :=
  ext (setEntry_map m.nodup hkey f w)

/-! ## Keys -/

theorem mem_keys {m : OrderedMap κ α} {k : κ} : k ∈ m.keys ↔ ∃ v, m.find? k = some v := by
  unfold keys find?
  simp only [List.mem_map, Option.map_eq_some_iff]
  constructor
  · rintro ⟨entry, he, rfl⟩
    have hsome : (m.entries.find? fun e => e.1 == entry.1).isSome = true := by
      rw [List.find?_isSome]
      exact ⟨entry, he, beq_self_eq_true _⟩
    obtain ⟨e, hfind⟩ := Option.isSome_iff_exists.1 hsome
    exact ⟨e.2, e, hfind, rfl⟩
  · rintro ⟨-, e, hfind, -⟩
    exact ⟨e, List.mem_of_find?_eq_some hfind, by simpa using List.find?_some hfind⟩

theorem find?_eq_none_iff {m : OrderedMap κ α} {k : κ} : m.find? k = none ↔ k ∉ m.keys := by
  rw [mem_keys, not_exists]
  exact Option.eq_none_iff_forall_ne_some

theorem contains_iff {m : OrderedMap κ α} {k : κ} : m.contains k = true ↔ ∃ v, m.find? k = some v := by
  rw [contains, Option.isSome_iff_exists]

/-! ## Entries -/

theorem mem_entries_iff {m : OrderedMap κ α} {k : κ} {v : α} :
    (k, v) ∈ m.entries ↔ m.find? k = some v := by
  unfold find?
  constructor
  · intro h
    have hfind : m.entries.find? (fun entry => entry.1 == k) = some (k, v) := by
      obtain ⟨before, after, hentries⟩ := List.append_of_mem h
      have hnodup := m.nodup
      rw [hentries, List.map_append, List.map_cons, List.nodup_append] at hnodup
      have hbefore : ∀ entry ∈ before, (entry.1 == k) = false := fun entry he =>
        beq_eq_false_iff_ne.2 (hnodup.2.2 _ (List.mem_map_of_mem he) k (by simp))
      rw [hentries, List.find?_append, List.find?_eq_none.2 (by simpa using hbefore)]
      simp
    rw [hfind]
    rfl
  · intro h
    obtain ⟨⟨k', v'⟩, hfind, rfl⟩ := Option.map_eq_some_iff.1 h
    obtain rfl : k' = k := by simpa using List.find?_some hfind
    exact List.mem_of_find?_eq_some hfind

/-- The value of a key is set at its place. -/
theorem exists_entries_insert {m : OrderedMap κ α} {key : κ} {v : α} (h : m.find? key = some v) (w : α) :
    ∃ before after, m.entries = before ++ (key, v) :: after ∧
      (m.insert key w).entries = before ++ (key, w) :: after := by
  obtain ⟨before, after, hentries⟩ := List.append_of_mem (mem_entries_iff.2 h)
  have hnew : key ∉ before.map Prod.fst := by
    have hnodup := m.nodup
    rw [hentries, List.map_append, List.map_cons, List.nodup_append] at hnodup
    exact fun hmem => hnodup.2.2 key hmem key List.mem_cons_self rfl
  refine ⟨before, after, hentries, ?_⟩
  show setEntry key w m.entries = _
  rw [hentries]
  clear hentries
  induction before with
  | nil => simp [setEntry]
  | cons entry before ih =>
      rw [List.map_cons, List.mem_cons, not_or] at hnew
      rw [List.cons_append, List.cons_append, setEntry, if_neg (Ne.symm hnew.1), ih hnew.2]

/-- Maps with the same values have the same entries, in some order. -/
theorem entries_perm {m n : OrderedMap κ α} (h : ∀ k, m.find? k = n.find? k) :
    m.entries.Perm n.entries := by
  refine (List.perm_ext_iff_of_nodup m.nodup_entries n.nodup_entries).2 ?_
  rintro ⟨k, v⟩
  rw [mem_entries_iff, mem_entries_iff, h]

end OrderedMap

end ComponentCatalog
