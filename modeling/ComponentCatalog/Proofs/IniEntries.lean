import ComponentCatalog.Proofs.IniText

/-!
# Entries of sections

What stands in a section itself, without the options that all sections share, and what becomes of it when
options are set and sections laid over others.
-/

namespace ComponentCatalog

namespace Ini

variable {m start : Ini} {group option value g o : Text}

/-- The value that stands in a section itself. -/
def ownValue? (m : Ini) (group option : Text) : Option Text :=
  if group = sharedName then m.shared.find? option else (m.sections.find? group).bind (·.find? option)

/-- The options that all sections share stand behind those of a section. -/
theorem raw?_eq (h : m.sections.contains group = true) (howned : group ≠ sharedName) (option : Text) :
    m.raw? group option = (m.ownValue? group option.lower).or (m.ownValue? sharedName option.lower) := by
  obtain ⟨options, hoptions⟩ := OrderedMap.contains_iff.1 h
  simp [raw?, options?, ownValue?, howned, hoptions]

/-- All sections and options of `m` are there in `n` as well. -/
structure IsPartOf (m n : Ini) : Prop where
  group : ∀ g, m.sections.contains g = true → n.sections.contains g = true
  entry : ∀ g o, (m.ownValue? g o).isSome = true → (n.ownValue? g o).isSome = true

theorem IsPartOf.refl (m : Ini) : m.IsPartOf m := ⟨fun _ => id, fun _ _ => id⟩

theorem IsPartOf.trans {n k : Ini} (h : m.IsPartOf n) (h' : n.IsPartOf k) : m.IsPartOf k where
  group g hg := h'.group g (h.group g hg)
  entry g o ho := h'.entry g o (h.entry g o ho)

/-! ## Setting options -/

theorem ownValue?_put (m : Ini) (group option value g o : Text) :
    (m.put group option value).ownValue? g o =
      if group = g ∧ option.lower = o then some value else m.ownValue? g o := by
  unfold put ownValue?
  by_cases hshared : group = sharedName
  · subst hshared
    by_cases hg : sharedName = g
    · simp [← hg, OrderedMap.find?_insert]
    · simp [hg, Ne.symm hg]
  · by_cases hg : group = g
    · subst hg
      simp only [if_neg hshared, OrderedMap.find?_insert, if_true, Option.bind_some, true_and]
      split
      · rfl
      · cases m.sections.find? group <;> rfl
    · simp [hshared, hg, OrderedMap.find?_insert]

theorem contains_put (m : Ini) (group option value g : Text) : (m.put group option value).sections.contains g = true ↔
    m.sections.contains g = true ∨ group ≠ sharedName ∧ group = g := by
  unfold put
  by_cases hshared : group = sharedName
  · simp [hshared]
  · simp only [if_neg hshared, OrderedMap.contains, OrderedMap.find?_insert]
    by_cases hg : group = g
    · simp [hg, hg ▸ hshared]
    · simp [hg]

theorem ownValue?_addSection (m : Ini) (group g o : Text) : (m.addSection group).ownValue? g o = m.ownValue? g o := by
  unfold addSection
  split
  · rfl
  · next hnew =>
      unfold ownValue?
      by_cases hg : group = g
      · subst hg
        have hnone : m.sections.find? group = none := by simpa [OrderedMap.contains] using hnew
        have hempty : (∅ : Options).find? o = none := rfl
        simp [OrderedMap.find?_insert, hnone, hempty]
      · simp [OrderedMap.find?_insert, hg]

theorem contains_addSection (m : Ini) (group g : Text) : (m.addSection group).sections.contains g = true ↔
    m.sections.contains g = true ∨ group = g := by
  unfold addSection
  split
  · next h => exact ⟨.inl, fun hor => hor.elim id fun heq => heq ▸ h⟩
  · by_cases hg : group = g <;> simp [OrderedMap.contains, OrderedMap.find?_insert, hg]

theorem isPartOf_put (m : Ini) (group option value : Text) : m.IsPartOf (m.put group option value) where
  group g hg := (contains_put m group option value g).2 (.inl hg)
  entry g o ho := by
    rw [ownValue?_put]
    split
    · rfl
    · exact ho

theorem isPartOf_addSection (m : Ini) (group : Text) : m.IsPartOf (m.addSection group) where
  group g hg := (contains_addSection m group g).2 (.inl hg)
  entry g o ho := (ownValue?_addSection m group g o).symm ▸ ho

/-! ## Setting many options -/

/-- The value of a key in a list of entries. -/
def valueOf? {α : Type} : List (Text × α) → Text → Option α
  | [], _ => none
  | entry :: rest, key => if entry.1 = key then some entry.2 else valueOf? rest key

theorem find?_eq_valueOf? {α : Type} (m : OrderedMap Text α) (key : Text) : m.find? key = valueOf? m.entries key := by
  have hentries : ∀ entries : List (Text × α),
      (entries.find? fun entry => @BEq.beq Text instBEqOfDecidableEq entry.1 key).map (·.2) = valueOf? entries key := by
    intro entries
    induction entries with
    | nil => rfl
    | cons entry entries ih =>
        by_cases h : entry.1 = key
        · simp [valueOf?, h]
        · simpa [valueOf?, h] using ih
  exact hentries m.entries

theorem valueOf?_eq_none {α : Type} {entries : List (Text × α)} {key : Text} (h : key ∉ entries.map Prod.fst) :
    valueOf? entries key = none := by
  induction entries with
  | nil => rfl
  | cons entry entries ih =>
      rw [List.map_cons, List.mem_cons, not_or] at h
      rw [valueOf?, if_neg (Ne.symm h.1), ih h.2]

theorem ownValue?_putAll (m : Ini) {options : List (Text × Text)} (hlower : ∀ entry ∈ options, entry.1.lower = entry.1)
    (hnodup : (options.map Prod.fst).Nodup) (group g o : Text) :
    (m.putAll group options).ownValue? g o =
      if group = g then (valueOf? options o).or (m.ownValue? g o) else m.ownValue? g o := by
  induction options generalizing m with
  | nil => simp [putAll, valueOf?]
  | cons entry options ih =>
      obtain ⟨option, value⟩ := entry
      obtain ⟨hfirst, hrest⟩ := List.nodup_cons.1 hnodup
      have hoption : option.lower = option := hlower _ List.mem_cons_self
      have hcons : m.putAll group ((option, value) :: options) = (m.put group option value).putAll group options := rfl
      rw [hcons, ih _ (fun e he => hlower e (List.mem_cons_of_mem _ he)) hrest, ownValue?_put, hoption, valueOf?]
      by_cases hg : group = g
      · by_cases ho : option = o
        · subst ho
          simp [hg, valueOf?_eq_none hfirst]
        · simp [hg, ho]
      · simp [hg]

theorem contains_putAll (m : Ini) (options : List (Text × Text)) (group g : Text) :
    (m.putAll group options).sections.contains g = true ↔
      m.sections.contains g = true ∨ group ≠ sharedName ∧ options ≠ [] ∧ group = g := by
  induction options generalizing m with
  | nil => simp [putAll]
  | cons entry options ih =>
      have hcons : m.putAll group (entry :: options) = (m.put group entry.1 entry.2).putAll group options := rfl
      rw [hcons, ih, contains_put]
      grind

/-! ## Sections laid over others -/

/-- The sections with those of a list laid over them. -/
def withSections (m : Ini) (sections : List (Text × Options)) : Ini :=
  sections.foldl (fun m (group, options) => m.withSection group options.entries) m

theorem withSections_cons (m : Ini) (entry : Text × Options) (sections : List (Text × Options)) :
    m.withSections (entry :: sections) = (m.withSection entry.1 entry.2.entries).withSections sections := rfl

theorem ownValue?_withSections (start : Ini) {sections : List (Text × Options)}
    (hnodup : (sections.map Prod.fst).Nodup)
    (hlower : ∀ group options, (group, options) ∈ sections → ∀ entry ∈ options.entries, entry.1.lower = entry.1)
    (g o : Text) : (start.withSections sections).ownValue? g o =
      ((valueOf? sections g).bind (·.find? o)).or (start.ownValue? g o) := by
  induction sections generalizing start with
  | nil => rfl
  | cons entry sections ih =>
      obtain ⟨group, options⟩ := entry
      obtain ⟨hfirst, hrest⟩ := List.nodup_cons.1 hnodup
      rw [withSections_cons, ih _ hrest fun g os hmem => hlower g os (List.mem_cons_of_mem _ hmem), withSection,
        ownValue?_putAll _ (hlower group options List.mem_cons_self) options.nodup, ownValue?_addSection, valueOf?]
      by_cases hg : group = g
      · subst hg
        simp [valueOf?_eq_none hfirst, find?_eq_valueOf?]
      · simp [hg]

theorem contains_withSections (start : Ini) (sections : List (Text × Options)) (g : Text) :
    (start.withSections sections).sections.contains g = true ↔
      start.sections.contains g = true ∨ g ∈ sections.map Prod.fst := by
  induction sections generalizing start with
  | nil => simp [withSections]
  | cons entry sections ih =>
      rw [withSections_cons, ih, withSection, contains_putAll, contains_addSection, List.map_cons, List.mem_cons]
      grind

theorem contains_iff_mem_keys {g : Text} : m.sections.contains g = true ↔ g ∈ m.sections.keys := by
  rw [OrderedMap.contains_iff, OrderedMap.mem_keys]

theorem contains_overlay (start m : Ini) (g : Text) : (start.overlay m).sections.contains g = true ↔
    start.sections.contains g = true ∨ m.sections.contains g = true := by
  show ((start.putAll sharedName m.shared.entries).withSections m.sections.entries).sections.contains g = true ↔ _
  rw [contains_withSections, contains_putAll, contains_iff_mem_keys (m := m), OrderedMap.keys]
  simp

theorem ownValue?_overlay (start : Ini) (hgroup : ∀ group ∈ m.sections.keys, group ≠ sharedName)
    (hlower : ∀ group option value, m.ownValue? group option = some value → option.lower = option) (g o : Text) :
    (start.overlay m).ownValue? g o = (m.ownValue? g o).or (start.ownValue? g o) := by
  have hshared : ∀ entry ∈ m.shared.entries, entry.1.lower = entry.1 := fun entry hentry =>
    hlower sharedName entry.1 entry.2 (by rw [ownValue?, if_pos rfl]; exact OrderedMap.mem_entries_iff.1 hentry)
  have hsections : ∀ group options, (group, options) ∈ m.sections.entries →
      ∀ entry ∈ options.entries, entry.1.lower = entry.1 := by
    intro group options hmem entry hentry
    refine hlower group entry.1 entry.2 ?_
    rw [ownValue?, if_neg (hgroup group (List.mem_map_of_mem hmem)), OrderedMap.mem_entries_iff.1 hmem]
    exact OrderedMap.mem_entries_iff.1 hentry
  show ((start.putAll sharedName m.shared.entries).withSections m.sections.entries).ownValue? g o = _
  rw [ownValue?_withSections _ m.sections.nodup hsections, ownValue?_putAll _ hshared m.shared.nodup,
    ← find?_eq_valueOf?, ← find?_eq_valueOf?]
  by_cases hg : sharedName = g
  · subst hg
    have hnone : m.sections.find? sharedName = none := by
      rw [Option.eq_none_iff_forall_ne_some]
      exact fun options hoptions => hgroup sharedName (OrderedMap.mem_keys.2 ⟨options, hoptions⟩) rfl
    simp [ownValue?, hnone]
  · simp [ownValue?, hg, Ne.symm hg]

theorem ownValue?_reread (m : Ini) (g o : Text) : m.reread.ownValue? g o = (m.ownValue? g o).map readValue := by
  unfold ownValue? reread
  split
  · exact OrderedMap.find?_map ..
  · rw [OrderedMap.find?_map]
    cases m.sections.find? g with
    | none => rfl
    | some options => exact OrderedMap.find?_map ..

theorem contains_reread (m : Ini) (g : Text) : m.reread.sections.contains g = m.sections.contains g := by
  unfold OrderedMap.contains reread
  rw [OrderedMap.find?_map, Option.isSome_map]

end Ini

end ComponentCatalog
