import ComponentCatalog.Proofs.IniSteps
import ComponentCatalog.Proofs.SmallLetters

/-!
# Lines that stray from their value

Where a line of a value is not read as one of the value, it opens something that was not written: a file
with such a line is refused, or a section or an option is read from it that was not there.
-/

namespace ComponentCatalog

namespace Ini

variable {file group option value : Text} {m : Ini} {r s t : Reading} {line : NumberedLine}
  {lines more rest : List Text}

/-! ## Passing lines -/

/-- A reading passes lines up to the end of a file and becomes another one. -/
def Passes (file : Text) (r : Reading) (lines : List Text) (t : Reading) : Prop :=
  ∃ n, (numberedLines n (lines ++ [[]])).foldlM (Reading.step file) r = .ok t

theorem Passes.cons {line : Text} (h : Passes file r (line :: lines) t) :
    ∃ n s, r.step file ⟨n, line ++ ['\n']⟩ = .ok s ∧ Passes file s lines t := by
  obtain ⟨n, h⟩ := h
  rw [numberedLines_cons] at h
  obtain ⟨s, hstep, hrest⟩ := foldlM_cons_eq_ok h
  exact ⟨n, s, hstep, n + 1, hrest⟩

theorem Passes.grows (h : Passes file r lines t) : r.Grows t := foldlM_grows h.choose_spec

theorem Passes.of_reads (hreads : Reads file r lines s) (h : Passes file r (lines ++ more) t) :
    Passes file s more t := by
  induction hreads with
  | nil => exact h
  | cons hstep _ ih =>
      obtain ⟨n, s, hs, h⟩ := h.cons
      cases (hstep n).symm.trans hs
      exact ih h

theorem Passes.keeps {P : Reading → Prop} (hstep : ∀ (line : NumberedLine) r s, Reading.Takes r line s → P r → P s)
    (hr : P r) (h : Passes file r (lines ++ more) t) : ∃ s, Passes file s more t ∧ P s := by
  induction lines generalizing r with
  | nil => exact ⟨r, h, hr⟩
  | cons line lines ih =>
      obtain ⟨n, s, hs, h⟩ := h.cons
      exact ih (hstep _ r s (step_takes hs) hr) h

/-! ## Readings that are lost -/

/-- A reading has a malformed line, or something that `m` does not have. -/
inductive Reading.IsSpoilt (m : Ini) (r : Reading) : Prop
  | malformed : r.malformed ≠ [] → r.IsSpoilt m
  | group (g : Text) : r.ini.sections.contains g = true → ¬ m.sections.contains g = true → r.IsSpoilt m
  | entry (g o : Text) : (r.ini.ownValue? g o).isSome = true → ¬ (m.ownValue? g o).isSome = true → r.IsSpoilt m

/-- A section that is already read is yet to come. -/
def Reading.IsDoomed (r : Reading) (rest : List Text) : Prop :=
  ∃ g, IsGroupName g ∧ g ∈ r.seenSections ∧ headerLine g ∈ rest

/-- No way leads back from a reading to what was written. -/
def Reading.IsLost (m : Ini) (rest : List Text) (r : Reading) : Prop := r.IsSpoilt m ∨ r.IsDoomed rest

theorem Reading.IsSpoilt.grows (h : r.IsSpoilt m) (hgrows : r.Grows s) : s.IsSpoilt m := by
  cases h with
  | malformed hne => exact .malformed (hgrows.malformed hne)
  | group g hg hnew => exact .group g (hgrows.ini.group g hg) hnew
  | entry g o ho hnew => exact .entry g o (hgrows.ini.entry g o ho) hnew

theorem Reading.IsLost.grows (h : r.IsLost m rest) (hgrows : r.Grows s) : s.IsLost m rest := by
  rcases h with hspoilt | ⟨g, hname, hseen, hrest⟩
  · exact .inl (hspoilt.grows hgrows)
  · exact .inr ⟨g, hname, hgrows.sections hseen, hrest⟩

theorem not_passes_of_isDoomed (h : r.IsDoomed rest) : ¬ Passes file r rest t := by
  obtain ⟨g, hname, hseen, hrest⟩ := h
  intro hpasses
  obtain ⟨before, after, rfl⟩ := List.append_of_mem hrest
  obtain ⟨s, hs, hgrows⟩ := hpasses.keeps (P := r.Grows) (fun _ _ _ htakes hr => hr.trans htakes.grows) (.refl r)
  obtain ⟨n, _, hstep, -⟩ := hs.cons
  have hagain : s.seenSections.contains g = true := List.contains_iff_mem.2 (hgrows.sections hseen)
  rw [step_headerLine file s hname.nonempty, Reading.openSection, if_neg hname.owned] at hstep
  simp only [hagain] at hstep
  cases hstep

theorem Passes.spoilt (h : Passes file r (lines ++ rest) t) (hlost : r.IsLost m rest) : t.IsSpoilt m := by
  obtain ⟨s, hs, hspoilt | hdoomed⟩ := h.keeps (P := fun s => s.IsLost m rest)
    (fun _ _ _ htakes hr => hr.grows htakes.grows) hlost
  · exact hspoilt.grows hs.grows
  · exact absurd hs (not_passes_of_isDoomed hdoomed)

/-! ## What a line can begin -/

/-- A reading has read the shared options of `m`, and all sections but those that are yet to come. -/
structure Reading.Knows (m : Ini) (rest : List Text) (r : Reading) : Prop where
  shared : ∀ o, (m.ownValue? sharedName o).isSome = true → (sharedName, o) ∈ r.seenOptions
  sections : ∀ g, m.sections.contains g = true → IsGroupName g ∧ (g ∈ r.seenSections ∨ headerLine g ∈ rest)

theorem Reading.Knows.grows (h : r.Knows m rest) (hgrows : r.Grows s) : s.Knows m rest where
  shared o ho := hgrows.options (h.shared o ho)
  sections g hg := ⟨(h.sections g hg).1, (h.sections g hg).2.imp (hgrows.sections ·) id⟩

/-- What a line begins is lost, the section of the shared options, or an option that `m` has and that was
not read yet. -/
theorem Reading.Begins.cases (h : r.Begins line s) (hknows : r.Knows m rest) :
    s.IsLost m rest ∨
    header? line.text.trim = some sharedName ∧ s.current? = some sharedName ∧ s.option? = none ∨
    ∃ g o, g ≠ sharedName ∧ r.current? = some g ∧ s.current? = some g ∧ (g, o) ∉ r.seenOptions ∧
      (g, o) ∈ s.seenOptions ∧ (m.ownValue? g o).isSome = true := by
  cases h with
  | shared indent hheader => exact .inr (.inl ⟨hheader, rfl, rfl⟩)
  | @header g indent hheader howned hnew =>
      refine .inl ?_
      by_cases hg : m.sections.contains g = true
      · obtain ⟨hname, hseen | hrest⟩ := hknows.sections g hg
        · exact absurd hseen hnew
        · exact .inr ⟨g, hname, List.mem_cons_self, hrest⟩
      · exact .inl (.group g ((contains_addSection ..).2 (.inr rfl)) hg)
  | malformed indent seenOptions option? hseen hoption => exact .inl (.inl (.malformed (by simp)))
  | @option g name value indent hcurrent hheader hassignment hne hnew =>
      by_cases ho : (m.ownValue? g name.lower).isSome = true
      · refine .inr (.inr ⟨g, name.lower, ?_, hcurrent, hcurrent, hnew, List.mem_cons_self, ho⟩)
        rintro rfl
        exact hnew (hknows.shared _ ho)
      · refine .inl (.inl (.entry g name.lower ?_ ho))
        simp only [Reading.extend, ownValue?_put, Text.lower_lower, and_self, if_true, Option.isSome_some]

/-! ## Readings on a wrong way -/

/-- The option `o` is bound to be refused, or to be read in the section of the shared options. -/
def Reading.IsAstray (r : Reading) (group o : Text) : Prop :=
  r.current? = some sharedName ∨ r.current? = some group ∧ (group, o) ∈ r.seenOptions

/-- What follows are lines of the section of the shared options. -/
def Reading.IsOpened (r : Reading) : Prop := r.current? = some sharedName ∧ r.option? = none

theorem Reading.Takes.astray {o : Text} (h : r.Takes line s) (hknows : r.Knows m rest) (hastray : r.IsAstray group o) :
    s.IsLost m rest ∨ s.IsAstray group o := by
  cases h with
  | skip => exact .inr hastray
  | more hcurrent hoption hcomment => exact .inr hastray
  | begins hcomment hne hbegins =>
      obtain hlost | ⟨-, hshared, -⟩ | ⟨g, o', howned, hcurrent, hcurrent', -⟩ := hbegins.cases hknows
      · exact .inl hlost
      · exact .inr (.inl hshared)
      · refine .inr (hastray.imp (fun hshared => ?_) fun hgroup => ?_)
        · exact absurd (Option.some.inj (hcurrent.symm.trans hshared)) howned
        · exact ⟨hcurrent'.trans (hcurrent.symm.trans hgroup.1), hbegins.grows.options hgroup.2⟩

theorem Reading.Takes.opened (h : r.Takes line s) (hknows : r.Knows m rest) (hopened : r.IsOpened) :
    s.IsLost m rest ∨ s.IsOpened ∧ (isComment line.text.trim || line.text.trim.isEmpty ||
      header? line.text.trim == some sharedName) = true := by
  cases h with
  | skip hskip => exact .inr ⟨hopened, by rw [hskip, Bool.true_or]⟩
  | more hcurrent hoption hcomment => exact absurd (hoption.symm.trans hopened.2) (Option.some_ne_none _)
  | begins hcomment hne hbegins =>
      obtain hlost | ⟨hheader, hcurrent, hoption⟩ | ⟨g, o, howned, hcurrent, -⟩ := hbegins.cases hknows
      · exact .inl hlost
      · exact .inr ⟨⟨hcurrent, hoption⟩, by simp [hheader]⟩
      · exact absurd (Option.some.inj (hcurrent.symm.trans hopened.1)) howned

/-- The first line of an option that is refused, or read in the section of the shared options. -/
theorem Passes.spoilt_of_optionLine {o v : Text} (hentry : IsEntry o v) (h : Passes file r
      ((o ++ " = " ++ (valueLines v).headD []) :: lines ++ rest) t)
    (hknows : r.Knows m rest) (hastray : r.IsAstray group o) : t.IsSpoilt m := by
  obtain ⟨n, s, hstep, hs⟩ := h.cons
  rcases hastray with hshared | ⟨hcurrent, hseen⟩
  · rw [step_optionLine file hshared hentry] at hstep
    split at hstep
    · cases hstep
    · next hnew =>
        cases hstep
        refine hs.spoilt (.inl (.entry sharedName o ?_ fun ho => hnew ?_))
        · simp [ownValue?_put, hentry.lower]
        · exact List.contains_iff_mem.2 (hknows.shared o ho)
  · rw [step_optionLine file hcurrent hentry, if_pos (List.contains_iff_mem.2 hseen)] at hstep
    cases hstep

theorem Passes.spoilt_of_astray {o : Text} {back : List (Text × Text)} (h : Passes file r
      (lines ++ (back.flatMap (fun (option, value) => optionLines option value) ++ rest)) t)
    (hentry : ∀ option value, (option, value) ∈ back → IsEntry option value) (ho : o ∈ back.map Prod.fst)
    (hknows : r.Knows m rest) (hastray : r.IsAstray group o) : t.IsSpoilt m := by
  obtain ⟨⟨o, v⟩, hmem, rfl⟩ := List.mem_map.1 ho
  obtain ⟨before, after, rfl⟩ := List.append_of_mem hmem
  rw [List.flatMap_append, List.flatMap_cons, ← List.append_assoc, ← List.append_assoc, List.append_assoc] at h
  -- The lines in front of `o` do not matter: each of them leaves the reading astray, or has it lost.
  obtain ⟨s, hs, hsknows, hor⟩ := h.keeps
    (P := fun s => s.Knows m rest ∧ (s.IsLost m rest ∨ s.IsAstray group o))
    (fun _ _ _ htakes ⟨hk, hor⟩ => ⟨hk.grows htakes.grows, hor.elim (fun hlost => .inl (hlost.grows htakes.grows))
      fun hastray => htakes.astray hk hastray⟩) ⟨hknows, .inr hastray⟩
  rcases hor with hlost | hastray
  · exact hs.spoilt hlost
  · exact Passes.spoilt_of_optionLine (hentry o v hmem) hs hsknows hastray

/-- In the section of the shared options, nothing but empty lines, comments, and headers of that section
leads back to what was written. -/
theorem Passes.spoilt_of_opened (h : Passes file r (lines ++ rest) t) (hknows : r.Knows m rest)
    (hopened : r.IsOpened) (hline : ∃ line ∈ lines, opensNothing line = false) : t.IsSpoilt m := by
  induction lines generalizing r with
  | nil => simp at hline
  | cons line lines ih =>
      obtain ⟨n, s, hstep, hs⟩ := h.cons
      have htakes := step_takes hstep
      rcases htakes.opened hknows hopened with hlost | ⟨hsopened, hnothing⟩
      · exact hs.spoilt hlost
      · rw [trim_feed] at hnothing
        obtain ⟨l, hl, hopens⟩ := hline
        rcases List.mem_cons.1 hl with rfl | hl
        · rw [opensNothing, hnothing] at hopens
          cases hopens
        · exact ih hs (hknows.grows htakes.grows) hsopened ⟨l, hl, hopens⟩

/-! ## Stray lines -/

/-- Behind the first stray line of a value, in a section of which only the options of `back` are not read
yet. -/
theorem Passes.spoilt_of_strayLines {back : List (Text × Text)} (h : Passes file r
      (strayLines value ++ (back.flatMap (fun (option, value) => optionLines option value) ++ rest)) t)
    (hentry : ∀ option value, (option, value) ∈ back → IsEntry option value)
    (hknows : r.Knows m rest) (hcurrent : r.current? = some group)
    (hseen : ∀ o, (m.ownValue? group o).isSome = true → (group, o) ∈ r.seenOptions ∨ o ∈ back.map Prod.fst)
    (hstray : strayLines value ≠ []) (hlast : back = [] → ∃ line ∈ strayLines value, opensNothing line = false) :
    t.IsSpoilt m := by
  obtain ⟨first, lines, hlines⟩ := List.exists_cons_of_ne_nil hstray
  rw [hlines] at h hlast
  rw [List.cons_append] at h
  obtain ⟨n, s, hstep, hs⟩ := h.cons
  rw [step_fresh file r (isContinued_of_strayLines hlines), ← trim_feed] at hstep
  have hbegins : r.Begins ⟨n, first ++ ['\n']⟩ s := fresh_begins hstep
  have hsknows := hknows.grows hbegins.grows
  obtain hlost | ⟨hheader, hshared, hoption⟩ | ⟨g, o, howned, hg, hsg, hnew, hread, ho⟩ := hbegins.cases hknows
  · rw [← List.append_assoc] at hs
    exact hs.spoilt hlost
  · -- It opens the section of the shared options. That does no harm only if nothing follows but lines that
    -- open nothing.
    cases back with
    | nil =>
        obtain ⟨line, hmem, hopens⟩ := hlast rfl
        refine Passes.spoilt_of_opened hs hsknows ⟨hshared, hoption⟩ ?_
        rcases List.mem_cons.1 hmem with rfl | hmem
        · rw [trim_feed] at hheader
          simp [opensNothing, hheader] at hopens
        · exact ⟨line, hmem, hopens⟩
    | cons entry back =>
        have hastray : s.IsAstray group entry.1 := .inl hshared
        exact Passes.spoilt_of_astray hs hentry (List.mem_map_of_mem List.mem_cons_self) hsknows hastray
  · -- It is read as an option that `m` has too, so that this option comes a second time.
    cases hg.symm.trans hcurrent
    have hback : o ∈ back.map Prod.fst := (hseen o ho).resolve_left hnew
    exact Passes.spoilt_of_astray hs hentry hback hsknows (.inr ⟨hsg, hread⟩)

/-! ## A value with stray lines -/

/-- The lines in front of the options of a section. -/
def linesBefore (m : Ini) (before : List (Text × Options)) (group : Text) : List Text :=
  (if m.shared.entries.isEmpty then [] else sectionLines sharedName m.shared) ++
    (before.flatMap (fun (group, options) => sectionLines group options) ++ [headerLine group])

/-- The lines of options up to the first stray line of a value. -/
def linesWithin (front : List (Text × Text)) (option value : Text) : List Text :=
  front.flatMap (fun (option, value) => optionLines option value) ++
    ((option ++ " = " ++ (valueLines value).headD []) :: (valueLines value).tail.takeWhile isContinued)

theorem reads_linesBefore (file : Text) (start : Ini) {before : List (Text × Options)} (hm : IsReadable m)
    (hsub : ∀ g os, (g, os) ∈ before → (g, os) ∈ m.sections.entries) (hnodup : (before.map Prod.fst).Nodup)
    (hgroup : IsGroupName group) (hnew : group ∉ before.map Prod.fst)
    (hshared : Fits m.shared.entries) (hbefore : ∀ g os, (g, os) ∈ before → Fits os.entries) :
    ∃ r, Reads file { ini := start } (linesBefore m before group) r ∧
      r.current? = some group ∧ r.option? = none ∧ (∀ g, g ∈ r.seenSections ↔ g = group ∨ g ∈ before.map Prod.fst) ∧
      (∀ o ∈ m.shared.keys, (sharedName, o) ∈ r.seenOptions) ∧ ∀ o, (group, o) ∉ r.seenOptions := by
  obtain ⟨r₀, hr₀, -, hnone, hseen₀, -⟩ := reads_shared file start hm.shared hshared
  have horderly : r₀.IsOrderly := by
    intro x hx
    obtain ⟨o, -, rfl⟩ := (hseen₀ x).1 hx
    exact .inl rfl
  obtain ⟨r₁, hr₁, -, horderly₁, hsections₁, hseen₁, -⟩ := reads_sections file horderly hnodup
    (fun g _ => by simp [hnone]) (fun g os hentry => hm.group g os (hsub g os hentry))
    (fun g os hentry => hm.option g os (hsub g os hentry)) hbefore
  have hread : ∀ g, g ∈ r₁.seenSections ↔ g ∈ before.map Prod.fst := fun g => by simp [hsections₁, hnone]
  have hheader := step_header file r₁ hgroup fun hold => hnew ((hread group).1 hold)
  refine ⟨_, hr₀.append (hr₁.append (.cons hheader (.nil _))), rfl, rfl, fun g => ?_, fun o ho => ?_, fun o ho => ?_⟩
  · rw [List.mem_cons, hread]
  · exact hseen₁ ((hseen₀ _).2 ⟨o, ho, rfl⟩)
  · exact (horderly₁ _ ho).elim hgroup.owned fun hold => hnew ((hread group).1 hold)

theorem reads_linesWithin (file : Text) {r : Reading} {front back : List (Text × Text)}
    (hcurrent : r.current? = some group) (hoption : r.option? = none) (hnone : ∀ o, (group, o) ∉ r.seenOptions)
    (hentry : ∀ o v, (o, v) ∈ front ++ (option, value) :: back → IsEntry o v)
    (hnodup : ((front ++ (option, value) :: back).map Prod.fst).Nodup)
    (hfront : ∀ entry ∈ front, strayLines entry.2 = []) :
    ∃ s, Reads file r (linesWithin front option value) s ∧
      s.current? = some group ∧ s.seenSections = r.seenSections ∧ r.seenOptions ⊆ s.seenOptions ∧
      ∀ o, o ∈ (front ++ [(option, value)]).map Prod.fst → (group, o) ∈ s.seenOptions := by
  rw [List.map_append, List.map_cons, List.nodup_append] at hnodup
  obtain ⟨hfrontNodup, -, hapart⟩ := hnodup
  obtain ⟨s, hs, htook, hscurrent, -⟩ := reads_options file hcurrent (Reading.isIdle_of_none hoption)
    (fun o v hmem => hentry o v (List.mem_append_left _ hmem)) hfront hfrontNodup fun o _ => hnone o
  have hnew : (group, option) ∉ s.seenOptions := by
    rw [htook.seen]
    rintro (hold | ⟨o, ho, heq⟩)
    · exact hnone option hold
    · exact hapart o ho option List.mem_cons_self (Prod.mk.inj heq).2.symm
  have hlines := reads_entry file hscurrent (hentry option value (by simp)) hnew
  have hall := htook.append (s.took_behind group option value)
  exact ⟨_, hs.append hlines, hscurrent, hall.sections, fun x hx => (hall.seen x).2 (.inl hx),
    fun o ho => (hall.seen _).2 (.inr ⟨o, ho, rfl⟩)⟩

section Stray

variable {start n : Ini} {options : Options} {before after : List (Text × Options)} {front back : List (Text × Text)}

theorem textLines_of_entries (hsections : m.sections.entries = before ++ (group, options) :: after)
    (hoptions : options.entries = front ++ (option, value) :: back) :
    textLines m = linesBefore m before group ++ (linesWithin front option value ++ (strayLines value ++
      (back.flatMap (fun (option, value) => optionLines option value) ++
        [] :: after.flatMap fun (group, options) => sectionLines group options))) := by
  have hsection : sectionLines group options = headerLine group :: (linesWithin front option value ++
      (strayLines value ++ (back.flatMap (fun (option, value) => optionLines option value) ++ [[]]))) := by
    rw [sectionLines, hoptions, List.flatMap_append, List.flatMap_cons]
    show headerLine group :: (_ ++ (optionLines option value ++ _)) ++ [[]] = _
    rw [optionLines_eq]
    simp [linesWithin]
  rw [textLines, hsections, List.flatMap_append, List.flatMap_cons]
  show _ ++ (_ ++ (sectionLines group options ++ _)) = _
  rw [hsection]
  simp [linesBefore]

/-- Up to the first stray line, all is read as it was written. -/
theorem reads_upToStray (file : Text) (start : Ini) (hm : IsReadable m)
    (hsections : m.sections.entries = before ++ (group, options) :: after)
    (hoptions : options.entries = front ++ (option, value) :: back)
    (hshared : Fits m.shared.entries) (hbefore : ∀ g os, (g, os) ∈ before → Fits os.entries)
    (hfront : ∀ entry ∈ front, strayLines entry.2 = []) :
    ∃ s, Reads file { ini := start } (linesBefore m before group ++ linesWithin front option value) s ∧
      s.Knows m ([] :: after.flatMap fun (group, options) => sectionLines group options) ∧
      s.current? = some group ∧
      ∀ o, (m.ownValue? group o).isSome = true → (group, o) ∈ s.seenOptions ∨ o ∈ back.map Prod.fst := by
  have hmem : ∀ entry, entry ∈ before ++ (group, options) :: after → entry ∈ m.sections.entries :=
    fun entry hentry => hsections ▸ hentry
  have hgroupMem : (group, options) ∈ m.sections.entries := hmem _ (by simp)
  have hgroup : IsGroupName group := hm.group group options hgroupMem
  have hentry := hm.option group options hgroupMem
  have hkeys := m.sections.nodup
  have hoptionKeys := options.nodup
  rw [hsections, List.map_append, List.map_cons, List.nodup_append] at hkeys
  rw [hoptions] at hentry hoptionKeys
  obtain ⟨r, hr, hcurrent, hoption, hrsections, hrshared, hrnone⟩ := reads_linesBefore file start hm
    (fun g os hentry => hmem _ (List.mem_append_left _ hentry)) hkeys.1 hgroup
    (fun hold => hkeys.2.2 group hold group List.mem_cons_self rfl) hshared hbefore
  obtain ⟨s, hs, hscurrent, hssections, hsgrows, hsseen⟩ :=
    reads_linesWithin file hcurrent hoption hrnone hentry hoptionKeys hfront
  refine ⟨s, hr.append hs, ⟨fun o ho => ?_, fun g hg => ?_⟩, hscurrent, fun o ho => ?_⟩
  · rw [ownValue?, if_pos rfl] at ho
    exact hsgrows (hrshared o (OrderedMap.mem_keys.2 (Option.isSome_iff_exists.1 ho)))
  · obtain ⟨os, hos⟩ := OrderedMap.contains_iff.1 hg
    have hentries := OrderedMap.mem_entries_iff.2 hos
    refine ⟨hm.group g os hentries, ?_⟩
    rw [hssections, hrsections]
    rw [hsections, List.mem_append, List.mem_cons] at hentries
    rcases hentries with hold | heq | hyet
    · exact .inl (.inr (List.mem_map_of_mem hold))
    · exact .inl (.inl (Prod.mk.inj heq).1)
    · exact .inr (List.mem_cons_of_mem _ (List.mem_flatMap.2 ⟨_, hyet, List.mem_cons_self⟩))
  · rw [ownValue?, if_neg hgroup.owned, OrderedMap.mem_entries_iff.1 hgroupMem] at ho
    have hkey : o ∈ options.keys := OrderedMap.mem_keys.2 (Option.isSome_iff_exists.1 ho)
    rw [OrderedMap.keys, hoptions, List.append_cons, List.map_append, List.mem_append] at hkey
    exact hkey.imp (hsseen o) id

theorem exists_passes_of_read (hm : HasNames m) (hread : start.read file (Utf8.encode m.text) = .ok n) :
    ∃ t, Passes file { ini := start } (textLines m) t ∧ t.malformed = [] ∧ t.ini = n := by
  rw [read_lines start hm] at hread
  cases hfold : (numberedLines 1 (textLines m ++ [[]])).foldlM (Reading.step file) { ini := start } with
  | error e =>
      rw [hfold] at hread
      cases hread
  | ok t =>
      simp only [hfold] at hread
      split at hread
      · next hempty =>
          cases hread
          exact ⟨t, ⟨1, hfold⟩, List.isEmpty_iff.1 hempty, rfl⟩
      · cases hread

/-- Where the lines of all values stay with them up to a value with a stray line, what is read of the text
has something more. -/
theorem read_text_stray (hm : IsReadable m)
    (hsections : m.sections.entries = before ++ (group, options) :: after)
    (hoptions : options.entries = front ++ (option, value) :: back)
    (hshared : Fits m.shared.entries) (hbefore : ∀ g os, (g, os) ∈ before → Fits os.entries)
    (hfront : ∀ entry ∈ front, strayLines entry.2 = [])
    (hstray : strayLines value ≠ []) (hlast : back = [] → ∃ line ∈ strayLines value, opensNothing line = false)
    (hread : start.read file (Utf8.encode m.text) = .ok n) :
    (∃ g, n.sections.contains g = true ∧ ¬ m.sections.contains g = true) ∨
      ∃ g o, (n.ownValue? g o).isSome = true ∧ ¬ (m.ownValue? g o).isSome = true := by
  obtain ⟨s, hs, hknows, hcurrent, hseen⟩ :=
    reads_upToStray file start hm hsections hoptions hshared hbefore hfront
  obtain ⟨t, hpasses, hempty, rfl⟩ := exists_passes_of_read hm.hasNames hread
  have hentry : ∀ o v, (o, v) ∈ back → IsEntry o v := fun o v hmem => by
    have hgroup : (group, options) ∈ m.sections.entries := hsections ▸ List.mem_append_right _ List.mem_cons_self
    exact hm.option group options hgroup o v
      (hoptions ▸ List.mem_append_right _ (List.mem_cons_of_mem _ hmem))
  rw [textLines_of_entries hsections hoptions, ← List.append_assoc] at hpasses
  have hspoilt := (hpasses.of_reads hs).spoilt_of_strayLines hentry hknows hcurrent hseen hstray hlast
  cases hspoilt with
  | malformed hne => exact absurd hempty hne
  | group g hg hnew => exact .inl ⟨g, hg, hnew⟩
  | entry g o ho hnew => exact .inr ⟨g, o, ho, hnew⟩

end Stray

end Ini

end ComponentCatalog
