import ComponentCatalog.Proofs.FencedBlocks
import ComponentCatalog.Proofs.Tables

/-!
# The lines of sections

The lines of a text are cut where sections begin: at the lines of headings with a title that stand outside
of fences. What stands between two cuts is the content of a section, fences and fenced lines included, and
what stands above the first cut belongs to no section.
-/

namespace ComponentCatalog

namespace Markdown

variable {line : Text} {above ls before : List Text} {h : Heading} {f : Bool}

/-- A line with these lines above it stands outside of fences if an even number of them are fences. -/
def IsOutside (above : List Text) : Prop := Even (above.countP isFence)

/-- A heading with a title begins a section outside of fences. -/
def BeginsSection (above : List Text) (line : Text) : Prop :=
  IsOutside above ∧ ∃ h : HeadingLine, h.text = line

/-- The heading of a section and the lines below it up to the next one. -/
structure SectionLines where
  head : HeadingLine
  body : List Text

/-- The lines of a part as they stand in the text. -/
def SectionLines.lines (s : SectionLines) : List Text := s.head.text :: s.body

/-- The section that a part is: its heading, and the lines below without the blanks around them. -/
def SectionLines.toSection (s : SectionLines) : Section :=
  ⟨s.head.heading.title, Text.trim (Text.join ['\n'] s.body), s.head.heading.level⟩

/-- The line below `above` is the first one of a part, if the parts follow `before`. -/
def EndsAtPart (before : List Text) (parts : List SectionLines) (above : List Text) : Prop :=
  ∃ done part rest, parts = done ++ part :: rest ∧ above = before ++ done.flatMap SectionLines.lines

/-- Lines are cut into those before the first part and the parts, which begin exactly where `begins`
says so of a line and the lines above it. -/
structure IsCut (begins : List Text → Text → Prop) (ls before : List Text) (parts : List SectionLines) :
    Prop where
  eq_append : ls = before ++ parts.flatMap SectionLines.lines
  begins_iff : ∀ above line below, ls = above ++ line :: below →
    (begins above line ↔ EndsAtPart before parts above)

/-! ## Lines of headings -/

theorem closes_of_headingTitle {t closing : Text} (ht : t = headingTitle t ++ closing) :
    Closes (headingTitle t) closing := by
  obtain ⟨tail, htail, hblank⟩ := Text.exists_dropEndWhile isBlank t
  have hright : t = t.trimRight ++ tail := htail
  rcases headingTitle_cases t with htitle | ⟨gap, marks, htitle, hgap, hmarks, hne, hne'⟩
  · have happend : headingTitle t ++ tail = headingTitle t ++ closing := by rw [← ht, htitle, ← hright]
    obtain rfl := List.append_cancel_left happend
    refine .blanks hblank ?_
    rintro ⟨front, gap, marks, hclosed, hgap, hmarks, hne, hne'⟩
    -- The marks would have been taken off the title.
    have hnil : ∀ c ∈ ([] : Text), isBlank c = true := by simp
    have hshort := headingTitle_append (t := front) hgap hmarks hnil hne hne'
    rw [List.append_nil, ← hclosed, htitle, headingTitle_trimRight, htitle] at hshort
    have hlength := congrArg List.length (htitle ▸ hclosed)
    have hle : front.trimRight.length ≤ front.length := (List.rdropWhile_prefix ..).length_le
    have hpos : 0 < gap.length := List.length_pos_iff.2 hne
    rw [hshort] at hlength
    simp only [List.length_append] at hlength
    omega
  · have happend : headingTitle t ++ (gap ++ marks ++ tail) = headingTitle t ++ closing := by
      rw [← ht, ← List.append_assoc, ← List.append_assoc, ← htitle, ← hright]
    obtain rfl := List.append_cancel_left happend
    exact .marks hgap hmarks hblank hne hne'

theorem sectionHeading?_eq_some_iff :
    sectionHeading? line = some h ↔ ∃ l : HeadingLine, l.heading = h ∧ l.text = line := by
  constructor
  · intro hline
    obtain ⟨hheading, htitle⟩ := Option.filter_eq_some_iff.1 hline
    obtain ⟨c, r, rfl, hc, hlow, hhigh, heq⟩ := exists_of_heading? hheading
    obtain ⟨closing, hclosing⟩ := headingTitle_isPrefix (r.dropWhile isBlank)
    let gap := c :: r.takeWhile isBlank
    refine ⟨⟨h, gap, closing, hlow, hhigh, List.cons_ne_nil _ _, ?_, ?_, trim_title hheading, ?_⟩, rfl, ?_⟩
    · exact List.forall_mem_cons.2 ⟨hc, fun d hd => List.mem_takeWhile_imp hd⟩
    · simpa using htitle
    · exact heq ▸ closes_of_headingTitle hclosing.symm
    · simp [HeadingLine.text, gap, heq, hclosing]
  · rintro ⟨l, rfl, rfl⟩
    exact sectionHeading?_text l

/-! ## One line -/

theorem isOutside_concat : IsOutside (above ++ [line]) ↔ (IsOutside above ↔ isFence line = false) := by
  cases hline : isFence line <;> simp [IsOutside, hline, Nat.even_add_one]

theorem inFence_concat (hf : f = false ↔ IsOutside above) :
    (f != isFence line) = false ↔ IsOutside (above ++ [line]) := by
  rw [isOutside_concat, ← hf]
  cases f <;> cases isFence line <;> simp

theorem beginsSection_iff (hf : f = false ↔ IsOutside above) :
    BeginsSection above line ↔
      (if f != isFence line then none else sectionHeading? line).isSome = true := by
  constructor
  · rintro ⟨hout, l, rfl⟩
    have hread := sectionHeading?_text l
    simp [hf.2 hout, isFence_of_sectionHeading? hread, hread]
  · intro hsome
    split at hsome
    · cases hsome
    · next hfence =>
        obtain ⟨h, hread⟩ := Option.isSome_iff_exists.1 hsome
        obtain ⟨l, -, hline⟩ := sectionHeading?_eq_some_iff.1 hread
        rw [isFence_of_sectionHeading? hread] at hfence
        exact ⟨hf.1 (by simpa using hfence), l, hline⟩

/-! ## Cuts line by line -/

variable {part : SectionLines} {parts : List SectionLines} {begins : List Text → Text → Prop}

theorem not_endsAtPart_nil : ¬ EndsAtPart (line :: before) parts [] := by
  rintro ⟨done, part, rest, -, habove⟩
  cases habove

theorem endsAtPart_cons_iff :
    EndsAtPart (line :: before) parts (line :: above) ↔ EndsAtPart before parts above := by
  simp [EndsAtPart]

theorem endsAtPart_nil : EndsAtPart [] (part :: parts) [] := ⟨[], part, parts, rfl, rfl⟩

theorem endsAtPart_part_iff :
    EndsAtPart [] (part :: parts) (part.head.text :: above) ↔ EndsAtPart part.body parts above := by
  constructor
  · rintro ⟨done, next, rest, hparts, habove⟩
    cases done with
    | nil => cases habove
    | cons first done =>
        obtain ⟨rfl, rfl⟩ := List.cons.inj hparts
        exact ⟨done, next, rest, rfl, (List.cons.inj habove).2⟩
  · rintro ⟨done, next, rest, rfl, rfl⟩
    exact ⟨part :: done, next, rest, rfl, rfl⟩

theorem forall_places_cons {P : List Text → Text → Prop} :
    (∀ above next below, line :: ls = above ++ next :: below → P above next) ↔
      P [] line ∧ ∀ above next below, ls = above ++ next :: below → P (line :: above) next := by
  constructor
  · intro h
    exact ⟨h [] line ls rfl, fun above next below hls => h (line :: above) next below (by rw [hls]; rfl)⟩
  · rintro ⟨hfirst, hrest⟩ above next below hls
    cases above with
    | nil =>
        obtain ⟨rfl, -⟩ := List.cons.inj hls
        exact hfirst
    | cons first above =>
        obtain ⟨rfl, hbelow⟩ := List.cons.inj hls
        exact hrest above next below hbelow

theorem isCut_iff : IsCut begins ls before parts ↔ ls = before ++ parts.flatMap SectionLines.lines ∧
    ∀ above line below, ls = above ++ line :: below → (begins above line ↔ EndsAtPart before parts above) :=
  ⟨fun h => ⟨h.eq_append, h.begins_iff⟩, fun h => ⟨h.1, h.2⟩⟩

/-- A line before the first part begins none. -/
theorem isCut_cons_iff : IsCut begins (line :: ls) (line :: before) parts ↔
    ¬ begins [] line ∧ IsCut (fun above => begins (line :: above)) ls before parts := by
  rw [isCut_iff, isCut_iff, forall_places_cons, iff_false_right not_endsAtPart_nil, List.cons_append,
    List.cons_inj_right]
  simp only [endsAtPart_cons_iff]
  exact and_left_comm

/-- The first part takes all lines up to the next one. -/
theorem isCut_part_iff : IsCut begins (part.head.text :: ls) [] (part :: parts) ↔
    begins [] part.head.text ∧ IsCut (fun above => begins (part.head.text :: above)) ls part.body parts := by
  rw [isCut_iff, isCut_iff, forall_places_cons, iff_true_right endsAtPart_nil, List.nil_append,
    List.flatMap_cons, SectionLines.lines, List.cons_append, List.cons_inj_right]
  simp only [endsAtPart_part_iff]
  exact and_left_comm

/-! ## The cut that sections are read from -/

theorem beginsBelow_cons (front : List Text) (line : Text) :
    (fun above => BeginsSection (front ++ line :: above)) =
      fun above => BeginsSection (front ++ [line] ++ above) := by
  funext above
  rw [List.append_assoc, List.singleton_append]

theorem exists_isCut (hf : f = false ↔ IsOutside above) (ls : List Text) :
    ∃ parts, IsCut (fun above' => BeginsSection (above ++ above')) ls (splitSections f ls).1 parts := by
  induction ls generalizing f above with
  | nil => exact ⟨[], rfl, by simp⟩
  | cons line ls ih =>
      have hbegins : BeginsSection (above ++ []) line ↔ _ :=
        (List.append_nil above).symm ▸ beginsSection_iff hf
      have hnext : (f != isFence line) = false ↔ IsOutside (above ++ [line]) := inFence_concat hf
      obtain ⟨parts, hcut⟩ := ih hnext
      rw [← beginsBelow_cons] at hcut
      rw [splitSections]
      dsimp only
      cases hread : (if (f != isFence line) = true then none else sectionHeading? line) with
      | none =>
          refine ⟨parts, isCut_cons_iff.2 ⟨?_, hcut⟩⟩
          rw [hbegins, hread]
          exact Bool.false_ne_true
      | some h =>
          have hbegin := hbegins.2 (by rw [hread]; rfl)
          obtain ⟨l, rfl⟩ := hbegin.2
          let part : SectionLines := ⟨l, (splitSections (f != isFence l.text) ls).1⟩
          have hpart : IsCut (fun above' => BeginsSection (above ++ above')) (part.head.text :: ls) []
              (part :: parts) := isCut_part_iff.2 ⟨hbegin, hcut⟩
          exact ⟨part :: parts, hpart⟩

theorem splitSections_of_isCut (hf : f = false ↔ IsOutside above)
    (h : IsCut (fun above' => BeginsSection (above ++ above')) ls before parts) :
    splitSections f ls = (before, parts.map SectionLines.toSection) := by
  induction ls generalizing f above before parts with
  | nil =>
      obtain ⟨rfl, hparts⟩ := List.append_eq_nil_iff.1 h.eq_append.symm
      cases parts with
      | nil => rfl
      | cons part parts => cases hparts
  | cons line ls ih =>
      have hbegins : BeginsSection (above ++ []) line ↔ _ :=
        (List.append_nil above).symm ▸ beginsSection_iff hf
      cases before with
      | cons first before =>
          obtain ⟨rfl, -⟩ := List.cons.inj h.eq_append
          obtain ⟨hnot, hcut⟩ := isCut_cons_iff.1 h
          rw [hbegins, Bool.not_eq_true, Option.isSome_eq_false_iff, Option.isNone_iff_eq_none] at hnot
          rw [beginsBelow_cons] at hcut
          rw [splitSections, ih (inFence_concat hf) hcut]
          simp only [hnot]
      | nil =>
          cases parts with
          | nil => cases h.eq_append
          | cons part parts =>
              obtain ⟨rfl, -⟩ := List.cons.inj h.eq_append
              obtain ⟨hbegin, hcut⟩ := isCut_part_iff.1 h
              have hread := sectionHeading?_text part.head
              have hout : f = false := hf.2 (by simpa using hbegin.1)
              rw [beginsBelow_cons] at hcut
              rw [splitSections, ih (inFence_concat hf) hcut]
              simp [hout, isFence_of_sectionHeading? hread, hread, SectionLines.toSection, contentOf]

end Markdown

open Markdown

/-- Every text can be cut where sections begin, and its sections are those of the parts. -/
theorem sections_cut (t : Text) :
    (∃ before parts, IsCut BeginsSection t.lines before parts) ∧
      ∀ before parts, IsCut BeginsSection t.lines before parts →
        sections t = parts.map SectionLines.toSection := by
  have hstart : false = false ↔ IsOutside [] := iff_of_true rfl Even.zero
  constructor
  · obtain ⟨parts, hcut⟩ := exists_isCut hstart t.lines
    exact ⟨_, parts, hcut⟩
  · intro before parts hcut
    rw [sections, splitSections_of_isCut hstart hcut]

end ComponentCatalog
