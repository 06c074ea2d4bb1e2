import ComponentCatalog.Markdown.Table
import ComponentCatalog.Proofs.SectionText

/-!
# Which sections the tables are read from

The tables are not read from the sections of a text: their reader knows no fences, and a heading
without a title ends a section for it. It reads the same sections exactly if every heading of the text
begins one.
-/

namespace ComponentCatalog

namespace Markdown

variable {f : Bool} {ls : List Text} {line title : Text} {h : Heading} {columns : Nat}

/-- Does a line read like a heading, with or without a title? -/
def isHeading (line : Text) : Bool := (heading? line).isSome

/-- The lines up to the first heading, and a section from every heading on, also one that is fenced or
has no title. -/
def splitHeadings : List Text → List Text × List Section
  | [] => ([], [])
  | line :: rest =>
    let (body, sections) := splitHeadings rest
    match heading? line with
    | some h => ([], ⟨h.title, contentOf body, h.level⟩ :: sections)
    | none => (line :: body, sections)

/-! ## Rows of a content -/

/-- The row that a line is: its cells, if it is no separator and has enough of them. -/
def row? (columns : Nat) (line : Text) : Option (List Text) :=
  let line := line.trim
  if !Text.startsWith line "|" || isSeparator line then none
  else if (cells line).length < columns then none
  else some (cells line)

theorem rows_eq (columns : Nat) (ls : List Text) :
    rows columns ls = (ls.filterMap (row? columns)).drop 1 := rfl

theorem row?_trim (columns : Nat) (line : Text) : row? columns line.trim = row? columns line := by
  rw [row?, row?, Text.trim_trim]

theorem row?_ignoresBlanks (columns : Nat) : IgnoresBlanks (row? columns) where
  nil := rfl
  cons hc line := by rw [← row?_trim, Text.trim_cons_blank hc, row?_trim]
  concat hc line := by rw [← row?_trim, Text.trim_concat_blank hc, row?_trim]

/-- The rows of a content are those of the lines that it was put together from. -/
theorem rows_contentOf (hends : ∀ line ∈ ls, ∀ c ∈ line, isLineEnd c = false) :
    rows columns (contentOf ls).lines = rows columns ls := by
  rw [rows_eq, rows_eq, ← (row?_ignoresBlanks columns).contentOf hends]
  by_cases hempty : contentOf ls = []
  · rw [hempty]
    rfl
  · obtain ⟨-, -, -, -, htrim⟩ := Text.exists_cons_of_trim (Text.trim_trim _) hempty
    have hlast : (contentOf ls).getLast? ≠ some '\n' := fun h =>
      absurd (Text.getLast?_of_trimRight htrim '\n' h) (by decide)
    rw [Text.lines_eq_pieces hempty (lineFeeds_contentOf hends) hlast]

/-! ## The sections that the reader of tables sees -/

/-- The rows of the first section of a title, regardless of case. -/
def sectionRows (title : Text) (columns : Nat) (S : List Section) : List (List Text) :=
  match S.find? fun s => s.title.lower == title.lower with
  | some s => rows columns s.content.lines
  | none => []

theorem trim_title (hl : heading? line = some h) : h.title.trim = h.title := by
  obtain ⟨c, r, -, -, -, -, heq⟩ := exists_of_heading? hl
  rw [Text.trim_eq, dropWhile_title hl, heq, trimRight_headingTitle]

theorem untilHeading_eq (ls : List Text) : untilHeading ls = (splitHeadings ls).1 := by
  induction ls with
  | nil => rfl
  | cons line rest ih =>
      rw [untilHeading, List.takeWhile_cons, splitHeadings]
      cases heading? line with
      | some h => rfl
      | none => exact congrArg (line :: ·) ih

theorem rows_linesBelow (hends : ∀ line ∈ ls, ∀ c ∈ line, isLineEnd c = false) :
    rows columns (linesBelow title ls) = sectionRows title columns (splitHeadings ls).2 := by
  induction ls with
  | nil => rfl
  | cons line rest ih =>
      have hrest : ∀ line ∈ rest, ∀ c ∈ line, isLineEnd c = false := fun l hl => hends l (by simp [hl])
      have hbody : ∀ line ∈ (splitHeadings rest).1, ∀ c ∈ line, isLineEnd c = false := by
        rw [← untilHeading_eq]
        exact fun l hl => hrest l ((List.takeWhile_sublist _).subset hl)
      rw [linesBelow, splitHeadings]
      cases hl : heading? line with
      | none => exact ih hrest
      | some h =>
          simp only [trim_title hl]
          by_cases htitle : h.title.lower = title.lower
          · rw [if_pos htitle, untilHeading_eq, ← rows_contentOf hbody]
            simp [sectionRows, htitle]
          · rw [if_neg htitle, ih hrest]
            simp [sectionRows, htitle]

/-! ## When these are the sections of the text -/

theorem openings_sublist (f : Bool) (ls : List Text) : (openings f ls).Sublist (ls.filter isHeading) := by
  induction ls generalizing f with
  | nil => exact .slnil
  | cons line rest ih =>
      rw [openings]
      split
      · exact (ih _).trans ((List.sublist_cons_self ..).filter _)
      · next hopen =>
          have hheading : isHeading line = true := by
            simp only [Bool.or_eq_true, not_or, Bool.not_eq_true, Option.isNone_eq_false_iff] at hopen
            obtain ⟨h, hl⟩ := Option.isSome_iff_exists.1 hopen.2
            exact Option.isSome_iff_exists.2 ⟨h, (Option.filter_eq_some_iff.1 hl).1⟩
          rw [List.filter_cons_of_pos hheading]
          exact (ih false).cons_cons line

theorem length_splitHeadings (ls : List Text) :
    (splitHeadings ls).2.length = (ls.filter isHeading).length := by
  induction ls with
  | nil => rfl
  | cons line rest ih =>
      rw [splitHeadings, List.filter_cons, isHeading]
      cases heading? line with
      | some h => exact congrArg (· + 1) ih
      | none => exact ih

theorem length_splitSections (f : Bool) (ls : List Text) :
    (splitSections f ls).2.length = (openings f ls).length := by
  induction ls generalizing f with
  | nil => rfl
  | cons line rest ih =>
      rw [splitSections, openings]
      cases hfence : f != isFence line with
      | true => simp [ih]
      | false => cases sectionHeading? line <;> simp [ih]

/-- Lines in which every heading begins a section are split alike. -/
theorem splitHeadings_eq (hopen : openings f ls = ls.filter isHeading) :
    splitHeadings ls = splitSections f ls := by
  induction ls generalizing f with
  | nil => rfl
  | cons line rest ih =>
      rw [openings] at hopen
      rw [splitHeadings, splitSections]
      split at hopen
      · next hbody =>
          -- A heading that begins no section would be one too many.
          have hnone : heading? line = none := by
            by_contra hne
            have hheading : isHeading line = true := Option.isSome_iff_ne_none.2 hne
            have hlen := (openings_sublist (f != isFence line) rest).length_le
            rw [hopen, List.filter_cons_of_pos hheading] at hlen
            rw [List.length_cons] at hlen
            omega
          have hsection : sectionHeading? line = none := by rw [sectionHeading?, hnone]; rfl
          rw [List.filter_cons_of_neg (by simp [isHeading, hnone])] at hopen
          simp [hnone, hsection, ih hopen]
      · next hbody =>
          simp only [Bool.or_eq_true, not_or, Bool.not_eq_true, Option.isNone_eq_false_iff] at hbody
          obtain ⟨h, hl⟩ := Option.isSome_iff_exists.1 hbody.2
          have hheading := (Option.filter_eq_some_iff.1 hl).1
          rw [List.filter_cons_of_pos (by simp [isHeading, hheading]), List.cons.injEq] at hopen
          simp [hbody.1, hheading, hl, ih hopen.2]

theorem le_length_of_mem_rows {row : List Text} (hrow : row ∈ rows columns ls) : columns ≤ row.length := by
  obtain ⟨line, -, hline⟩ := List.mem_filterMap.1 (List.mem_of_mem_drop (rows_eq columns ls ▸ hrow))
  simp only [row?] at hline
  split at hline
  · cases hline
  · split at hline
    · cases hline
    · next hlen =>
        cases hline
        omega

end Markdown

open Markdown

/-- The sections of a text as the reader of tables sees them. -/
def tableSections (t : Text) : List Section := (splitHeadings t.lines).2

/-- The property that a row documents. -/
def PropertyRow.ofCells (cells : List Text) : PropertyRow :=
  ⟨cells.getD 0 [], cells.getD 1 [], cells.getD 2 [], cells.getD 3 []⟩

/-- The event that a row documents. -/
def EventRow.ofCells (cells : List Text) : EventRow := ⟨cells.getD 0 [], cells.getD 1 [], cells.getD 2 []⟩

/-- The properties that sections document. -/
def propertyTable (S : List Section) : List PropertyRow := (sectionRows "Props" 4 S).map .ofCells

/-- The events that sections document. -/
def eventTable (S : List Section) : List EventRow := (sectionRows "Events" 3 S).map .ofCells

theorem rowsBelow_eq (title : Text) (columns : Nat) (t : Text) :
    rowsBelow title columns t = sectionRows title columns (tableSections t) :=
  rows_linesBelow fun _ => Text.isLineEnd_of_mem_lines

theorem propertyRows_eq_map (t : Text) : propertyRows t = (rowsBelow "Props" 4 t).map .ofCells := by
  rw [propertyRows, ← List.filterMap_eq_map]
  refine List.filterMap_congr fun row hrow => ?_
  have hlen := le_length_of_mem_rows hrow
  match row, hlen with
  | _ :: _ :: _ :: _ :: _, _ => rfl

theorem eventRows_eq_map (t : Text) : eventRows t = (rowsBelow "Events" 3 t).map .ofCells := by
  rw [eventRows, ← List.filterMap_eq_map]
  refine List.filterMap_congr fun row hrow => ?_
  have hlen := le_length_of_mem_rows hrow
  match row, hlen with
  | _ :: _ :: _ :: _, _ => rfl

theorem propertyRows_eq (t : Text) : propertyRows t = propertyTable (tableSections t) := by
  rw [propertyRows_eq_map, rowsBelow_eq, propertyTable]

theorem eventRows_eq (t : Text) : eventRows t = eventTable (tableSections t) := by
  rw [eventRows_eq_map, rowsBelow_eq, eventTable]

/-- The tables are read from sections of their own, and these are the sections of the text exactly if
every heading begins one: none is fenced, and none is without a title. -/
theorem tableSections_eq_sections_iff (t : Text) :
    (propertyRows t = propertyTable (tableSections t) ∧ eventRows t = eventTable (tableSections t)) ∧
      (tableSections t = sections t ↔ openings false t.lines = t.lines.filter isHeading) := by
  refine ⟨⟨propertyRows_eq t, eventRows_eq t⟩, fun heq => ?_, fun hopen => ?_⟩
  · have hlen : (t.lines.filter isHeading).length = (openings false t.lines).length := by
      rw [← length_splitHeadings, ← length_splitSections]
      exact congrArg List.length heq
    exact (openings_sublist false t.lines).eq_of_length hlen.symm
  · exact congrArg Prod.snd (splitHeadings_eq hopen)

/-- A section whose table stands below a fenced comment. -/
def commentedTable : Text := Text.join "\n"
  ["## Props", "", "```sh", "# install", "```", "", "| Name | Type | Default | Description |",
    "|---|---|---|---|", "| size | Number | 40 | Width |"]

/-- The section documents a property, and none is read. -/
theorem propertyRows_commentedTable :
    propertyTable (sections commentedTable) = [⟨"size", "Number", "40", "Width"⟩] ∧
      propertyRows commentedTable = [] := by
  decide +kernel

end ComponentCatalog
