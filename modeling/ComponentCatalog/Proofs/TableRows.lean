import ComponentCatalog.Proofs.Readers
import ComponentCatalog.Proofs.Tables

/-!
# Tables that are read as they are written

A row is written with a bar at either end and one between neighbouring cells, and with blanks around a
cell or not. Its cells are read as they are, unless the row is a separator itself, or an empty cell
without blanks begins or ends it: all bars at the ends of a line are left out, so that such a cell is
lost and the row has too few of them.
-/

namespace ComponentCatalog

namespace Markdown

variable {columns : Nat} {title mark t r : Text}

/-! ## Dashes -/

/-- Two or more dashes, with a colon on either side or not. -/
def IsDashes (t : Text) : Prop :=
  ∃ (left right : Text) (n : Nat), t = left ++ List.replicate (n + 2) '-' ++ right ∧
    (left = [] ∨ left = [':']) ∧ (right = [] ∨ right = [':'])

theorem IsDashes.trim (ht : IsDashes t) : t.trim = t := by
  obtain ⟨left, right, n, rfl, hleft, hright⟩ := ht
  have hdash : isBlank '-' = false := by decide
  have hcolon : isBlank ':' = false := by decide
  refine Text.trim_of_ends ?_ ?_
  · rcases hleft with rfl | rfl <;> simp [List.replicate_succ, hdash, hcolon]
  · rcases hright with rfl | rfl <;> simp [List.replicate_succ', hdash, hcolon]

theorem IsDashes.bar_notMem (ht : IsDashes t) : '|' ∉ t := by
  obtain ⟨left, right, n, rfl, hleft, hright⟩ := ht
  rcases hleft with rfl | rfl <;> rcases hright with rfl | rfl <;> simp

/-- A text without the colon that it begins with, if it does. -/
def afterColon (t : Text) : Text := if t.head? = some ':' then t.drop 1 else t

theorem exists_colon (t : Text) : ∃ colon, t = colon ++ afterColon t ∧ (colon = [] ∨ colon = [':']) := by
  rw [afterColon]
  split
  · next h =>
      obtain ⟨r, rfl⟩ := List.head?_eq_some_iff.1 h
      exact ⟨[':'], rfl, .inr rfl⟩
  · exact ⟨[], rfl, .inl rfl⟩

theorem afterColon_append {colon : Text} (hcolon : colon = [] ∨ colon = [':']) (ht : Stops (· == ':') t) :
    afterColon (colon ++ t) = t := by
  rcases hcolon with rfl | rfl
  · exact if_neg fun h => absurd (ht _ h) (by decide)
  · rfl

theorem stops_gap {d : Char} (hd : isBlank d = false) (gap : Gap) (ht : Stops (· == d) t) :
    Stops (· == d) (gap.text ++ t) :=
  .append (fun c hc => beq_eq_false_iff_ne.2 fun h => by simp [← h, gap.blank c hc] at hd) ht

theorem dashes?_eq (t : Text) :
    dashes? t =
      if ((afterColon (t.dropWhile isBlank)).takeWhile (· == '-')).length < 2 then none
      else some ((afterColon ((afterColon (t.dropWhile isBlank)).dropWhile (· == '-'))).dropWhile isBlank) :=
  rfl

theorem exists_of_dashes? (h : dashes? t = some r) :
    ∃ before after : Gap, ∃ mark, t = before.text ++ mark ++ after.text ++ r ∧ IsDashes mark := by
  rw [dashes?_eq] at h
  obtain ⟨before, u, ht, -, hu⟩ := exists_gap t
  rw [hu] at h
  obtain ⟨left, hl, hleft⟩ := exists_colon u
  generalize afterColon u = v at h hl
  obtain ⟨right, hr, hright⟩ := exists_colon (v.dropWhile (· == '-'))
  generalize afterColon (v.dropWhile (· == '-')) = w at h hr
  obtain ⟨after, x, hw, -, hx⟩ := exists_gap w
  rw [hx] at h
  split at h
  · cases h
  · next hlen =>
      cases h
      have hdashes : v.takeWhile (· == '-') =
          List.replicate ((v.takeWhile (· == '-')).length - 2 + 2) '-' := by
        rw [Nat.sub_add_cancel (Nat.le_of_not_lt hlen)]
        exact List.eq_replicate_of_mem fun c hc => by simpa using List.mem_takeWhile_imp hc
      refine ⟨before, after, left ++ v.takeWhile (· == '-') ++ right, ?_,
        left, right, _, congrArg (left ++ · ++ right) hdashes, hleft, hright⟩
      calc t = before.text ++ (left ++ (v.takeWhile (· == '-') ++ (right ++ (after.text ++ r)))) := by
            rw [← hw, ← hr, List.takeWhile_append_dropWhile, ← hl, ht]
        _ = _ := by simp only [List.append_assoc]

theorem dashes?_append (hmark : IsDashes mark) (before after : Gap) (r : Text) :
    dashes? (before.text ++ mark ++ after.text ++ '|' :: r) = some ('|' :: r) := by
  obtain ⟨left, right, n, rfl, hleft, hright⟩ := hmark
  have hassoc : before.text ++ (left ++ List.replicate (n + 2) '-' ++ right) ++ after.text ++ '|' :: r =
      before.text ++ (left ++ (List.replicate (n + 2) '-' ++ (right ++ (after.text ++ '|' :: r)))) := by
    simp only [List.append_assoc]
  have hbegin :
      Stops isBlank (left ++ (List.replicate (n + 2) '-' ++ (right ++ (after.text ++ '|' :: r)))) := by
    rcases hleft with rfl | rfl <;> exact Stops.cons_iff.2 (by decide)
  have hfirst : Stops (· == ':') (List.replicate (n + 2) '-' ++ (right ++ (after.text ++ '|' :: r))) :=
    Stops.cons_iff.2 rfl
  have hdashes : ∀ c ∈ List.replicate (n + 2) '-', (c == '-') = true := by simp
  have hdash : Stops (· == '-') (right ++ (after.text ++ '|' :: r)) := by
    rcases hright with rfl | rfl
    · exact stops_gap (by decide) after (Stops.cons_iff.2 rfl)
    · exact Stops.cons_iff.2 rfl
  have hcolon : Stops (· == ':') (after.text ++ '|' :: r) := stops_gap (by decide) after (Stops.cons_iff.2 rfl)
  have hbar : Stops isBlank ('|' :: r) := Stops.cons_iff.2 (by decide)
  rw [dashes?_eq, hassoc, hbegin.dropWhile_append before.blank,
    afterColon_append hleft hfirst, hdash.takeWhile_append hdashes, hdash.dropWhile_append hdashes,
    afterColon_append hright hcolon, hbar.dropWhile_append after.blank, if_neg (by simp)]

theorem trim_between (before after : Gap) (ht : t.trim = t) : (before.text ++ t ++ after.text).trim = t := by
  rw [Text.trim_append_blank after.blank, Text.trim_eq, before.dropWhile_append, ← Text.trim_eq, ht]

theorem isDashes_iff : IsDashes t ↔ t.trim = t ∧ dashes? (t ++ ['|']) = some ['|'] := by
  constructor
  · intro ht
    exact ⟨ht.trim, by simpa [Gap.empty, Gap.of] using dashes?_append ht .empty .empty []⟩
  · rintro ⟨htrim, hread⟩
    obtain ⟨before, after, mark, heq, hmark⟩ := exists_of_dashes? hread
    rw [← htrim, List.append_cancel_right heq, trim_between before after hmark.trim]
    exact hmark

instance : Decidable (IsDashes t) := decidable_of_iff' _ isDashes_iff

/-! ## Cells -/

/-- A cell as it is written: a text without bars, and the blanks around it. -/
structure Cell where
  before : Gap
  text : Text
  after : Gap
  trimmed : text.trim = text
  bar_notMem : '|' ∉ text

namespace Cell

variable (cell : Cell)

/-- The cell as it is written. -/
def written : Text := cell.before.text ++ cell.text ++ cell.after.text

theorem trim_written : cell.written.trim = cell.text := trim_between cell.before cell.after cell.trimmed

theorem bar_notMem_gap (gap : Gap) : '|' ∉ gap.text := fun h => absurd (gap.blank _ h) (by decide)

theorem bar_notMem_written : '|' ∉ cell.written := by
  simp [written, bar_notMem_gap, cell.bar_notMem]

/-- A separator is read cell by cell, each with the bar behind it. -/
theorem isDashedFrom_succ (fuel : Nat) (r : Text) :
    isDashedFrom (fuel + 1) (cell.written ++ '|' :: r) = true ↔
      IsDashes cell.text ∧ (r = [] ∨ isDashedFrom fuel r = true) := by
  constructor
  · intro h
    rw [isDashedFrom] at h
    split at h
    · cases h
    · next hd =>
        -- The bar behind the cell is neither a dash nor a blank.
        obtain ⟨before, after, mark, hcell, hmark⟩ := exists_of_dashes? hd
        have hbar : '|' ∈ before.text ++ mark ++ after.text ++ [] := hcell ▸ by simp
        simp [bar_notMem_gap, hmark.bar_notMem] at hbar
    · next r' hd =>
        obtain ⟨before, after, mark, hcell, hmark⟩ := exists_of_dashes? hd
        have hwritten := Text.append_sep_inj cell.bar_notMem_written
          (by simp [bar_notMem_gap, hmark.bar_notMem]) hcell
        have htext : cell.text = mark := by
          rw [← cell.trim_written, hwritten.1, trim_between before after hmark.trim]
        rw [htext, hwritten.2]
        simpa [List.isEmpty_iff] using And.intro hmark h
    · cases h
  · rintro ⟨hmark, hrest⟩
    rw [isDashedFrom, written, dashes?_append hmark]
    simpa [List.isEmpty_iff] using hrest

/-- A cell without blanks around its text. -/
def compact (text : Text) (h : text.trim = text ∧ '|' ∉ text := by decide) : Cell :=
  ⟨.empty, text, .empty, h.1, h.2⟩

end Cell

/-! ## Rows -/

/-- A row of as many cells as there are columns. -/
structure Row (columns : Nat) where
  cells : List Cell
  length_cells : cells.length = columns

namespace Row

variable (row : Row columns)

/-- What the cells say. -/
def texts : List Text := row.cells.map Cell.text

/-- The cells with bars between them. -/
def inner : Text := Text.join ['|'] (row.cells.map Cell.written)

/-- The line of a row, with a bar at either end. -/
def line : Text := '|' :: row.inner ++ ['|']

/-- Does every cell consist of dashes, as those of a separator do? -/
def IsDashed : Prop := ∀ cell ∈ row.cells, IsDashes cell.text

instance : Decidable row.IsDashed := List.decidableBAll _ row.cells

/-- A row that is no separator and that no empty cell without blanks begins or ends. -/
structure IsRead : Prop where
  not_dashed : ¬ row.IsDashed
  first : ∀ cell ∈ row.cells.head?, cell.written ≠ []
  last : ∀ cell ∈ row.cells.getLast?, cell.written ≠ []

theorem isRead_def :
    row.IsRead ↔ ¬ row.IsDashed ∧ (∀ cell ∈ row.cells.head?, cell.written ≠ []) ∧
      ∀ cell ∈ row.cells.getLast?, cell.written ≠ [] :=
  ⟨fun h => ⟨h.not_dashed, h.first, h.last⟩, fun h => ⟨h.1, h.2.1, h.2.2⟩⟩

instance : Decidable row.IsRead := decidable_of_iff' _ row.isRead_def

theorem isDashedFrom_cells {cells : List Cell} (hne : cells ≠ []) {fuel : Nat} (hfuel : cells.length ≤ fuel) :
    isDashedFrom fuel (Text.join ['|'] (cells.map Cell.written) ++ ['|']) = true ↔
      ∀ cell ∈ cells, IsDashes cell.text := by
  induction cells generalizing fuel with
  | nil => exact absurd rfl hne
  | cons cell rest ih =>
      obtain ⟨fuel, rfl⟩ : ∃ n, fuel = n + 1 := Nat.exists_eq_add_of_le' (Nat.le_trans (by simp) hfuel)
      rw [List.forall_mem_cons]
      by_cases hrest : rest = []
      · subst hrest
        exact (cell.isDashedFrom_succ fuel []).trans (by simp)
      · have hassoc : Text.join ['|'] ((cell :: rest).map Cell.written) ++ ['|'] =
            cell.written ++ '|' :: (Text.join ['|'] (rest.map Cell.written) ++ ['|']) := by
          rw [List.map_cons, Text.join_cons _ _ (by simpa using hrest)]
          simp
        rw [hassoc, cell.isDashedFrom_succ, ih hrest (by simpa using hfuel)]
        simp

variable {row} (hcolumns : 2 ≤ columns)
include hcolumns

theorem cells_ne_nil : row.cells ≠ [] := fun h => by
  have hlen := row.length_cells
  rw [h, List.length_nil] at hlen
  omega

theorem pieces_inner : Text.pieces '|' row.inner = row.cells.map Cell.written := by
  refine Text.pieces_join (by simpa using cells_ne_nil hcolumns) fun t ht => ?_
  obtain ⟨cell, -, rfl⟩ := List.mem_map.1 ht
  exact cell.bar_notMem_written

theorem count_inner : row.inner.count '|' + 1 = columns := by
  rw [← Text.length_pieces, pieces_inner hcolumns, List.length_map, row.length_cells]

theorem isSeparator_line : isSeparator row.line = true ↔ row.IsDashed := by
  have hfuel : row.cells.length ≤ row.line.length + 1 := by
    have hcount : row.inner.count '|' ≤ row.inner.length := List.count_le_length
    have hcells : row.inner.count '|' + 1 = columns := count_inner hcolumns
    rw [row.length_cells, line, List.length_append, List.length_cons]
    omega
  exact isDashedFrom_cells (cells_ne_nil hcolumns) hfuel

/-! ### The cells that are read -/

theorem head?_inner : row.inner.head? ≠ some '|' ↔ ∀ cell ∈ row.cells.head?, cell.written ≠ [] := by
  have hne : row.cells ≠ [] := cells_ne_nil hcolumns
  obtain ⟨first, rest, hcells⟩ := List.exists_cons_of_ne_nil hne
  have hrest : rest.map Cell.written ≠ [] := by
    have hlen := row.length_cells
    rintro hnil
    rw [hcells, List.map_eq_nil_iff.1 hnil, List.length_singleton] at hlen
    omega
  have hbar := first.bar_notMem_written
  rw [inner, hcells, List.map_cons, Text.join_cons _ _ hrest]
  cases hfirst : first.written with
  | nil => simpa using hfirst
  | cons c w =>
      rw [hfirst, List.mem_cons, not_or] at hbar
      simpa [hfirst] using Ne.symm hbar.1

theorem getLast?_inner : row.inner.getLast? ≠ some '|' ↔ ∀ cell ∈ row.cells.getLast?, cell.written ≠ [] := by
  have hne : row.cells ≠ [] := cells_ne_nil hcolumns
  obtain ⟨init, last, hcells⟩ := (List.eq_nil_or_concat' row.cells).resolve_left hne
  have hinit : init.map Cell.written ≠ [] := by
    have hlen := row.length_cells
    rintro hnil
    rw [hcells, List.map_eq_nil_iff.1 hnil] at hlen
    simp at hlen
    omega
  have hbar := last.bar_notMem_written
  rw [inner, hcells, List.map_append, List.map_singleton, Text.join_append _ hinit (by simp), Text.join]
  rcases List.eq_nil_or_concat' last.written with hlast | ⟨w, c, hlast⟩
  · simp [hlast]
  · rw [hlast, List.mem_append, not_or, List.mem_singleton] at hbar
    rw [hlast, ← List.append_assoc, List.getLast?_concat, Ne, Option.some.injEq]
    simpa [hlast] using Ne.symm hbar.2

theorem isRead_iff :
    row.IsRead ↔ ¬ row.IsDashed ∧ row.inner.head? ≠ some '|' ∧ row.inner.getLast? ≠ some '|' := by
  rw [head?_inner hcolumns, getLast?_inner hcolumns, isRead_def]

omit hcolumns in
theorem cells_line :
    Markdown.cells row.line = (Text.pieces '|' (Text.dropEndsWhile (· == '|') row.inner)).map Text.trim := by
  rw [Markdown.cells, line, Text.dropEndsWhile_concat rfl, Text.dropEndsWhile_cons rfl]

theorem cells_line_of_ends (hfirst : row.inner.head? ≠ some '|') (hlast : row.inner.getLast? ≠ some '|') :
    Markdown.cells row.line = row.texts := by
  have hends : Text.dropEndsWhile (· == '|') row.inner = row.inner :=
    Text.dropEndsWhile_of_ends (fun c hc => beq_eq_false_iff_ne.2 fun h => hfirst (h ▸ hc))
      fun c hc => beq_eq_false_iff_ne.2 fun h => hlast (h ▸ hc)
  rw [cells_line, hends, pieces_inner hcolumns, List.map_map, texts]
  exact List.map_congr_left fun cell _ => cell.trim_written

/-- With a bar at an end of the row one more bar is left out, and the cell in front of it is lost. -/
theorem length_cells_line_lt (hends : row.inner.head? = some '|' ∨ row.inner.getLast? = some '|') :
    (Markdown.cells row.line).length < columns := by
  have hcount : row.inner.count '|' + 1 = columns := count_inner hcolumns
  have hlost : (Text.dropEndsWhile (· == '|') row.inner).count '|' < row.inner.count '|' := by
    rcases hends with hfirst | hlast
    · obtain ⟨r, hr⟩ := List.head?_eq_some_iff.1 hfirst
      rw [hr, Text.dropEndsWhile_cons rfl, List.count_cons_self]
      exact Nat.lt_succ_of_le ((Text.dropEndsWhile_sublist ..).count_le _)
    · obtain ⟨r, hr⟩ := List.getLast?_eq_some_iff.1 hlast
      rw [hr, Text.dropEndsWhile_concat rfl, List.count_append, List.count_singleton_self]
      exact Nat.lt_succ_of_le ((Text.dropEndsWhile_sublist ..).count_le _)
  rw [cells_line, List.length_map, Text.length_pieces]
  omega

/-- A row is read as it is written, or not at all. -/
theorem row?_line :
    row? columns row.line = if row.IsRead then some row.texts else none := by
  have hbar : isBlank '|' = false := by decide
  have hlast : row.line.getLast? = some '|' := List.getLast?_concat
  have htrim : row.line.trim = row.line :=
    Text.trim_of_ends (by simp [line, hbar]) (by simp [hlast, hbar])
  have hstarts : (!Text.startsWith row.line "|") = false := rfl
  simp only [row?, htrim, hstarts, Bool.false_or]
  by_cases hdashed : row.IsDashed
  · rw [if_pos ((isSeparator_line hcolumns).2 hdashed), if_neg fun h => h.not_dashed hdashed]
  · rw [if_neg (mt (isSeparator_line hcolumns).1 hdashed)]
    by_cases hends : row.inner.head? ≠ some '|' ∧ row.inner.getLast? ≠ some '|'
    · have hlen : row.texts.length = columns := by rw [texts, List.length_map, row.length_cells]
      rw [cells_line_of_ends hcolumns hends.1 hends.2, hlen, if_neg (Nat.lt_irrefl _),
        if_pos ((isRead_iff hcolumns).2 ⟨hdashed, hends⟩)]
    · have hends' : row.inner.head? = some '|' ∨ row.inner.getLast? = some '|' := by tauto
      rw [if_pos (length_cells_line_lt hcolumns hends'), if_neg fun h => hends ((isRead_iff hcolumns).1 h).2]

end Row

/-! ## Tables -/

/-- A table: the names of its columns, a separator and rows. -/
structure Table (columns : Nat) where
  header : Row columns
  separator : Row columns
  rows : List (Row columns)
  dashed : separator.IsDashed

namespace Table

variable (table : Table columns)

/-- The lines of a table, from first to last. -/
def lines : List Text := (table.header :: table.separator :: table.rows).map Row.line

/-- The rows that are read of a table, the names of its columns included. -/
def read : List (Row columns) := (table.header :: table.rows).filter (·.IsRead)

/-- A table of which every row is read, and the names of its columns too. -/
structure IsRead : Prop where
  header : table.rows ≠ [] → table.header.IsRead
  rows : ∀ row ∈ table.rows, row.IsRead

variable {table}

theorem filterMap_lines (hcolumns : 2 ≤ columns) :
    table.lines.filterMap (row? columns) = table.read.map Row.texts := by
  have hrow : ∀ row : Row columns, row? columns row.line = if row.IsRead then some row.texts else none :=
    fun row => row.row?_line hcolumns
  have hseparator : ¬ table.separator.IsRead := fun h => h.not_dashed table.dashed
  have hread : table.read = (table.header :: table.separator :: table.rows).filter (·.IsRead) := by
    simp [read, List.filter_cons, hseparator]
  rw [lines, List.filterMap_map, hread, ← List.filterMap_eq_map, List.filterMap_filter]
  exact List.filterMap_congr fun row _ => by simpa using hrow row

theorem drop_read (hread : table.IsRead) : table.read.drop 1 = table.rows := by
  by_cases hnil : table.rows = []
  · have hlen : table.read.length ≤ (table.header :: table.rows).length := List.length_filter_le ..
    rw [List.drop_eq_nil_of_le (by simpa [hnil] using hlen), hnil]
  · have hall : table.read = table.header :: table.rows := by
      refine List.filter_eq_self.2 fun row hrow => decide_eq_true ?_
      rcases List.mem_cons.1 hrow with rfl | hrow
      · exact hread.header hnil
      · exact hread.rows row hrow
    rw [hall, List.drop_one, List.tail_cons]

theorem isRead_of_length (hlen : (table.read.drop 1).length = table.rows.length) : table.IsRead := by
  by_cases hnil : table.rows = []
  · exact ⟨fun h => absurd hnil h, by simp [hnil]⟩
  · have hpos : 0 < table.rows.length := List.length_pos_iff.2 hnil
    have hread : table.read.length = (table.header :: table.rows).length := by
      rw [List.length_drop] at hlen
      rw [List.length_cons]
      omega
    have hall : ∀ row ∈ table.header :: table.rows, row.IsRead := fun row hrow =>
      of_decide_eq_true (List.length_filter_eq_length_iff.1 hread row hrow)
    exact ⟨fun _ => hall _ List.mem_cons_self, fun row hrow => hall row (List.mem_cons_of_mem _ hrow)⟩

/-- The rows of a table are left exactly if all of them are read: one that is not is missing, and the
first one is left out in place of the names of the columns, if these are not read. -/
theorem map_drop_read_eq_iff {β : Type} {f : Row columns → β} :
    (table.read.drop 1).map f = table.rows.map f ↔ table.IsRead := by
  constructor
  · intro heq
    have hlen := congrArg List.length heq
    rw [List.length_map, List.length_map] at hlen
    exact isRead_of_length hlen
  · intro hread
    rw [drop_read hread]

end Table

/-! ## Tables below a heading -/

/-- A heading with a title, regardless of case. -/
def HasTitle (title line : Text) : Prop := ∃ h, heading? line = some h ∧ h.title.lower = title.lower

/-- A line between two headings that no table is read from. -/
structure IsApart (line : Text) : Prop where
  no_heading : heading? line = none
  no_row : line.trim.head? ≠ some '|'

/-- A text with a table below the first heading of a title. The table ends with the text or with the
lines in front of the next heading. -/
structure Documentation (title : Text) (columns : Nat) where
  text : Text
  front : List Text
  heading : Text
  intro : List Text
  table : Table columns
  outro : List Text
  rest : List Text
  lines_text : text.lines = front ++ heading :: (intro ++ (table.lines ++ outro) ++ rest)
  untitled : ∀ line ∈ front, ¬ HasTitle title line
  titled : HasTitle title heading
  apart : ∀ line ∈ intro ++ outro, IsApart line
  ended : ∀ line ∈ rest.head?, isHeading line = true

theorem linesBelow_append {front : List Text} (hfront : ∀ line ∈ front, ¬ HasTitle title line)
    (ls : List Text) :
    linesBelow title (front ++ ls) = linesBelow title ls := by
  induction front with
  | nil => rfl
  | cons line front ih =>
      have hline := hfront line List.mem_cons_self
      rw [List.cons_append, linesBelow, ih fun line hl => hfront line (List.mem_cons_of_mem _ hl)]
      cases hl : heading? line with
      | none => rfl
      | some h => exact if_neg fun htitle => hline ⟨h, hl, trim_title hl ▸ htitle⟩

theorem linesBelow_cons {line : Text} (hline : HasTitle title line) (ls : List Text) :
    linesBelow title (line :: ls) = untilHeading ls := by
  obtain ⟨h, hl, htitle⟩ := hline
  rw [linesBelow, hl]
  rw [← trim_title hl] at htitle
  exact if_pos htitle

theorem untilHeading_append {body rest : List Text} (hbody : ∀ line ∈ body, heading? line = none)
    (hrest : ∀ line ∈ rest.head?, isHeading line = true) : untilHeading (body ++ rest) = body := by
  have hstop : untilHeading rest = [] := by
    cases rest with
    | nil => rfl
    | cons line rest =>
        obtain ⟨h, hl⟩ := Option.isSome_iff_exists.1 (hrest line rfl)
        rw [untilHeading, List.takeWhile_cons_of_neg (by simp [hl])]
  rw [untilHeading, List.takeWhile_append_of_pos fun line hl => by rw [hbody line hl]; rfl]
  exact (congrArg (body ++ ·) hstop).trans (List.append_nil _)

theorem IsApart.row? {line : Text} (hline : IsApart line) : row? columns line = none := by
  refine if_pos (Bool.or_eq_true_iff.2 (.inl ?_))
  rw [Bool.not_eq_true', Bool.eq_false_iff]
  intro h
  obtain ⟨r, hr⟩ := List.isPrefixOf_iff_prefix.1 h
  exact hline.no_row (hr ▸ rfl)

theorem Row.heading?_line (row : Row columns) : heading? row.line = none :=
  heading?_cons (by decide) _

namespace Documentation

/-- Every table of single lines can be written below a heading. -/
def below (heading : Text) (table : Table columns) (titled : HasTitle title heading)
    (hends : ∀ line ∈ heading :: table.lines, (line.any isLineEnd) = false) : Documentation title columns where
  text := (heading :: table.lines).flatMap (· ++ ['\n'])
  front := []
  heading := heading
  intro := []
  table := table
  outro := []
  rest := []
  lines_text := by
    rw [Text.lines_flatMap_feed fun line hline c hc => by simpa using List.any_eq_false.1 (hends line hline) c hc]
    simp
  untitled := by simp
  titled := titled
  apart := by simp
  ended := by simp

variable (doc : Documentation title columns)

theorem linesBelow_text : linesBelow title doc.text.lines = doc.intro ++ (doc.table.lines ++ doc.outro) := by
  rw [doc.lines_text, linesBelow_append doc.untitled, linesBelow_cons doc.titled]
  refine untilHeading_append (fun line hline => ?_) doc.ended
  simp only [List.mem_append] at hline
  rcases hline with hline | hline | hline
  · exact (doc.apart line (List.mem_append_left _ hline)).no_heading
  · obtain ⟨row, -, rfl⟩ := List.mem_map.1 hline
    exact row.heading?_line
  · exact (doc.apart line (List.mem_append_right _ hline)).no_heading

theorem rowsBelow_text (hcolumns : 2 ≤ columns) :
    rowsBelow title columns doc.text = (doc.table.read.drop 1).map Row.texts := by
  have happart : ∀ {ls : List Text}, (∀ line ∈ ls, line ∈ doc.intro ++ doc.outro) →
      ls.filterMap (row? columns) = [] := fun hls =>
    List.filterMap_eq_nil_iff.2 fun line hline => (doc.apart line (hls line hline)).row?
  rw [rowsBelow, rows_eq, doc.linesBelow_text, List.filterMap_append, List.filterMap_append,
    happart fun line hline => List.mem_append_left _ hline,
    happart fun line hline => List.mem_append_right _ hline, Table.filterMap_lines hcolumns, List.nil_append,
    List.append_nil, List.map_drop]

end Documentation

end Markdown

open Markdown

/-- The documented properties and events are the rows that are read of the tables, in order and as they
are written, without the first one. These are the rows of a table exactly if all of them are read: no row is
a separator, and none begins or ends with an empty cell without blanks. -/
theorem documented_eq_rows_iff (props : Documentation "Props" 4) (events : Documentation "Events" 3) :
    (propertyRows props.text = (props.table.read.drop 1).map (fun row => .ofCells row.texts) ∧
      (propertyRows props.text = props.table.rows.map (fun row => .ofCells row.texts) ↔ props.table.IsRead)) ∧
    eventRows events.text = (events.table.read.drop 1).map (fun row => .ofCells row.texts) ∧
      (eventRows events.text = events.table.rows.map (fun row => .ofCells row.texts) ↔ events.table.IsRead) := by
  rw [propertyRows_eq_map, props.rowsBelow_text (by decide), List.map_map, eventRows_eq_map,
    events.rowsBelow_text (by decide), List.map_map]
  exact ⟨⟨rfl, Table.map_drop_read_eq_iff⟩, rfl, Table.map_drop_read_eq_iff⟩

theorem isDashed_compact (columns : Nat) :
    Row.IsDashed ⟨List.replicate columns (.compact "--"), List.length_replicate⟩ := fun _ hcell =>
  List.eq_of_mem_replicate hcell ▸ ⟨[], [], 0, rfl, .inl rfl, .inl rfl⟩

/-- Properties in a table without blanks, the last one without a description. -/
def compactProperties : Documentation "Props" 4 :=
  .below "## Props"
    { header := ⟨[.compact "Name", .compact "Type", .compact "Default", .compact "Description"], rfl⟩
      separator := ⟨_, List.length_replicate⟩
      rows :=
        [⟨[.compact "size", .compact "Number", .compact "", .compact "Width"], rfl⟩,
          ⟨[.compact "alt", .compact "String", .compact "none", .compact ""], rfl⟩]
      dashed := isDashed_compact 4 }
    ⟨⟨2, "Props"⟩, by decide +kernel⟩ (by decide +kernel)

/-- Events in a table without blanks, whose first column has no name. -/
def compactEvents : Documentation "Events" 3 :=
  .below "## Events"
    { header := ⟨[.compact "", .compact "Type", .compact "Description"], rfl⟩
      separator := ⟨_, List.length_replicate⟩
      rows :=
        [⟨[.compact "click", .compact "MouseEvent", .compact "Clicked"], rfl⟩,
          ⟨[.compact "close", .compact "Event", .compact "Closed"], rfl⟩]
      dashed := isDashed_compact 3 }
    ⟨⟨2, "Events"⟩, by decide +kernel⟩ (by decide +kernel)

/-- The property without a description is not documented, and neither is the first one of the events,
which is left out in place of the names of the columns. -/
theorem documented_compact :
    propertyRows compactProperties.text = [⟨"size", "Number", "", "Width"⟩] ∧
      eventRows compactEvents.text = [⟨"close", "Event", "Closed"⟩] ∧
      ¬ compactProperties.table.IsRead ∧ ¬ compactEvents.table.IsRead := by
  obtain ⟨⟨-, hreadProps⟩, -, hreadEvents⟩ := documented_eq_rows_iff compactProperties compactEvents
  have hfewProps : propertyRows compactProperties.text = [⟨"size", "Number", "", "Width"⟩] := by decide +kernel
  have hfewEvents : eventRows compactEvents.text = [⟨"close", "Event", "Closed"⟩] := by decide +kernel
  refine ⟨hfewProps, hfewEvents, fun hread => ?_, fun hread => ?_⟩
  · exact absurd (hfewProps.symm.trans (hreadProps.2 hread)) (by decide +kernel)
  · exact absurd (hfewEvents.symm.trans (hreadEvents.2 hread)) (by decide +kernel)

end ComponentCatalog
