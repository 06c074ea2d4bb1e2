import ComponentCatalog.Markdown.Section
import ComponentCatalog.Text.LetterCase

/-!
# Documentation tables

The properties and events of a component are documented in tables below the headings `Props` and
`Events`. A row is a line that begins with a bar; the first row names the columns, and a separator
is no row.
-/

namespace ComponentCatalog

/-- A documented property. -/
structure PropertyRow where
  name : Text
  type : Text
  default : Text
  description : Text
deriving Repr, DecidableEq

/-- A documented event. -/
structure EventRow where
  name : Text
  type : Text
  description : Text
deriving Repr, DecidableEq

namespace Markdown

/-- The lines up to the next heading. -/
def untilHeading (lines : List Text) : List Text := lines.takeWhile fun line => (heading? line).isNone

/-- The lines below the first heading with the title `title`, regardless of case, up to the next
heading. -/
def linesBelow (title : Text) : List Text → List Text
  | [] => []
  | line :: rest =>
    match heading? line with
    | some h => if h.title.trim.lower = title.lower then untilHeading rest else linesBelow title rest
    | none => linesBelow title rest

/-- Two or more dashes with a colon on either side or not and blanks around them, at the front of a
text; what follows is left. -/
def dashes? (t : Text) : Option Text :=
  let t := t.dropWhile isBlank
  let t := if t.head? = some ':' then t.drop 1 else t
  if (t.takeWhile (· == '-')).length < 2 then none
  else
    let t := t.dropWhile (· == '-')
    let t := if t.head? = some ':' then t.drop 1 else t
    some (t.dropWhile isBlank)

/-- Does a text consist of cells of dashes? `fuel` bounds the cells. -/
def isDashedFrom (fuel : Nat) (t : Text) : Bool :=
  match fuel with
  | 0 => false
  | fuel + 1 =>
    match dashes? t with
    | none => false
    | some [] => true
    | some ('|' :: r) => r.isEmpty || isDashedFrom fuel r
    | some _ => false

/-- Is a line the separator below the names of the columns? -/
def isSeparator (line : Text) : Bool :=
  let t := if line.head? = some '|' then line.drop 1 else line
  isDashedFrom (line.length + 1) t

/-- The cells of a row. -/
def cells (line : Text) : List Text :=
  ((Text.dropEndsWhile (· == '|') line).pieces '|').map Text.trim

/-- The rows of a table that have at least `columns` cells, without the first one. -/
def rows (columns : Nat) (lines : List Text) : List (List Text) :=
  let rowOf? (line : Text) : Option (List Text) :=
    let line := line.trim
    if !Text.startsWith line "|" || isSeparator line then none
    else if (cells line).length < columns then none
    else some (cells line)
  (lines.filterMap rowOf?).drop 1

/-- The rows below a heading. -/
def rowsBelow (title : Text) (columns : Nat) (t : Text) : List (List Text) :=
  rows columns (linesBelow title t.lines)

end Markdown

/-- The documented properties of a text. -/
def propertyRows (t : Text) : List PropertyRow :=
  (Markdown.rowsBelow "Props" 4 t).filterMap fun row =>
    match row with
    | name :: type :: default :: description :: _ => some { name, type, default, description }
    | _ => none

/-- The documented events of a text. -/
def eventRows (t : Text) : List EventRow :=
  (Markdown.rowsBelow "Events" 3 t).filterMap fun row =>
    match row with
    | name :: type :: description :: _ => some { name, type, description }
    | _ => none

end ComponentCatalog
