import ComponentCatalog.Script.Brackets
import ComponentCatalog.Script.Declaration
import ComponentCatalog.Text.Reader

/-!
# Constants of a script

A constant is declared at the beginning of a line. Its value runs to the end of the line or a
semicolon, unless it opens a bracket: then it runs to the bracket that closes it.
-/

namespace ComponentCatalog

open Reader

namespace Constants

/-- The text of the value at the front of a text. -/
def rawValue (t : Text) : Text :=
  let bracketed (opener closer : Char) (r : Text) : Text :=
    let e := enclosed opener closer r
    opener :: e.inside ++ (if e.after.isSome then [closer] else [])
  match t with
  | '\x7b' :: r => bracketed '\x7b' '\x7d' r
  | '[' :: r => bracketed '[' ']' r
  | r => r.takeWhile fun c => c != ';' && c != '\n'

/-- A value without the blanks and semicolons at its end. -/
def cleaned (value : Text) : Text :=
  (Text.dropEndWhile (· == ';') value.trim).trim

/-- The value of a constant, if there is one. -/
def value? (t : Text) : Option Text :=
  let v := cleaned (rawValue t)
  if v.isEmpty then none else some v

/-- A declaration up to its equals sign and the blanks behind it; the value stays to be read. -/
def declaration (previous : Option Char) : Reader ConstantDecl := do
  when (previous.all (· == '\n'))
  let exported := (← opt (keyword "export")).isSome
  keyword "const"
  let name ← word
  blanks
  lit "="
  blanks
  return { name, value := value? (← rest), exported }

end Constants

/-- The constants that a script declares. -/
def constants (t : Text) : List ConstantDecl := occurrences Constants.declaration t

end ComponentCatalog
