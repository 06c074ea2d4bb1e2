import ComponentCatalog.Json.Basic
import ComponentCatalog.Number.Shortest
import ComponentCatalog.Text.Quoted

/-!
# JSON as indented text

Each element and field stands on a line of its own, two blanks deeper than what holds it, and an
empty array or object has no lines. The text is plain ASCII: every other character is escaped by
the code units of UTF-16.
-/

namespace ComponentCatalog.Json

/-- An escape of one code unit. -/
def unitEscape (n : Nat) : Text := "\\u" ++ Text.hex 4 n

/-- A character inside of a JSON string. -/
def escaped (c : Char) : Text :=
  if c = '"' then "\\\""
  else if c = '\\' then "\\\\"
  else if c = '\n' then "\\n"
  else if c = '\r' then "\\r"
  else if c = '\t' then "\\t"
  else if c.toNat = 8 then "\\b"
  else if c.toNat = 12 then "\\f"
  else if 32 ≤ c.toNat && c.toNat < 127 then [c]
  else if c.toNat < 0x10000 then unitEscape c.toNat
  else
    let n := c.toNat - 0x10000
    unitEscape (0xd800 + n / 0x400) ++ unitEscape (0xdc00 + n % 0x400)

/-- A JSON string with its quotes. -/
def stringText (t : Text) : Text := '"' :: t.flatMap escaped ++ ['"']

/-- A number that may be infinite or no number at all. -/
def realText (x : Double) : Text := x.text "NaN" "Infinity"

/-- A new line at a depth. -/
def lineBreak (depth : Nat) : Text := '\n' :: Text.repeated (2 * depth) ' '

/-- The lines of an array or object between its brackets, `depth` being that of the lines. -/
def block (opening closing : Char) (depth : Nat) (items : List Text) : Text :=
  if items.isEmpty then [opening, closing]
  else
    opening :: lineBreak depth ++ Text.join (',' :: lineBreak depth) items ++
      lineBreak (depth - 1) ++ [closing]

mutual

/-- A value at a depth. -/
def textAt (depth : Nat) : Json → Text
  | null => "null"
  | bool b => if b then "true" else "false"
  | int n => Text.ofInt n
  | real x => realText x
  | str t => stringText t
  | arr elements => block '[' ']' (depth + 1) (elementTexts (depth + 1) elements)
  | obj fields => block '\x7b' '\x7d' (depth + 1) (fieldTexts (depth + 1) fields)

/-- The elements of an array. -/
def elementTexts (depth : Nat) : List Json → List Text
  | [] => []
  | v :: rest => textAt depth v :: elementTexts depth rest

/-- The fields of an object. -/
def fieldTexts (depth : Nat) : List (Text × Json) → List Text
  | [] => []
  | (name, v) :: rest => (stringText name ++ ": " ++ textAt depth v) :: fieldTexts depth rest

end

/-- The indented text of a value. -/
def text (v : Json) : Text := textAt 0 v

end ComponentCatalog.Json
