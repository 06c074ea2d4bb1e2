import ComponentCatalog.Text.Basic

/-!
# Lines of a text

A line ends at a line feed, a carriage return, the two together, or one of the rarer separators of
lines, pages and records. The end of the text ends the last line, so a text that ends with a
separator has no empty line after it.
-/

namespace ComponentCatalog

/-- The characters that end a line. -/
def isLineEnd (c : Char) : Bool :=
  match c.toNat with
  | 0x0a | 0x0b | 0x0c | 0x0d | 0x1c | 0x1d | 0x1e | 0x85 | 0x2028 | 0x2029 => true
  | _ => false

namespace Text

/-- `c` in front of the first line. -/
def consToFirst (c : Char) : List Text → List Text
  | [] => [[c]]
  | line :: rest => (c :: line) :: rest

/-- The lines of a text, without the characters that end them. -/
def lines : Text → List Text
  | [] => []
  | '\r' :: '\n' :: r => [] :: lines r
  | c :: r => if isLineEnd c then [] :: lines r else consToFirst c (lines r)

/-- The text of lines, each of which ends with a line feed. -/
def ofLines (ls : List Text) : Text := ls.flatMap (· ++ ['\n'])

/-- Every carriage return, with or without a line feed after it, becomes one line feed. -/
def unifyLineEnds : Text → Text
  | [] => []
  | '\r' :: '\n' :: r => '\n' :: unifyLineEnds r
  | c :: r => (if c = '\r' then '\n' else c) :: unifyLineEnds r

end Text

end ComponentCatalog
