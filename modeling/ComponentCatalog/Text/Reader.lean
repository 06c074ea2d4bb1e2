import ComponentCatalog.Text.Blank
import ComponentCatalog.Text.WordChar

/-!
# Readers

A reader takes a value off the front of a text and gives the rest back, or refuses. The patterns of
the script and markdown extractors are readers, and `occurrences` runs one over a whole text.
-/

namespace ComponentCatalog

/-- Takes a value off the front of a text. -/
abbrev Reader := StateT Text Option

namespace Reader

/-- Exactly the text `w`. -/
def lit (w : Text) : Reader Unit := fun t => (Text.after? w t).map ((), ·)

/-- The longest run of characters of class `p`, possibly empty. -/
def run (p : Char → Bool) : Reader Text := fun t => some (t.takeWhile p, t.dropWhile p)

/-- The longest run of characters of class `p`, which must not be empty. -/
def run1 (p : Char → Bool) : Reader Text := fun t =>
  match t.takeWhile p with
  | [] => none
  | c :: r => some (c :: r, t.dropWhile p)

/-- One character of class `p`. -/
def one (p : Char → Bool) : Reader Char
  | [] => none
  | c :: r => if p c then some (c, r) else none

/-- Blank characters, possibly none. -/
def blanks : Reader Unit := discard (run isBlank)

/-- At least one blank character. -/
def blanks1 : Reader Unit := discard (run1 isBlank)

/-- A word. -/
def word : Reader Text := run1 isWord

/-- What `r` reads, if it reads something. -/
def opt {α : Type} (r : Reader α) : Reader (Option α) := some <$> r <|> pure none

/-- The word `w` and the blanks behind it. -/
def keyword (w : Text) : Reader Unit := lit w *> blanks1

/-- What is left to read; nothing is taken. -/
def rest : Reader Text := get

/-- A reader that reads only where `b` holds. -/
def when (b : Bool) : Reader Unit := if b then pure () else failure

end Reader

/-- Can a word begin behind `previous`? -/
def beginsWord (previous : Option Char) : Bool := !previous.any isWord

/-- What a reader finds in a text, from left to right and without overlaps. The reader is told the
character before the place where it is tried; the first `skip` characters belong to the value found
last. -/
def occurrencesFrom {α : Type} (read : Option Char → Reader α) (previous : Option Char) (skip : Nat) :
    Text → List α
  | [] => []
  | c :: r =>
    match skip with
    | n + 1 => occurrencesFrom read (some c) n r
    | 0 =>
      match read previous (c :: r) with
      | none => occurrencesFrom read (some c) 0 r
      | some (a, left) => a :: occurrencesFrom read (some c) (r.length - left.length) r

/-- Everything that a reader finds in a text. -/
def occurrences {α : Type} (read : Option Char → Reader α) (t : Text) : List α :=
  occurrencesFrom read none 0 t

/-- The first thing that a reader finds behind `previous`, with what is left behind it. -/
def firstFrom? {α : Type} (read : Option Char → Reader α) (previous : Option Char) :
    Text → Option (α × Text)
  | [] => none
  | c :: r => (read previous (c :: r)).or (firstFrom? read (some c) r)

/-- The first thing that a reader finds in a text, with what is left behind it. -/
def first? {α : Type} (read : Option Char → Reader α) (t : Text) : Option (α × Text) :=
  firstFrom? read none t

end ComponentCatalog
