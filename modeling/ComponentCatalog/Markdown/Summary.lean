import ComponentCatalog.Text.Blank
import ComponentCatalog.Text.Lines

/-!
# The summary of a documentation
-/

namespace ComponentCatalog

/-- The length beyond which a summary is cut. -/
def summaryLimit : Nat := 100

/-- The first sentence of a line, without the marks of a heading. -/
def firstSentence (line : Text) : Text :=
  let unmarked := line.dropWhile (· == '#')
  let cleaned := Text.trim (if unmarked.length < line.length then unmarked.dropWhile isBlank else line)
  cleaned.takeWhile (· != '.')

/-- The first sentence of the first line that is not blank, cut if it is long. -/
def summary (documentation : Text) : Text :=
  match documentation.lines.find? fun line => !line.trim.isEmpty with
  | none => []
  | some line =>
    let sentence := firstSentence line
    if summaryLimit < sentence.length then sentence.take summaryLimit ++ "..." else sentence

end ComponentCatalog
