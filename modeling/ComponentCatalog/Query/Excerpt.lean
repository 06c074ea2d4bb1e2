import ComponentCatalog.Text.Blank
import ComponentCatalog.Text.LetterCase

/-!
# Excerpts from documentation
-/

namespace ComponentCatalog

/-- The number of lines in an excerpt. -/
def excerptLines : Nat := 5

/-- Does a text mention a topic, regardless of case? -/
def mentions (t topic : Text) : Bool := Text.includes topic.lower t.lower

/-- The first line that mentions the topic and the lines after it. -/
def excerpt (documentation topic : Text) : Text :=
  let lines := (documentation.pieces '\n').dropWhile fun line => !mentions line topic
  Text.trim (Text.join ['\n'] (lines.take excerptLines))

end ComponentCatalog
