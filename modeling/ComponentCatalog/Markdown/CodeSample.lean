import ComponentCatalog.Text.Reader

/-!
# Code samples of a markdown text
-/

namespace ComponentCatalog

open Reader

/-- A fenced sample of code and its language. -/
structure CodeSample where
  language : Text
  code : Text
deriving Repr, DecidableEq

namespace Markdown

/-- Three backticks. -/
def codeFence : Text := "\x60\x60\x60"

/-- The text before the first place at which `mark` stands, and what follows the mark. -/
def splitAtFirst? (mark : Text) : Text → Option (Text × Text)
  | [] => none
  | c :: r =>
    match Text.after? mark (c :: r) with
    | some left => some ([], left)
    | none => (splitAtFirst? mark r).map fun (t, left) => (c :: t, left)

/-- The characters of a language's name. -/
def isLanguageChar (c : Char) : Bool :=
  isWord c || c == '+' || c == '#' || c == '.' || c == '-'

/-- A fenced block: the language behind the opening fence, the rest of that line, and everything up
to the next fence. -/
def fencedBlock : Reader CodeSample := do
  lit codeFence
  let language ← run isLanguageChar
  discard (run (· != '\n'))
  lit "\n"
  let code ← splitAtFirst? codeFence
  return { language := if language.isEmpty then "text" else language, code := code.trim }

end Markdown

/-- The code samples of a text, in order. -/
def codeSamples (t : Text) : List CodeSample := occurrences (fun _ => Markdown.fencedBlock) t

end ComponentCatalog
