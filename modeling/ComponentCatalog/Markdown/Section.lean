import ComponentCatalog.Text.Blank
import ComponentCatalog.Text.Lines

/-!
# Sections of a markdown text

A heading opens a section, which runs up to the next heading of any level. Inside of a fenced block
no line is a heading.
-/

namespace ComponentCatalog

/-- A section: its title, the text up to the next heading, and the level of its heading. -/
structure Section where
  title : Text
  content : Text
  level : Nat
deriving Repr, DecidableEq

namespace Markdown

/-- A heading line: its level and its title, which may be empty. -/
structure Heading where
  level : Nat
  title : Text
deriving Repr, DecidableEq

/-- A title without the blanks at its end and the closing marks that blanks set off. -/
def headingTitle (t : Text) : Text :=
  let trimmed := t.trimRight
  let unmarked := Text.dropEndWhile (· == '#') trimmed
  if unmarked.length < trimmed.length && unmarked.getLast?.any isBlank then unmarked.trimRight
  else trimmed

/-- The heading that a line is: one to six marks, at least one blank, and a title. -/
def heading? (line : Text) : Option Heading :=
  let marks := line.takeWhile (· == '#')
  match line.dropWhile (· == '#') with
  | [] => none
  | c :: r =>
    if 1 ≤ marks.length && marks.length ≤ 6 && isBlank c then
      some ⟨marks.length, headingTitle (r.dropWhile isBlank)⟩
    else none

/-- The heading of a section: one with a title. -/
def sectionHeading? (line : Text) : Option Heading :=
  (heading? line).filter fun h => !h.title.isEmpty

/-- Does a line begin or end a fenced block? -/
def isFence (line : Text) : Bool :=
  let t := line.dropWhile isBlank
  Text.startsWith t "\x60\x60\x60" || Text.startsWith t "~~~"

/-- The content of a section from its lines. -/
def contentOf (lines : List Text) : Text := Text.trim (Text.join ['\n'] lines)

/-- The lines up to the next section heading, and the sections from that heading on. -/
def splitSections (inFence : Bool) : List Text → List Text × List Section
  | [] => ([], [])
  | line :: rest =>
    let inFence := inFence != isFence line
    let (body, sections) := splitSections inFence rest
    match if inFence then none else sectionHeading? line with
    | some h => ([], ⟨h.title, contentOf body, h.level⟩ :: sections)
    | none => (line :: body, sections)

end Markdown

/-- The sections of a text. What stands before the first heading belongs to none. -/
def sections (t : Text) : List Section := (Markdown.splitSections false t.lines).2

/-- A heading line and its section as they are written below a section of a higher level. -/
def Section.text (s : Section) : Text :=
  Text.repeated s.level '#' ++ " " ++ s.title ++ "\n\n" ++ s.content

/-- The content of a section and the deeper sections that directly follow it. -/
def Section.withSubsections (head : Section) (following : List Section) : Text :=
  let nested := following.takeWhile fun s => head.level < s.level
  let parts := head.content :: nested.map Section.text
  Text.trim (Text.join "\n\n" (parts.filter (!·.isEmpty)))

end ComponentCatalog
