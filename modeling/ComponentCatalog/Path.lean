import ComponentCatalog.Text.Basic

/-!
# Paths

A path is the list of its parts. An absolute path begins with a part of slashes; empty parts and
single dots are no parts, and two dots stay as they are.
-/

namespace ComponentCatalog

/-- A path as the list of its parts. -/
structure Path where
  parts : List Text
deriving Repr, DecidableEq, Inhabited

namespace Path

/-- The part of slashes in front of an absolute path. Two slashes are kept, any other number counts
as one. -/
def anchor (t : Text) : List Text :=
  match (t.takeWhile (· == '/')).length with
  | 0 => []
  | 2 => ["//"]
  | _ => ["/"]

/-- The path that a text denotes. -/
def ofText (t : Text) : Path :=
  ⟨anchor t ++ (t.pieces '/').filter fun part => !part.isEmpty && part != ['.']⟩

/-- Does a part stand for the root? -/
def isAnchor (part : Text) : Bool := part.head? == some '/'

/-- Does the path begin at a root? -/
def isAbsolute (p : Path) : Bool := p.parts.head?.any isAnchor

/-- Does a path hold the character of code zero? -/
def hasNul (p : Path) : Bool := p.parts.any (·.contains '\x00')

/-- Is `p` the directory `dir` or below it? The empty path stands for no absolute one. -/
def isWithin (p dir : Path) : Bool :=
  dir.parts.isPrefixOf p.parts && p.isAbsolute == dir.isAbsolute

/-- `q` as it is seen from `p`: an absolute path stays itself. -/
def append (p q : Path) : Path := if q.isAbsolute then q else ⟨p.parts ++ q.parts⟩

/-- The path that a text denotes, as it is seen from `p`. -/
def join (p : Path) (t : Text) : Path := p.append (ofText t)

/-- The entry `name` of the directory `p`. -/
def child (p : Path) (name : Text) : Path := ⟨p.parts ++ [name]⟩

theorem isAbsolute_child {p : Path} {name : Text} (h : p.parts = [] → isAnchor name = false) :
    (p.child name).isAbsolute = p.isAbsolute := by
  cases hp : p.parts with
  | nil => simp [isAbsolute, child, hp, h hp]
  | cons part rest => simp [isAbsolute, child, hp]

/-- A path as text; without any parts it is a single dot. -/
def toText (p : Path) : Text :=
  match p.parts with
  | [] => ['.']
  | part :: rest => if isAnchor part then part ++ Text.join ['/'] rest else Text.join ['/'] (part :: rest)

/-- The last part of a path. -/
def name (p : Path) : Text := p.parts.getLast?.getD []

/-- The path without its last part. -/
def parent (p : Path) : Path := ⟨p.parts.dropLast⟩

/-- The parts with each pair of dots taken together with the part before it. -/
def collapse : List Text → List Text → List Text
  | before, [] => before
  | before, part :: rest =>
    if part = ['.', '.'] then collapse before.dropLast rest else collapse (before ++ [part]) rest

/-- The absolute path that `p` denotes in the directory `cwd`. -/
def resolve (p cwd : Path) : Path :=
  ⟨['/'] :: collapse [] ((cwd.append p).parts.filter fun part => !isAnchor part)⟩

end Path

end ComponentCatalog
