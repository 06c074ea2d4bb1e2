import ComponentCatalog.Path
import ComponentCatalog.Text.Quoted

/-!
# File systems

The catalogue sees a library through two questions: what a directory lists, and what a file holds.
Either may fail. No file system is infinitely deep: every path has a height that falls from a
directory to the directories in it. No entry leads out of a relative path to an absolute one.
-/

namespace ComponentCatalog

/-- What the operating system has against a path. -/
inductive SystemProblem where
  | notFound
  | exists
  | notDirectory
  | isDirectory
  | nameTooLong
deriving Repr, DecidableEq

/-- The number and the words of a problem. -/
def SystemProblem.description : SystemProblem → Text
  | .notFound => "[Errno 2] No such file or directory"
  | .exists => "[Errno 17] File exists"
  | .notDirectory => "[Errno 20] Not a directory"
  | .isDirectory => "[Errno 21] Is a directory"
  | .nameTooLong => "[Errno 36] File name too long"

/-- Kinds of failures that can be laid on a path. -/
inductive FailureKind where
  | system
  | permission
  | runtime
  | value
deriving Repr, DecidableEq

/-- Why a directory is not listed or a file not read. -/
inductive FileError where
  | noSuchFile (path : Path)
  | noSuchDirectory (path : Path)
  | system (problem : SystemProblem) (path : Path)
  /-- A path holds the character of code zero. -/
  | nulInPath
  | failure (kind : FailureKind) (message : Text)
deriving Repr, DecidableEq

namespace FileError

/-- A failure in words. -/
def message : FileError → Text
  | noSuchFile path => "No such file: " ++ path.toText
  | noSuchDirectory path => "No such directory: " ++ path.toText
  | system problem path => problem.description ++ ": " ++ path.toText.quoted
  | nulInPath => "embedded null byte"
  | failure _ message => message

/-- Does a failure come from the operating system? -/
def isSystem : FileError → Bool
  | nulInPath | failure .runtime _ | failure .value _ => false
  | _ => true

end FileError

/-- What a directory lists. -/
structure Entry where
  name : Text
  isDirectory : Bool
deriving Repr, DecidableEq

/-- Directories to list and files to read. -/
structure FileSystem where
  list : Path → Except FileError (List Entry)
  read : Path → Except FileError Text
  /-- A bound on the levels of directories below a path. -/
  height : Path → Nat
  height_child : ∀ {p : Path} {entries : List Entry} {e : Entry},
    list p = .ok entries → e ∈ entries → e.isDirectory = true → height (p.child e.name) < height p
  /-- An entry is absolute if its directory is. -/
  isAbsolute_child : ∀ {p : Path} {entries : List Entry} {e : Entry},
    list p = .ok entries → e ∈ entries → (p.child e.name).isAbsolute = p.isAbsolute

end ComponentCatalog
