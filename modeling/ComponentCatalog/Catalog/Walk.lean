import ComponentCatalog.Catalog.Index

/-!
# Walks through directories

A walk through a directory meets its entries in the order in which they are listed, and everything
below a directory where that is listed. What it meets is a list of visits; work on the index goes
through that list.
-/

namespace ComponentCatalog

/-- What a walk meets. Each visit names the directory and the names that lead there from the
directory in which the walk began. -/
inductive Visit where
  /-- A directory that is not listed. -/
  | unlisted (dir : Path) (error : FileError)
  /-- A directory and all its entries. -/
  | enter (dir : Path) (entries : List Entry)
  /-- An entry that is no directory. -/
  | file (dir : Path) (below : List Text) (name : Text)
  /-- The end of a directory and all its entries. -/
  | leave (dir : Path) (below : List Text) (entries : List Entry)
deriving Repr, DecidableEq

namespace FileSystem

/-- The visits of a walk through `dir`, at most `levels` deep. -/
def walkWithin (files : FileSystem) (levels : Nat) (dir : Path) (below : List Text) : List Visit :=
  match files.list dir with
  | .error e => [.unlisted dir e]
  | .ok entries =>
    .enter dir entries ::
      entries.flatMap (fun e =>
        if e.isDirectory then
          match levels with
          | 0 => []
          | levels + 1 => files.walkWithin levels (dir.child e.name) (below ++ [e.name])
        else [.file dir below e.name]) ++
      [.leave dir below entries]

/-- The visits of a walk through `dir`. It goes as deep as there are directories. -/
def walk (files : FileSystem) (dir : Path) : List Visit := files.walkWithin (files.height dir) dir []

end FileSystem

end ComponentCatalog
