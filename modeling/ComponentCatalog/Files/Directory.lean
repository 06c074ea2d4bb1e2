import ComponentCatalog.Files.FileSystem

/-!
# Directories

A directory is a list of files and of directories, each under its name. A name that is written again
keeps its place and gets what is new. What is in a directory is less deep than the directory.
-/

namespace ComponentCatalog

/-- What is in a directory. -/
inductive Directory where
  | empty
  | file (name : Text) (bytes : List UInt8) (rest : Directory)
  | directory (name : Text) (content : Directory) (rest : Directory)
deriving Repr, DecidableEq, Inhabited

/-- What a name stands for in a directory. -/
inductive DiskNode where
  | file (bytes : List UInt8)
  | directory (content : Directory)
deriving Repr, DecidableEq

/-- Is there a directory? -/
def DiskNode.isDirectory : DiskNode → Bool
  | file _ => false
  | directory _ => true

namespace Directory

/-- What a name stands for. -/
def find? (name : Text) : Directory → Option DiskNode
  | empty => none
  | file n bytes rest => if n = name then some (.file bytes) else rest.find? name
  | directory n content rest => if n = name then some (.directory content) else rest.find? name

/-- A node under a name in front of a directory. -/
def cons (name : Text) (node : DiskNode) (rest : Directory) : Directory :=
  match node with
  | .file bytes => file name bytes rest
  | .directory content => directory name content rest

/-- The directory in which a name stands for a node. -/
def insert (name : Text) (node : DiskNode) : Directory → Directory
  | empty => cons name node empty
  | file n bytes rest => if n = name then cons name node rest else file n bytes (rest.insert name node)
  | directory n content rest =>
    if n = name then cons name node rest else directory n content (rest.insert name node)

/-- The directory without a name. -/
def erase (name : Text) : Directory → Directory
  | empty => empty
  | file n bytes rest => if n = name then rest else file n bytes (rest.erase name)
  | directory n content rest => if n = name then rest else directory n content (rest.erase name)

/-- What a directory lists. -/
def entries : Directory → List Entry
  | empty => []
  | file name _ rest => ⟨name, false⟩ :: rest.entries
  | directory name _ rest => ⟨name, true⟩ :: rest.entries

/-- The levels below a directory. -/
def depth : Directory → Nat
  | empty => 0
  | file _ _ rest => max 1 rest.depth
  | directory _ content rest => max (content.depth + 1) rest.depth

theorem depth_pos {dir : Directory} {e : Entry} (h : e ∈ dir.entries) : 0 < dir.depth := by
  cases dir with
  | empty => simp [entries] at h
  | file => simp only [depth]; omega
  | directory => simp only [depth]; omega

theorem depth_lt_of_find? {dir content : Directory} {name : Text}
    (h : dir.find? name = some (.directory content)) : content.depth < dir.depth := by
  induction dir with
  | empty => simp [find?] at h
  | file n bytes rest ih =>
    simp only [find?] at h
    split at h
    · simp at h
    · have := ih h
      simp only [depth]
      omega
  | directory n inner rest _ ih =>
    simp only [find?] at h
    split at h
    · obtain rfl : inner = content := by simpa using h
      simp only [depth]
      omega
    · have := ih h
      simp only [depth]
      omega

end Directory

end ComponentCatalog
