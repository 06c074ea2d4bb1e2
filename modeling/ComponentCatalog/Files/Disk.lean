import ComponentCatalog.Files.Directory
import ComponentCatalog.Text.Lines
import ComponentCatalog.Text.Utf8

/-!
# A disk

A tree of directories and of files of bytes below a root, with a working directory. Two dots in a
path lead to the directory above; all that stands before them must be there. Directories list their
entries by code points, and a file is read as text in which every line ends with a line feed. Paths
and the names in them have a greatest length, and no path holds the character of code zero.
-/

namespace ComponentCatalog

/-- A disk: what is below its root, and the working directory. -/
structure Disk where
  root : Directory := .empty
  cwd : Path := ⟨[['/']]⟩

/-- A place on a disk: the names that lead there, the last one first, each with the directory in
which it stands, and what is there. -/
structure Place where
  trail : List (Text × Directory)
  node? : Option DiskNode

namespace Place

/-- The directory that holds a place; the root holds itself. -/
def parent (place : Place) : Place :=
  match place.trail with
  | [] => place
  | (_, dir) :: rest => ⟨rest, some (.directory dir)⟩

/-- Is a name longer than the 255 bytes that a name may have? -/
def tooLong (name : Text) : Bool := 255 < (Utf8.encode name).length

/-- One step from a place along a path. -/
def step (place : Place) (part : Text) : Except SystemProblem Place :=
  match place.node? with
  | none => .error .notFound
  | some (.file _) => .error .notDirectory
  | some (.directory dir) =>
    if part = ['.', '.'] then .ok place.parent
    else if tooLong part then .error .nameTooLong
    else .ok ⟨(part, dir) :: place.trail, dir.find? part⟩

/-- What is below the root once the directories along a trail hold `node` at its end. -/
def rebuild (trail : List (Text × Directory)) (node : DiskNode) : Directory :=
  match trail, node with
  | [], .directory dir => dir
  | [], .file _ => .empty
  | (name, dir) :: rest, node => rebuild rest (.directory (dir.insert name node))

end Place

namespace Disk

/-- The greatest number of bytes in a path. -/
def pathLimit : Nat := 4095

/-- The place that a path leads to; nothing need be there. -/
def walk (disk : Disk) (p : Path) : Except SystemProblem Place :=
  ((disk.cwd.append p).parts.filter fun part => !Path.isAnchor part).foldlM Place.step
    ⟨[], some (.directory disk.root)⟩

/-- The place that a path leads to, if it is a path that can be asked for. -/
def locate (disk : Disk) (p : Path) : Except FileError Place :=
  if p.hasNul then .error .nulInPath
  else if pathLimit < (Utf8.encode p.toText).length then .error (.system .nameTooLong p)
  else (disk.walk p).mapError fun problem => .system problem p

/-- What is at the end of a path. -/
def lookup (disk : Disk) (p : Path) : Except FileError DiskNode := do
  match (← disk.locate p).node? with
  | none => .error (.system .notFound p)
  | some node => return node

/-- Can an entry of a directory have this name? -/
def isEntryName (name : Text) : Bool := name != ['.', '.'] && !Path.isAnchor name

/-- The entries of a directory, by name. -/
def sortedEntries (dir : Directory) : List Entry :=
  (dir.entries.filter fun e => isEntryName e.name).mergeSort fun x y => Text.le x.name y.name

/-- The entries of a directory, sorted by name. -/
def list (disk : Disk) (p : Path) : Except FileError (List Entry) := do
  match ← disk.lookup p with
  | .file _ => .error (.system .notDirectory p)
  | .directory dir => return sortedEntries dir

/-- The bytes of a file. -/
def readBytes (disk : Disk) (p : Path) : Except FileError (List UInt8) := do
  match ← disk.lookup p with
  | .directory _ => .error (.system .isDirectory p)
  | .file bytes => return bytes

/-- The text of a file. -/
def read (disk : Disk) (p : Path) : Except FileError Text :=
  (disk.readBytes p).map fun bytes => (Utf8.decode bytes).unifyLineEnds

/-- The levels of directories below a path. -/
def height (disk : Disk) (p : Path) : Nat :=
  match disk.walk p with
  | .ok ⟨_, some (.directory dir)⟩ => dir.depth
  | _ => 0

theorem walk_child {disk : Disk} {p : Path} {name : Text} (h : Path.isAnchor name = false) :
    disk.walk (p.child name) = (disk.walk p >>= fun place => place.step name) := by
  have ha : (p.child name).isAbsolute = p.isAbsolute := Path.isAbsolute_child fun _ => h
  have hparts : (disk.cwd.append (p.child name)).parts = (disk.cwd.append p).parts ++ [name] := by
    by_cases hp : p.isAbsolute = true <;> simp only [Path.append, ha, hp] <;> simp [Path.child]
  simp [walk, hparts, List.filter_append, h, List.foldlM_append]

/-- A directory that is listed is at the end of the path. -/
theorem walk_of_list {disk : Disk} {p : Path} {es : List Entry} (h : disk.list p = .ok es) :
    ∃ trail dir, disk.walk p = .ok ⟨trail, some (.directory dir)⟩ ∧ es = sortedEntries dir := by
  unfold list lookup locate at h
  split at h
  · simp [bind, Except.bind] at h
  · split at h
    · simp [bind, Except.bind] at h
    · cases hw : disk.walk p with
      | error problem =>
        rw [hw] at h
        cases h
      | ok place =>
        rw [hw] at h
        obtain ⟨trail, - | ⟨bytes⟩ | dir⟩ := place
        · cases h
        · cases h
        · cases h
          exact ⟨trail, dir, rfl, rfl⟩

theorem height_child {disk : Disk} {p : Path} {es : List Entry} {e : Entry}
    (hl : disk.list p = .ok es) (he : e ∈ es) : disk.height (p.child e.name) < disk.height p := by
  obtain ⟨trail, dir, hw, rfl⟩ := walk_of_list hl
  obtain ⟨hmem, hname⟩ := List.mem_filter.1 (List.mem_mergeSort.1 he)
  simp only [isEntryName, Bool.and_eq_true, bne_iff_ne, ne_eq, Bool.not_eq_eq_eq_not,
    Bool.not_true] at hname
  have hpos := Directory.depth_pos hmem
  unfold height
  rw [walk_child hname.2, hw]
  simp only [bind, Except.bind, Place.step, hname.1, ↓reduceIte]
  split
  · next hs =>
    split at hs
    · simp at hs
    · obtain ⟨-, hf⟩ : _ ∧ dir.find? e.name = _ := by simpa using hs
      exact Directory.depth_lt_of_find? hf
  · exact hpos

theorem isAbsolute_child {disk : Disk} {p : Path} {es : List Entry} {e : Entry}
    (hl : disk.list p = .ok es) (he : e ∈ es) : (p.child e.name).isAbsolute = p.isAbsolute := by
  obtain ⟨-, dir, -, rfl⟩ := walk_of_list hl
  obtain ⟨-, hname⟩ := List.mem_filter.1 (List.mem_mergeSort.1 he)
  simp only [isEntryName, Bool.and_eq_true, Bool.not_eq_eq_eq_not, Bool.not_true] at hname
  exact Path.isAbsolute_child fun _ => hname.2

/-- The disk as a file system. -/
def fileSystem (disk : Disk) : FileSystem where
  list := disk.list
  read := disk.read
  height := disk.height
  height_child := fun hl he _ => height_child hl he
  isAbsolute_child := isAbsolute_child

/-- Does something stand at the end of a path? That it cannot be told for a path that is too long is
an error; whatever else is wrong with a path, nothing is there. -/
def probe (disk : Disk) (p : Path) (test : DiskNode → Bool) : Except FileError Bool :=
  match disk.lookup p with
  | .ok node => .ok (test node)
  | .error (.system .nameTooLong q) => .error (.system .nameTooLong q)
  | .error _ => .ok false

/-- Does a path lead to a directory? -/
def isDirectory (disk : Disk) (p : Path) : Except FileError Bool := disk.probe p DiskNode.isDirectory

/-- Does a path lead to anything? -/
def contains (disk : Disk) (p : Path) : Except FileError Bool := disk.probe p fun _ => true

/-- The disk with a node at a place. -/
def put (disk : Disk) (place : Place) (node : DiskNode) : Disk :=
  { disk with root := Place.rebuild place.trail node }

/-- The disk with a directory at the end of a path whose directories are there. -/
def makeDirectory (disk : Disk) (p : Path) : Except FileError Disk := do
  let place ← disk.locate p
  if place.node?.isSome then .error (.system .exists p) else return disk.put place (.directory .empty)

/-- The disk with a directory at the end of a path whose directories are there; one that is there
stays. -/
def keepDirectory (disk : Disk) (p : Path) : Except FileError Disk :=
  match disk.makeDirectory p with
  | .ok disk => .ok disk
  | .error e => do
    if e != .system .notFound p && (← disk.isDirectory p) then return disk else .error e

/-- The disk with a directory at the end of a path and all those that lead to it. `fuel` bounds the
directories to make. -/
def keepDirectories (disk : Disk) (fuel : Nat) (p : Path) : Except FileError Disk :=
  match fuel, disk.keepDirectory p with
  | fuel + 1, .error (.system .notFound _) => do
    let disk ← disk.keepDirectories fuel p.parent
    disk.keepDirectory p
  | _, outcome => outcome

/-- The disk with a directory at the end of a path and all those that lead to it. -/
def ensureDirectory (disk : Disk) (p : Path) : Except FileError Disk :=
  disk.keepDirectories p.parts.length p

/-- The disk with a file at the end of a path whose directories are there. -/
def writeBytes (disk : Disk) (p : Path) (bytes : List UInt8) : Except FileError Disk := do
  let place ← disk.locate p
  match place.trail, place.node? with
  | [], _ | _, some (.directory _) => .error (.system .isDirectory p)
  | _, _ => return disk.put place (.file bytes)

/-- The disk without a path and everything below it. -/
def delete (disk : Disk) (p : Path) : Disk :=
  match disk.locate p with
  | .ok ⟨(name, dir) :: rest, _⟩ => { disk with root := Place.rebuild rest (.directory (dir.erase name)) }
  | .ok ⟨[], _⟩ => { disk with root := .empty }
  | .error _ => disk

end Disk

end ComponentCatalog
