import ComponentCatalog.Files.FileSystem
import ComponentCatalog.OrderedMap

/-!
# Files in memory

Files are kept as a map from paths to texts. A directory is there because something lies below it,
or because it is marked. Entries are listed in the order in which their paths were first written.
Failures can be laid on single paths.
-/

namespace ComponentCatalog

/-- What is stored under a path. -/
inductive MemoryNode where
  | file (text : Text)
  | directory
deriving Repr, DecidableEq

/-- Files in memory and the failures laid on paths. -/
structure MemoryFiles where
  nodes : OrderedMap Path MemoryNode := ∅
  failures : OrderedMap Path FileError := ∅

namespace MemoryFiles

/-- The entry of the directory `dir` that the stored path `p` shows: the first part below `dir`,
which is a directory if the path goes deeper or is marked as one. -/
def entryBelow? (dir p : Path) (node : MemoryNode) : Option Entry :=
  if p.isWithin dir then
    match p.parts.drop dir.parts.length with
    | [] => none
    | name :: deeper => some ⟨name, !deeper.isEmpty || node == .directory⟩
  else none

/-- The entries with `e` among them; an entry is a directory if any of its name is one. -/
def addEntry (entries : List Entry) (e : Entry) : List Entry :=
  if entries.any (·.name == e.name) then
    entries.map fun x => if x.name = e.name then ⟨x.name, x.isDirectory || e.isDirectory⟩ else x
  else entries ++ [e]

/-- The entries below a directory. -/
def entries (files : MemoryFiles) (dir : Path) : List Entry :=
  (files.nodes.entries.filterMap fun (p, node) => entryBelow? dir p node).foldl addEntry []

/-- The entries of a directory; it is there if it was made or anything is below it. -/
def list (files : MemoryFiles) (dir : Path) : Except FileError (List Entry) :=
  match files.failures.find? dir with
  | some e => .error e
  | none =>
    let entries := files.entries dir
    if entries.isEmpty && files.nodes.find? dir != some .directory then .error (.noSuchDirectory dir)
    else .ok entries

/-- The text of a file, unless it was made to fail. -/
def read (files : MemoryFiles) (p : Path) : Except FileError Text :=
  match files.failures.find? p with
  | some e => .error e
  | none =>
    match files.nodes.find? p with
    | some (.file t) => .ok t
    | _ => .error (.noSuchFile p)

/-- The number of parts of the longest stored path. -/
def depth (files : MemoryFiles) : Nat :=
  files.nodes.keys.foldr (fun p n => max p.parts.length n) 0

theorem length_le_depth {files : MemoryFiles} {p : Path} (h : p ∈ files.nodes.keys) :
    p.parts.length ≤ files.depth := by
  unfold depth
  generalize files.nodes.keys = keys at h
  induction keys with
  | nil => simp at h
  | cons q rest ih =>
    simp only [List.foldr_cons]
    rcases List.mem_cons.1 h with rfl | h
    · omega
    · have := ih h
      omega

theorem length_lt_of_entryBelow? {dir p : Path} {node : MemoryNode} {e : Entry}
    (h : entryBelow? dir p node = some e) : dir.parts.length < p.parts.length := by
  unfold entryBelow? at h
  split at h
  · split at h
    · simp at h
    · next name deeper hd =>
      have := congrArg List.length hd
      simp only [List.length_drop, List.length_cons] at this
      omega
  · simp at h

theorem exists_of_mem_addEntry {es : List Entry} {e x : Entry} (h : x ∈ addEntry es e) :
    ∃ y, (y ∈ es ∨ y = e) ∧ y.name = x.name := by
  unfold addEntry at h
  split at h
  · obtain ⟨y, hy, rfl⟩ := List.mem_map.1 h
    exact ⟨y, .inl hy, by split <;> rfl⟩
  · rcases List.mem_append.1 h with h | h
    · exact ⟨x, .inl h, rfl⟩
    · exact ⟨x, .inr (by simpa using h), rfl⟩

theorem exists_of_mem_foldl_addEntry {new es : List Entry} {x : Entry}
    (h : x ∈ new.foldl addEntry es) : ∃ y, (y ∈ es ∨ y ∈ new) ∧ y.name = x.name := by
  induction new generalizing es with
  | nil => exact ⟨x, .inl h, rfl⟩
  | cons e rest ih =>
    obtain ⟨y, hy | hy, hn⟩ := ih h
    · obtain ⟨z, hz | hz, hzn⟩ := exists_of_mem_addEntry hy
      · exact ⟨z, .inl hz, hzn.trans hn⟩
      · exact ⟨z, .inr (by simp [hz]), hzn.trans hn⟩
    · exact ⟨y, .inr (List.mem_cons_of_mem _ hy), hn⟩

/-- A directory with an entry is shorter than some stored path. -/
theorem length_lt_depth {files : MemoryFiles} {dir : Path} {x : Entry}
    (h : x ∈ files.entries dir) : dir.parts.length < files.depth := by
  obtain ⟨y, hy | hy, _⟩ := exists_of_mem_foldl_addEntry h
  · simp at hy
  · obtain ⟨⟨p, node⟩, hp, hy⟩ := List.mem_filterMap.1 hy
    exact Nat.lt_of_lt_of_le (length_lt_of_entryBelow? hy)
      (length_le_depth (List.mem_map_of_mem hp))

theorem mem_entries_of_list {files : MemoryFiles} {dir : Path} {es : List Entry}
    (h : files.list dir = .ok es) : es = files.entries dir := by
  unfold list at h
  split at h
  · simp at h
  · simp only at h
    split at h
    · simp at h
    · simpa using h.symm

/-- What a stored path shows in the empty path is no anchor. -/
theorem isAnchor_of_entryBelow? {dir p : Path} {node : MemoryNode} {e : Entry}
    (h : entryBelow? dir p node = some e) (hd : dir.parts = []) : Path.isAnchor e.name = false := by
  simp only [entryBelow?, Path.isWithin, hd, List.length_nil, List.drop_zero] at h
  cases hp : p.parts with
  | nil => simp [hp] at h
  | cons name deeper =>
    simp only [Path.isAbsolute, hd, hp] at h
    split at h
    · next ha =>
      obtain rfl : name = e.name := by simpa using congrArg (Option.map Entry.name) h
      simpa using ha
    · simp at h

theorem isAbsolute_child {files : MemoryFiles} {p : Path} {es : List Entry} {e : Entry}
    (hl : files.list p = .ok es) (he : e ∈ es) : (p.child e.name).isAbsolute = p.isAbsolute := by
  obtain rfl := mem_entries_of_list hl
  obtain ⟨y, hy | hy, hn⟩ := exists_of_mem_foldl_addEntry he
  · simp at hy
  · obtain ⟨⟨q, node⟩, -, hq⟩ := List.mem_filterMap.1 hy
    exact Path.isAbsolute_child fun hp => hn ▸ isAnchor_of_entryBelow? hq hp

theorem height_child {files : MemoryFiles} {p : Path} {es : List Entry} {e : Entry}
    (hl : files.list p = .ok es) (he : e ∈ es) :
    files.depth - (p.child e.name).parts.length < files.depth - p.parts.length := by
  have := length_lt_depth (mem_entries_of_list hl ▸ he)
  simp only [Path.child, List.length_append, List.length_cons, List.length_nil]
  omega

/-- The files as a file system. A path is as high as the longest stored path exceeds it. -/
def fileSystem (files : MemoryFiles) : FileSystem where
  list := files.list
  read := files.read
  height p := files.depth - p.parts.length
  height_child := fun hl he _ => height_child hl he
  isAbsolute_child := isAbsolute_child

/-- The path and the node that a written path stands for: one that ends with a slash marks a
directory. -/
def write (files : MemoryFiles) (path content : Text) : MemoryFiles :=
  let node := if Text.endsWith path "/" then MemoryNode.directory else .file content
  { files with nodes := files.nodes.insert (Path.ofText path) node }

/-- The files without a path and everything below it. -/
def delete (files : MemoryFiles) (p : Path) : MemoryFiles :=
  { files with nodes := files.nodes.filterKeys fun q => !q.isWithin p }

/-- A failure on a path, in the place of an earlier one. -/
def fail (files : MemoryFiles) (p : Path) (e : FileError) : MemoryFiles :=
  { files with failures := files.failures.insert p e }

/-- The files without the failure on a path. -/
def unfail (files : MemoryFiles) (p : Path) : MemoryFiles :=
  { files with failures := files.failures.erase p }

end MemoryFiles

end ComponentCatalog
