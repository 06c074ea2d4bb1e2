import ComponentCatalog.Files.Memory
import ComponentCatalog.Proofs.ProjectScan
import Mathlib.Data.List.Forall2

/-!
# Trees of example projects

A tree shows what the directories of a project list, level by level and without the names that begin with
a dot. The tree with one level less is the same one with its lowest level taken away.
-/

namespace ComponentCatalog

open Work

variable {files : FileSystem} {dir p : Path} {levels level : Nat} {shown top : List TreeNode}

/-- Does a tree show an entry? -/
def Entry.isVisible (e : Entry) : Bool := e.name.head? != some '.'

namespace TreeNode

/-- What a tree shows of a directory. A file has no children, not even an empty list. -/
def children? : TreeNode → Option (List TreeNode)
  | file _ _ => none
  | directory _ _ children => some children

/-- A node for an entry of the directory `p`. -/
structure Shows (p : Path) (e : Entry) (node : TreeNode) : Prop where
  name : node.name = e.name
  path : node.path = (p.child e.name).toText
  children : node.children?.isSome = e.isDirectory

/-- The node without the children of its directories so many levels below it. -/
def emptied : Nat → TreeNode → TreeNode
  | _, file name path => file name path
  | 0, directory name path _ => directory name path []
  | level + 1, directory name path children => directory name path (children.map (emptied level))

end TreeNode

/-- In a tree of the directory `dir`, the nodes `shown` stand for the directory `p`, so many levels below
the top. -/
inductive IsShown (top : List TreeNode) (dir : Path) : Nat → Path → List TreeNode → Prop
  | top : IsShown top dir 0 dir top
  | child {level : Nat} {p : Path} {shown children : List TreeNode} {node : TreeNode} :
      IsShown top dir level p shown → node ∈ shown → node.children? = some children →
        IsShown top dir (level + 1) (p.child node.name) children

/-- What a tree of that depth shows of a directory so many levels below its top. -/
structure ShowsDirectory (files : FileSystem) (depth : Int) (level : Nat) (p : Path)
    (shown : List TreeNode) : Prop where
  listed : ∀ entries, files.list p = .ok entries → level < depth →
    List.Forall₂ (TreeNode.Shows p) (entries.filter Entry.isVisible) shown
  unlisted : ∀ e, files.list p = .error e → shown = []
  bottom : depth ≤ level → shown = []

/-! ## One level of a tree -/

/-- The node of an entry, with so many levels below it. -/
def entryNode (files : FileSystem) (levels : Nat) (p : Path) (e : Entry) : TreeNode :=
  if e.isDirectory then
    .directory e.name (p.child e.name).toText (treeNodes files levels (p.child e.name))
  else .file e.name (p.child e.name).toText

theorem treeNodes_succ (files : FileSystem) (levels : Nat) (p : Path) :
    treeNodes files (levels + 1) p =
      (((files.list p).toOption.getD []).filter Entry.isVisible).map (entryNode files levels p) := rfl

theorem entryNode_shows (files : FileSystem) (levels : Nat) (p : Path) (e : Entry) :
    TreeNode.Shows p e (entryNode files levels p e) := by
  unfold entryNode
  cases he : e.isDirectory with
  | true => exact ⟨rfl, rfl, he.symm⟩
  | false => exact ⟨rfl, rfl, he.symm⟩

theorem TreeNode.map_name_of_shows {entries : List Entry} (h : List.Forall₂ (TreeNode.Shows p) entries shown) :
    shown.map TreeNode.name = entries.map Entry.name := by
  induction h with
  | nil => rfl
  | cons hnode _ ih => rw [List.map_cons, List.map_cons, hnode.name, ih]

theorem children?_of_mem_treeNodes {node : TreeNode} {children : List TreeNode}
    (hnode : node ∈ treeNodes files levels p) (h : node.children? = some children) :
    children = treeNodes files (levels - 1) (p.child node.name) := by
  cases levels with
  | zero => cases hnode
  | succ levels =>
      rw [treeNodes_succ] at hnode
      obtain ⟨e, -, rfl⟩ := List.mem_map.1 hnode
      rw [(entryNode_shows files levels p e).name, Nat.add_sub_cancel]
      cases he : e.isDirectory with
      | true =>
          rw [entryNode, if_pos he] at h
          exact (Option.some.inj h).symm
      | false =>
          rw [entryNode, if_neg (by simp [he])] at h
          cases h

theorem showsDirectory_treeNodes (files : FileSystem) (depth : Int) (level : Nat) (p : Path) :
    ShowsDirectory files depth level p (treeNodes files (depth.toNat - level) p) where
  listed entries hlist hlevel := by
    obtain ⟨levels, hlevels⟩ : ∃ levels, depth.toNat - level = levels + 1 := Nat.exists_eq_add_one.2 (by omega)
    rw [hlevels, treeNodes_succ, hlist]
    exact List.forall₂_map_right_iff.2 (List.forall₂_same.2 fun e _ => entryNode_shows files levels p e)
  unlisted e hlist := by
    cases depth.toNat - level with
    | zero => rfl
    | succ levels => rw [treeNodes_succ, hlist]; rfl
  bottom hlevel := by
    rw [Nat.sub_eq_zero_of_le (by omega)]
    rfl

/-! ## All levels of a tree -/

theorem eq_treeNodes_of_isShown (h : IsShown (treeNodes files levels dir) dir level p shown) :
    shown = treeNodes files (levels - level) p := by
  induction h with
  | top => rfl
  | child _ hnode hchildren ih => rw [children?_of_mem_treeNodes (ih ▸ hnode) hchildren, Nat.sub_sub]

theorem treeNodes_emptied (files : FileSystem) (levels : Nat) (p : Path) :
    treeNodes files (levels + 1) p = (treeNodes files (levels + 2) p).map (TreeNode.emptied levels) := by
  induction levels generalizing p with
  | zero =>
      rw [treeNodes_succ, treeNodes_succ, List.map_map]
      refine List.map_congr_left fun e _ => ?_
      cases he : e.isDirectory <;> simp [entryNode, he, TreeNode.emptied, treeNodes]
  | succ levels ih =>
      rw [treeNodes_succ, treeNodes_succ, List.map_map]
      refine List.map_congr_left fun e _ => ?_
      cases he : e.isDirectory <;> simp [entryNode, he, TreeNode.emptied, ih]

/-- A tree shows every directory in it as it is listed, down to the level at which it ends. With one level
more it would show the same down to there. -/
theorem tree_truncates (lib : Library) (hlog : lib.logger.Accepts) (dir : Path) (depth : Int) :
    ∃ nodes, Does (Scan.tree lib depth.toNat dir) (.ok nodes) [] ∧
      (∀ level p shown, IsShown nodes dir level p shown → ShowsDirectory lib.files depth level p shown) ∧
      (1 ≤ depth → ∃ deeper, Does (Scan.tree lib (depth + 1).toNat dir) (.ok deeper) [] ∧
        nodes = deeper.map (TreeNode.emptied (depth - 1).toNat)) := by
  refine ⟨_, Scan.tree_does hlog _ dir, fun level p shown hshown => ?_, fun hdepth => ?_⟩
  · rw [eq_treeNodes_of_isShown hshown]
    exact showsDirectory_treeNodes lib.files depth level p
  · refine ⟨_, Scan.tree_does hlog _ dir, ?_⟩
    obtain ⟨levels, rfl⟩ : ∃ levels : Nat, depth = levels + 1 := ⟨(depth - 1).toNat, by omega⟩
    rw [Int.add_sub_cancel, Int.toNat_natCast]
    exact treeNodes_emptied lib.files levels dir

/-- A project with directories in one another, and with one whose name begins with a dot. -/
def nestedLibrary : Library where
  root := Path.ofText "/lib"
  files := (((({} : MemoryFiles).write "/lib/examples/demo/.git/config" "").write
    "/lib/examples/demo/src/pages/home.js" "").write "/lib/examples/demo/package.json" "").fileSystem
  settings := .ofBase ⟨[]⟩

theorem tree_truncates_nestedLibrary : nestedLibrary.logger.Accepts ∧ ∃ nodes deeper,
    Does (Scan.tree nestedLibrary 2 (Path.ofText "/lib/examples/demo")) (.ok nodes) [] ∧
      Does (Scan.tree nestedLibrary 3 (Path.ofText "/lib/examples/demo")) (.ok deeper) [] ∧
        nodes.map TreeNode.name = ["src".toList, "package.json".toList] ∧
          nodes = deeper.map (TreeNode.emptied 1) := by
  obtain ⟨nodes, hnodes, hlevels, hdeeper⟩ :=
    tree_truncates nestedLibrary Logger.silent_accepts (Path.ofText "/lib/examples/demo") 2
  obtain ⟨deeper, htree, hemptied⟩ := hdeeper (by decide)
  refine ⟨Logger.silent_accepts, nodes, deeper, hnodes, htree, ?_, hemptied⟩
  have hshown : List.Forall₂ (TreeNode.Shows _) [⟨"src", true⟩, ⟨"package.json", false⟩] nodes :=
    (hlevels 0 _ _ .top).listed [⟨".git", true⟩, ⟨"src", true⟩, ⟨"package.json", false⟩] rfl (by decide)
  exact TreeNode.map_name_of_shows hshown

end ComponentCatalog
