import ComponentCatalog.Proofs.PluginScan

/-!
# What the scan of example projects does

A project is set with its manifest, its tree and its documentation. Only a manifest that fails in an
unforeseen way costs a project its record.
-/

namespace ComponentCatalog

open Work

variable {lib : Library} {l : Layout}

/-- The tree below a directory, so many levels deep. -/
def treeNodes (files : FileSystem) (levels : Nat) (dir : Path) : List TreeNode :=
  match levels with
  | 0 => []
  | levels + 1 =>
    (((files.list dir).toOption.getD []).filter fun e => e.name.head? != some '.').map fun e =>
      if e.isDirectory then
        .directory e.name (dir.child e.name).toText (treeNodes files levels (dir.child e.name))
      else .file e.name (dir.child e.name).toText

/-- The manifest of a project: a value, none, or a fault of the project. -/
def projectManifest (files : FileSystem) (l : Layout) (dir : Path) : Except Fault (Option Json) :=
  match files.read (dir.join l.manifestName) with
  | .error e => if e.isSystem then .ok none else .error (.file e)
  | .ok t =>
    match Json.read t with
    | .ok v => .ok (some v)
    | .error (.excess e) => .error (.excess e)
    | .error _ => .ok none

/-- Is a README among the nodes at the top of a tree? -/
def Layout.showsReadme (l : Layout) (nodes : List TreeNode) : Bool :=
  nodes.any fun node => node.isFile && node.name == l.readmeName

/-- The documentation of a project, if its tree shows one that can be read. -/
def projectDocumentation (files : FileSystem) (l : Layout) (dir : Path) (nodes : List TreeNode) : Text :=
  if l.showsReadme nodes then
    (files.read (dir.join l.readmeName)).toOption.getD []
  else []

/-- The record of a project, from its manifest, its tree and its README. -/
def projectRecord (files : FileSystem) (l : Layout) (dir : Path) (name : Text) (manifest : Option Json) :
    ExampleRecord :=
  let nodes := treeNodes files l.treeDepth.toNat dir
  { name, dirPath := dir.toText, manifest, tree := nodes,
    documentation := projectDocumentation files l dir nodes }

/-- The edits of one project; there is none if its manifest cannot be taken. -/
def projectDirectoryEdits (files : FileSystem) (l : Layout) (dir : Path) (name : Text) : List Edit :=
  match projectManifest files l dir with
  | .ok manifest => [.project name (projectRecord files l dir name manifest)]
  | .error _ => []

/-- The edits of the scan of projects. -/
def projectEdits (files : FileSystem) (root : Path) (l : Layout) : List Edit :=
  ((files.list (root.join l.examplesDir)).toOption.getD []).flatMap fun e =>
    if e.isDirectory then
      projectDirectoryEdits files l ((root.join l.examplesDir).child e.name) e.name
    else []

namespace Scan

theorem tree_does (hlog : lib.logger.Accepts) (levels : Nat) (dir : Path) :
    Does (tree lib levels dir) (.ok (treeNodes lib.files levels dir)) [] := by
  induction levels generalizing dir with
  | zero => exact Does.pure []
  | succ levels ih =>
      unfold tree treeNodes
      refine (listed_does hlog dir).then ?_
      cases lib.files.list dir with
      | error e => exact Does.pure []
      | ok entries =>
          refine Does.mapM fun e _ => ?_
          dsimp only
          cases e.isDirectory with
          | true => exact (ih _).then (Does.pure _)
          | false => exact Does.pure _

theorem manifest_does (hlog : lib.logger.Accepts) (hl : lib.settings.LaysProjects l) (dir : Path)
    (project : Text) : Does (manifest lib dir project) (projectManifest lib.files l dir) [] := by
  refine (Does.setting hl.manifestName).then ?_
  unfold projectManifest
  cases lib.files.read (dir.join l.manifestName) with
  | error e =>
      dsimp only
      cases e.isSystem with
      | true => exact (Does.tell hlog _ _).then (Does.pure none)
      | false => exact Does.throw _
  | ok t =>
      dsimp only
      cases Json.read t with
      | ok v => exact Does.pure (some v)
      | error fault =>
          cases fault with
          | excess e => exact Does.throw _
          | _ => exact (Does.tell hlog _ _).then (Does.pure none)

theorem exampleDocumentation_does (hlog : lib.logger.Accepts) (hl : lib.settings.LaysProjects l) (dir : Path)
    (project : Text) (nodes : List TreeNode) :
    Does (exampleDocumentation lib dir project nodes)
      (.ok (projectDocumentation lib.files l dir nodes)) [] := by
  unfold exampleDocumentation projectDocumentation Layout.showsReadme
  cases nodes with
  | nil => exact Does.pure []
  | cons node nodes =>
      refine (Does.setting hl.readmeName).then ?_
      cases (node :: nodes).any fun node => node.isFile && node.name == l.readmeName with
      | false => exact Does.pure []
      | true =>
          simp only [↓reduceIte]
          cases hr : lib.files.read (dir.join l.readmeName) with
          | ok t => exact (Does.read hr).tryCatch_ok
          | error e =>
              exact (Does.read_error hr).tryCatch_error ((Does.tell hlog _ _).then (Does.pure []))

theorem project_does (hlog : lib.logger.Accepts) (hl : lib.settings.LaysProjects l) (what : Text) (dir : Path)
    (name : Text) :
    Does (guarded lib what (project lib dir name)) (.ok ())
      (projectDirectoryEdits lib.files l dir name) := by
  have hmanifest := manifest_does hlog hl dir name
  unfold projectDirectoryEdits
  cases hm : projectManifest lib.files l dir with
  | error fault =>
      rw [hm] at hmanifest
      exact hmanifest.bind_error.guarded_error hlog
  | ok manifest =>
      rw [hm] at hmanifest
      refine Does.guarded_ok (hmanifest.then ((Does.setting hl.treeDepth).then ?_))
      refine (tree_does hlog _ _).then ((exampleDocumentation_does hlog hl _ _ _).then ?_)
      refine (Does.update (e := .project name (projectRecord lib.files l dir name manifest))
        fun _ => rfl).bind ?_
      exact Does.tell hlog _ _

theorem examples_does (hlog : lib.logger.Accepts) (hl : lib.settings.LaysProjects l) :
    Does (examples lib) (.ok ()) (projectEdits lib.files lib.root l) := by
  refine (Does.setting hl.examplesDir).then ((listed_does hlog _).then ?_)
  unfold projectEdits
  cases lib.files.list (lib.root.join l.examplesDir) with
  | error e => exact Does.pure ()
  | ok entries =>
      refine Does.forM fun e _ => ?_
      split
      · exact project_does hlog hl _ _ _
      · exact Does.pure ()

end Scan

end ComponentCatalog
