import ComponentCatalog.Proofs.Manifests

/-!
# Documentation of example projects

The documentation of a project should be the file of that name in its directory whenever there is one.
It is looked for in the tree of the project instead of the listing of the directory: a tree without any
levels shows no file, and no tree shows a name that begins with a dot.
-/

namespace ComponentCatalog

open Work

variable {files : FileSystem} {l : Layout} {dir : Path}

/-- Does a directory list a file with the name of a documentation? -/
def Layout.listsReadme (l : Layout) (entries : List Entry) : Bool :=
  entries.any fun e => !e.isDirectory && e.name == l.readmeName

/-- The documentation in a directory, empty if there is none that can be read. -/
def readmeText (files : FileSystem) (l : Layout) (dir : Path) : Text :=
  if l.listsReadme ((files.list dir).toOption.getD []) then
    (files.read (dir.join l.readmeName)).toOption.getD []
  else []

/-- A tree has levels, and shows the name of a documentation. -/
def Layout.FitsReadme (l : Layout) : Prop := 0 < l.treeDepth ∧ l.readmeName.head? ≠ some '.'

theorem showsReadme_of_not_fits (h : ¬ l.FitsReadme) :
    l.showsReadme (treeNodes files l.treeDepth.toNat dir) = false := by
  cases hlevels : l.treeDepth.toNat with
  | zero => rfl
  | succ levels =>
      have hdot : l.readmeName.head? = some '.' := by
        by_contra hdot
        exact h ⟨by omega, hdot⟩
      simp only [Layout.showsReadme, treeNodes, List.any_eq_false, List.mem_map, List.mem_filter]
      rintro node ⟨e, ⟨-, hname⟩, rfl⟩ hshown
      cases he : e.isDirectory with
      | true => simp [he, TreeNode.isFile] at hshown
      | false =>
          have heq : e.name = l.readmeName := by simpa [he, TreeNode.isFile, TreeNode.name] using hshown
          simp [heq, hdot] at hname

theorem showsReadme_of_fits (h : l.FitsReadme) :
    l.showsReadme (treeNodes files l.treeDepth.toNat dir) =
      l.listsReadme ((files.list dir).toOption.getD []) := by
  obtain ⟨hdepth, hdot⟩ := h
  obtain ⟨levels, hlevels⟩ : ∃ levels, l.treeDepth.toNat = levels + 1 :=
    Nat.exists_eq_add_one.2 (by omega)
  rw [hlevels, Layout.showsReadme, Layout.listsReadme, treeNodes, List.any_map, List.any_filter]
  congr 1
  funext e
  cases he : e.isDirectory with
  | true => simp [he, TreeNode.isFile]
  | false =>
      by_cases hname : e.name = l.readmeName
      · simp [he, TreeNode.isFile, TreeNode.name, hname, hdot]
      · simp [he, TreeNode.isFile, TreeNode.name, hname]

theorem projectDocumentation_of_fits (h : l.FitsReadme) :
    projectDocumentation files l dir (treeNodes files l.treeDepth.toNat dir) = readmeText files l dir := by
  rw [projectDocumentation, showsReadme_of_fits h, readmeText]

theorem projectDocumentation_of_not_fits (h : ¬ l.FitsReadme) :
    projectDocumentation files l dir (treeNodes files l.treeDepth.toNat dir) = [] := by
  rw [projectDocumentation, showsReadme_of_not_fits h, if_neg Bool.false_ne_true]

/-- After a build a listed project has the documentation of its directory, unless the tree cannot show
it: then it has none. -/
theorem build_documents_iff (lib : Library) (hlog : lib.logger.Accepts)
    (hl : lib.settings.LaysProjects l) (w : Workspace) :
    ∃ index log, build lib w = .ok () ⟨index, log⟩ ∧
      ∀ entries entry, lib.files.list (lib.root.join l.examplesDir) = .ok entries → entry ∈ entries →
        entry.isDirectory = true → ¬ lib.LosesProject l entry.name →
          ∃ record, index.examples.find? entry.name = some record ∧
            (record.documentation = readmeText lib.files l (l.projectDir lib.root entry.name) ↔
              l.FitsReadme ∨ readmeText lib.files l (l.projectDir lib.root entry.name) = []) := by
  obtain ⟨edits, hdoes, hedits⟩ := scanAll_projects hlog hl
  obtain ⟨log, hbuild⟩ := build_edited hlog hdoes w
  refine ⟨_, _, hbuild, fun entries entry hlist hentry hdirectory hkept => ?_⟩
  have hfind := edited_project hedits hlist hentry hdirectory
  rw [Library.losesProject_iff] at hkept
  cases hm : projectManifest lib.files l (l.projectDir lib.root entry.name) with
  | error fault => exact absurd ⟨fault, hm⟩ hkept
  | ok manifest =>
      rw [hm] at hfind
      refine ⟨_, hfind, ?_⟩
      show projectDocumentation .. = _ ↔ _
      by_cases hfits : l.FitsReadme
      · rw [projectDocumentation_of_fits hfits]
        exact iff_of_true rfl (.inl hfits)
      · rw [projectDocumentation_of_not_fits hfits, or_iff_right hfits]
        exact eq_comm

/-- A project with a documentation, in a library whose trees have no levels. -/
def treelessLibrary : Library where
  root := Path.ofText "/lib"
  files := (({} : MemoryFiles).write "/lib/examples/demo/README.md" "A demo.").fileSystem
  settings := ((Settings.ofBase ⟨[]⟩).set "library" "tree_depth" "0").2

/-- A layout in which projects have no tree. -/
def treelessLayout : Layout := { Layout.standard with treeDepth := 0 }

theorem treelessLibrary_lays : treelessLibrary.settings.LaysProjects treelessLayout where
  examplesDir := rfl
  readmeName := rfl
  manifestName := rfl
  treeDepth := rfl

/-- The documentation is there, and the record of the project does not have it. -/
theorem treelessLibrary_undocumented :
    readmeText treelessLibrary.files treelessLayout (Path.ofText "/lib/examples/demo") = "A demo." ∧
      ∃ index log, build treelessLibrary {} = .ok () ⟨index, log⟩ ∧
        ∃ record, index.examples.find? "demo" = some record ∧ record.documentation ≠ "A demo." := by
  obtain ⟨index, log, hbuild, hdocuments⟩ :=
    build_documents_iff treelessLibrary Logger.silent_accepts treelessLibrary_lays {}
  have hkept : ¬ treelessLibrary.LosesProject treelessLayout "demo" := by
    rintro (⟨e, hread, hsystem⟩ | ⟨t, excess, hread, -⟩)
    · cases hread
      cases hsystem
    · cases hread
  obtain ⟨record, hfind, hiff⟩ := hdocuments [⟨"demo", true⟩] ⟨"demo", true⟩ rfl (by simp) rfl hkept
  refine ⟨rfl, index, log, hbuild, record, hfind, fun hdocumentation => ?_⟩
  rcases hiff.1 hdocumentation with hfits | hempty
  · exact absurd hfits.1 (by decide)
  · cases hempty

end ComponentCatalog
