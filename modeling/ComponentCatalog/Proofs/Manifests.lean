import ComponentCatalog.Files.Memory
import ComponentCatalog.Proofs.BuildEdits

/-!
# Manifests of example projects

A project should be in the index whatever becomes of its manifest: with the value that the manifest
holds or without any, and with all else as it is beside a manifest in order. It is, unless the manifest
cannot be read for a reason that is not the system's, or holds too much of digits or levels.
-/

namespace ComponentCatalog

open Work

variable {files files' : FileSystem} {root dir : Path} {l : Layout} {name : Text} {entries : List Entry}

/-! ## The record that a build leaves of a project -/

theorem mem_projectDirectoryEdits {e : Edit} :
    e ∈ projectDirectoryEdits files l dir name ↔
      ∃ manifest, projectManifest files l dir = .ok manifest ∧
        e = .project name (projectRecord files l dir name manifest) := by
  unfold projectDirectoryEdits
  cases projectManifest files l dir <;> simp

/-- The directory of a project. -/
def Layout.projectDir (l : Layout) (root : Path) (name : Text) : Path := (root.join l.examplesDir).child name

/-- The edits that set a project come from its directory, with what its manifest comes to. -/
theorem project_of_sets {e : Edit} (he : e ∈ scanEdits files root l .project)
    (hsets : e.sets .project name = true) :
    ∃ manifest, projectManifest files l (l.projectDir root name) = .ok manifest ∧
      e = .project name (projectRecord files l (l.projectDir root name) name manifest) := by
  obtain ⟨entry, -, he⟩ := List.mem_flatMap.1 he
  split at he
  · obtain ⟨manifest, hmanifest, rfl⟩ := mem_projectDirectoryEdits.1 he
    obtain rfl : entry.name = name := Option.some.inj (Edit.sets_iff.1 hsets).2
    exact ⟨manifest, hmanifest, rfl⟩
  · cases he

theorem project_mem_scanEdits {entry : Entry} (hlist : files.list (root.join l.examplesDir) = .ok entries)
    (hentry : entry ∈ entries) (hdirectory : entry.isDirectory = true) {manifest : Option Json}
    (hmanifest : projectManifest files l (l.projectDir root entry.name) = .ok manifest) :
    .project entry.name (projectRecord files l (l.projectDir root entry.name) entry.name manifest) ∈
      scanEdits files root l .project := by
  refine List.mem_flatMap.2 ⟨entry, ?_, ?_⟩
  · simpa [hlist, Except.toOption] using hentry
  · rw [if_pos hdirectory]
    exact mem_projectDirectoryEdits.2 ⟨manifest, hmanifest, rfl⟩

/-- If all edits that set a project set it to one record, there is no other record of the project. -/
theorem Index.examples_find?_eq {edits : List Edit} {record : ExampleRecord}
    (h : ∀ e ∈ edits, e.sets .project name = true → e = .project name record) :
    ∀ r, (({} : Index).edited edits).examples.find? name = some r → r = record := by
  refine edited_preserves (P := fun index => ∀ r, index.examples.find? name = some r → r = record) ?_ nofun
  intro e he index ih r hr
  cases hsets : e.sets .project name with
  | true =>
      rw [h e he hsets, Edit.apply, OrderedMap.find?_insert, if_pos rfl] at hr
      exact (Option.some.inj hr).symm
  | false => exact ih r ((records_apply (κ := .project) (by decide) hsets index).symm.trans hr)

/-- A listed project has the record that goes with what its manifest comes to, if that is no fault. -/
theorem edited_project {edits : List Edit}
    (hedits : ∀ e, e ∈ projectEdits files root l ↔ e ∈ edits ∧ e.kind = .project) {entry : Entry}
    (hlist : files.list (root.join l.examplesDir) = .ok entries) (hentry : entry ∈ entries)
    (hdirectory : entry.isDirectory = true) :
    (({} : Index).edited edits).examples.find? entry.name =
      (projectManifest files l (l.projectDir root entry.name)).toOption.map
        (projectRecord files l (l.projectDir root entry.name) entry.name) := by
  have hempty : entry.name ∉ (({} : Index).records .project).keys := List.not_mem_nil
  have hkey : (∃ record, (({} : Index).edited edits).examples.find? entry.name = some record) ↔
      ∃ e ∈ edits, e.sets .project entry.name = true :=
    OrderedMap.mem_keys.symm.trans (Index.mem_keys_edited.trans (or_iff_left hempty))
  have hsource : ∀ e ∈ edits, e.sets .project entry.name = true →
      e ∈ scanEdits files root l .project := fun e he hsets =>
    (hedits e).2 ⟨he, Edit.kind_of_sets hsets⟩
  cases hm : projectManifest files l (l.projectDir root entry.name) with
  | error fault =>
      refine Option.eq_none_iff_forall_ne_some.2 fun record hrecord => ?_
      obtain ⟨e, he, hsets⟩ := hkey.1 ⟨record, hrecord⟩
      obtain ⟨manifest, hmanifest, -⟩ := project_of_sets (hsource e he hsets) hsets
      cases hm.symm.trans hmanifest
  | ok manifest =>
      have hmem := (hedits _).1 (project_mem_scanEdits hlist hentry hdirectory hm)
      obtain ⟨record, hrecord⟩ := hkey.2 ⟨_, hmem.1, Edit.sets_iff.2 ⟨rfl, rfl⟩⟩
      have honly : ∀ e ∈ edits, e.sets .project entry.name = true →
          e = .project entry.name
            (projectRecord files l (l.projectDir root entry.name) entry.name manifest) := by
        intro e he hsets
        obtain ⟨manifest', hmanifest, rfl⟩ := project_of_sets (hsource e he hsets) hsets
        obtain rfl := Except.ok.inj (hm.symm.trans hmanifest)
        rfl
      rw [hrecord, Index.examples_find?_eq honly record hrecord]
      rfl

theorem builtIndex_project {entry : Entry} (hlist : files.list (root.join l.examplesDir) = .ok entries)
    (hentry : entry ∈ entries) (hdirectory : entry.isDirectory = true) :
    (builtIndex files root l).examples.find? entry.name =
      (projectManifest files l (l.projectDir root entry.name)).toOption.map
        (projectRecord files l (l.projectDir root entry.name) entry.name) :=
  edited_project (fun _ => mem_scanEdits (κ := .project)) hlist hentry hdirectory

/-! ## What a manifest may do to a project -/

/-- Everything is listed alike, and read alike but for `p`. -/
structure FileSystem.SameBut (files : FileSystem) (p : Path) (files' : FileSystem) : Prop where
  list : ∀ q, files.list q = files'.list q
  read : ∀ q, q ≠ p → files.read q = files'.read q

theorem FileSystem.SameBut.treeNodes_eq {p : Path} (h : files.SameBut p files') (levels : Nat)
    (dir : Path) : treeNodes files levels dir = treeNodes files' levels dir := by
  induction levels generalizing dir with
  | zero => rfl
  | succ levels ih =>
      unfold treeNodes
      rw [h.list]
      refine List.map_congr_left fun e _ => ?_
      rw [ih]

theorem FileSystem.SameBut.projectDocumentation_eq {p : Path} (h : files.SameBut p files')
    (hp : dir.join l.readmeName ≠ p) (nodes : List TreeNode) :
    projectDocumentation files l dir nodes = projectDocumentation files' l dir nodes := by
  unfold projectDocumentation
  rw [h.read _ hp]

namespace Library

variable {lib : Library} {v : Json}

/-- The manifest of a project. -/
def manifestPath (lib : Library) (l : Layout) (name : Text) : Path :=
  (l.projectDir lib.root name).join l.manifestName

/-- The manifest of a project holds a value. -/
def HasManifest (lib : Library) (l : Layout) (name : Text) (v : Json) : Prop :=
  ∃ t, lib.files.read (lib.manifestPath l name) = .ok t ∧ Json.read t = .ok v

/-- The manifest of a project cannot be read, or is no value. -/
def LacksManifest (lib : Library) (l : Layout) (name : Text) : Prop :=
  (∃ e, lib.files.read (lib.manifestPath l name) = .error e) ∨
    ∃ t reason left, lib.files.read (lib.manifestPath l name) = .ok t ∧
      Json.read t = .error (.malformed reason left)

/-- The manifest of a project cannot be read for a reason that is not the system's, or it has too many
digits or levels. -/
def LosesProject (lib : Library) (l : Layout) (name : Text) : Prop :=
  (∃ e, lib.files.read (lib.manifestPath l name) = .error e ∧ e.isSystem = false) ∨
    ∃ t excess, lib.files.read (lib.manifestPath l name) = .ok t ∧ Json.read t = .error (.excess excess)

theorem projectManifest_of_hasManifest (h : lib.HasManifest l name v) :
    projectManifest lib.files l (l.projectDir lib.root name) = .ok (some v) := by
  obtain ⟨t, hread, hvalue⟩ := h
  rw [manifestPath] at hread
  simp only [projectManifest, hread, hvalue]

theorem projectManifest_of_lacksManifest (h : lib.LacksManifest l name) {manifest : Option Json}
    (hm : projectManifest lib.files l (l.projectDir lib.root name) = .ok manifest) : manifest = none := by
  rcases h with ⟨e, hread⟩ | ⟨t, reason, left, hread, hmalformed⟩
  · rw [manifestPath] at hread
    simp only [projectManifest, hread] at hm
    split at hm
    · exact (Except.ok.inj hm).symm
    · cases hm
  · rw [manifestPath] at hread
    simp only [projectManifest, hread, hmalformed] at hm
    exact (Except.ok.inj hm).symm

/-- Nothing else makes a manifest a fault of its project. -/
theorem losesProject_iff :
    lib.LosesProject l name ↔
      ∃ fault, projectManifest lib.files l (l.projectDir lib.root name) = .error fault := by
  unfold LosesProject manifestPath projectManifest
  cases lib.files.read ((l.projectDir lib.root name).join l.manifestName) with
  | error e => cases he : e.isSystem <;> simp [he]
  | ok t =>
      cases ht : Json.read t with
      | ok v => simp [ht]
      | error fault => cases fault <;> simp [ht]

/-- What the record of a project should be, whatever its manifest is: it holds the value of the
manifest or none. Beside another manifest, one that holds a value, the tree would be the same, and the
rest too, unless the manifest is the documentation. -/
structure Keeps (lib : Library) (l : Layout) (name : Text) (record : ExampleRecord) : Prop where
  value : ∀ v, lib.HasManifest l name v → record.manifest = some v
  none : lib.LacksManifest l name → record.manifest = none
  documentation : record.documentation =
    projectDocumentation lib.files l (l.projectDir lib.root name) record.tree
  unaffected : ∀ files' v, lib.files.SameBut (lib.manifestPath l name) files' →
    ({ lib with files := files' } : Library).HasManifest l name v →
      ∃ record', ((build { lib with files := files' }).after {}).index.examples.find? name = some record' ∧
        record'.tree = record.tree ∧
        ((l.projectDir lib.root name).join l.readmeName ≠ lib.manifestPath l name →
          record' = { record with manifest := some v })

end Library

/-- A project whose manifest holds a value has a record with that value. -/
theorem build_project (lib : Library) (hlog : lib.logger.Accepts) (hl : lib.settings.Lays l)
    {entry : Entry} (hlist : lib.files.list (lib.root.join l.examplesDir) = .ok entries)
    (hentry : entry ∈ entries) (hdirectory : entry.isDirectory = true) {v : Json}
    (hv : lib.HasManifest l entry.name v) (w : Workspace) :
    ((build lib).after w).index.examples.find? entry.name =
      some (projectRecord lib.files l (l.projectDir lib.root entry.name) entry.name (some v)) := by
  obtain ⟨log, hbuild⟩ := build_builtIndex lib hlog hl w
  have hmanifest := Library.projectManifest_of_hasManifest hv
  rw [Work.after, hbuild]
  refine (builtIndex_project hlist hentry hdirectory).trans ?_
  rw [hmanifest]
  rfl

theorem keeps_projectRecord {lib : Library} (hlog : lib.logger.Accepts) (hl : lib.settings.Lays l)
    {entry : Entry} (hlist : lib.files.list (lib.root.join l.examplesDir) = .ok entries)
    (hentry : entry ∈ entries) (hdirectory : entry.isDirectory = true) {manifest : Option Json}
    (hm : projectManifest lib.files l (l.projectDir lib.root entry.name) = .ok manifest) :
    lib.Keeps l entry.name
      (projectRecord lib.files l (l.projectDir lib.root entry.name) entry.name manifest) where
  value v hv := Except.ok.inj (hm.symm.trans (Library.projectManifest_of_hasManifest hv))
  none hlacks := Library.projectManifest_of_lacksManifest hlacks hm
  documentation := rfl
  unaffected files' v hsame hv := by
    have htree := hsame.treeNodes_eq l.treeDepth.toNat (l.projectDir lib.root entry.name)
    have hlist' : files'.list (lib.root.join l.examplesDir) = .ok entries := hsame.list _ ▸ hlist
    refine ⟨_, build_project { lib with files := files' } hlog hl hlist' hentry hdirectory hv {},
      htree.symm, fun hreadme => ?_⟩
    have hdocumentation := hsame.projectDocumentation_eq hreadme
      (treeNodes lib.files l.treeDepth.toNat (l.projectDir lib.root entry.name))
    show projectRecord files' l (l.projectDir lib.root entry.name) entry.name (some v) = _
    simp only [projectRecord, ← htree, hdocumentation]

/-- After a build a listed project has the record that it should have, unless its manifest is one of
those that cost a project its record. -/
theorem build_keeps_iff (lib : Library) (hlog : lib.logger.Accepts) (hl : lib.settings.Lays l)
    (w : Workspace) :
    ∃ index log, build lib w = .ok () ⟨index, log⟩ ∧
      ∀ entries entry, lib.files.list (lib.root.join l.examplesDir) = .ok entries → entry ∈ entries →
        entry.isDirectory = true →
          ((∃ record, index.examples.find? entry.name = some record ∧ lib.Keeps l entry.name record) ↔
            ¬ lib.LosesProject l entry.name) := by
  obtain ⟨log, hbuild⟩ := build_builtIndex lib hlog hl w
  refine ⟨_, log, hbuild, fun entries entry hlist hentry hdirectory => ?_⟩
  rw [builtIndex_project hlist hentry hdirectory, Library.losesProject_iff]
  cases hm : projectManifest lib.files l (l.projectDir lib.root entry.name) with
  | error fault => simp [Except.toOption]
  | ok manifest =>
      exact iff_of_true ⟨_, rfl, keeps_projectRecord hlog hl hlist hentry hdirectory hm⟩ (by simp)

/-- Two projects: reading the manifest of the one fails in an unforeseen way, the other has a malformed
manifest. -/
def faultyLibrary : Library where
  root := Path.ofText "/lib"
  files := (((({} : MemoryFiles).write "/lib/examples/demo/package.json" "").write
    "/lib/examples/spare/package.json" "\x7b").fail (Path.ofText "/lib/examples/demo/package.json")
      (.failure .runtime "boom")).fileSystem
  settings := .ofBase ⟨[]⟩

theorem build_keeps_faultyLibrary :
    ∃ index log, build faultyLibrary {} = .ok () ⟨index, log⟩ ∧
      (¬ ∃ record, index.examples.find? "demo" = some record ∧
        faultyLibrary.Keeps Layout.standard "demo" record) ∧
      ∃ record, index.examples.find? "spare" = some record ∧
        faultyLibrary.Keeps Layout.standard "spare" record := by
  obtain ⟨index, log, hbuild, hiff⟩ :=
    build_keeps_iff faultyLibrary Logger.silent_accepts (Settings.ofBase_lays _) {}
  have hlist : faultyLibrary.files.list (faultyLibrary.root.join Layout.standard.examplesDir) =
      .ok [⟨"demo", true⟩, ⟨"spare", true⟩] := rfl
  have hdemo := hiff _ ⟨"demo", true⟩ hlist (by simp) rfl
  have hspare := hiff _ ⟨"spare", true⟩ hlist (by simp) rfl
  refine ⟨index, log, hbuild, fun hkept => hdemo.1 hkept (.inl ⟨_, rfl, rfl⟩), hspare.2 ?_⟩
  rintro (⟨e, hread, -⟩ | ⟨t, excess, hread, hexcess⟩)
  · cases hread
  · cases hread
    cases hexcess

end ComponentCatalog
