import ComponentCatalog.Files.Memory
import ComponentCatalog.Proofs.BuildEdits
import ComponentCatalog.Proofs.EditView
import Mathlib.Data.List.Induction

/-!
# The components of an index

After a build the components are those whose files can be read on a walk through listed directories.
Each has the record of the last of its files, but for its documentation, and the keys stand in the
order of their first files. All this needs an extension that is not empty: of an empty one the names
of all files are cut down to nothing, and one component is left.
-/

namespace ComponentCatalog

open Work

variable {files : FileSystem} {root : Path} {l : Layout} {k : Text}

/-! ## Records in the order of edits -/

/-- A component without what documentation has added. -/
def ComponentRecord.undocumented (c : ComponentRecord) : ComponentRecord :=
  { c with documentation := [], examples := [], propertyRows := [], eventRows := [] }

/-- The record that an edit sets for a component. -/
def Edit.component? : Edit → Option ComponentRecord
  | component name category p source => some (Scan.componentRecord name category p source)
  | _ => none

theorem Scan.attach_undocumented (category : Text) (sections : List Section) (name : Text)
    (c : ComponentRecord) : (Scan.attach category sections name c).undocumented = c.undocumented := by
  rcases attach_eq category sections name c with h | ⟨documentation, h⟩ <;> rw [h]
  rfl

namespace Index

theorem components_apply (e : Edit) (index : Index) (k : Text) :
    match e.component? with
    | none =>
      (e.apply index).components.keys = index.components.keys ∧
        ((e.apply index).components.find? k).map ComponentRecord.undocumented =
          (index.components.find? k).map ComponentRecord.undocumented
    | some c =>
      (e.apply index).components.keys =
          (if c.name ∈ index.components.keys then index.components.keys
            else index.components.keys ++ [c.name]) ∧
        ((e.apply index).components.find? k).map ComponentRecord.undocumented =
          if c.name = k then some c else (index.components.find? k).map ComponentRecord.undocumented := by
  cases e with
  | component name category p source =>
      simp only [Edit.component?, Edit.apply, OrderedMap.keys_insert, OrderedMap.find?_insert]
      refine ⟨by congr, ?_⟩
      by_cases hk : name = k
      · simp [hk, Scan.componentRecord, ComponentRecord.undocumented]
      · simp [hk, Scan.componentRecord]
  | attach category sections =>
      refine ⟨OrderedMap.keys_map _ _, ?_⟩
      simp [Edit.apply, OrderedMap.find?_map, Function.comp_def, Scan.attach_undocumented]
  | _ => exact ⟨rfl, rfl⟩

theorem components_keys (edits : List Edit) :
    (({} : Index).edited edits).components.keys =
      ((edits.filterMap Edit.component?).map (·.name)).eraseDups := by
  induction edits using List.reverseRecOn with
  | nil => rfl
  | append_singleton edits e ih =>
      have hstep := components_apply e (({} : Index).edited edits) []
      rw [edited_append, edited_cons, edited_nil, List.filterMap_append, List.map_append,
        List.eraseDups_append, ← ih]
      cases hc : e.component? with
      | none =>
          rw [hc] at hstep
          rw [hstep.1, List.filterMap_cons_none hc]
          simp [List.removeAll]
      | some c =>
          rw [hc] at hstep
          rw [hstep.1, List.filterMap_cons_some hc]
          simp only [ih, List.mem_eraseDups]
          split
          · next hmem => simp [List.removeAll, hmem]
          · next hmem => simp [List.removeAll, hmem, List.eraseDups_cons]

/-- The last record that is set for a component stays, and documentation is all that comes to it. -/
theorem components_find? (edits : List Edit) (k : Text) :
    ((({} : Index).edited edits).components.find? k).map ComponentRecord.undocumented =
      ((edits.filterMap Edit.component?).filter fun c => c.name == k).getLast? := by
  induction edits using List.reverseRecOn with
  | nil => rfl
  | append_singleton edits e ih =>
      have hstep := components_apply e (({} : Index).edited edits) k
      rw [edited_append, edited_cons, edited_nil, List.filterMap_append, List.filter_append,
        List.getLast?_append, ← ih]
      cases hc : e.component? with
      | none =>
          rw [hc] at hstep
          rw [hstep.2, List.filterMap_cons_none hc]
          rfl
      | some c =>
          rw [hc] at hstep
          rw [hstep.2, List.filterMap_cons_some hc]
          by_cases hk : c.name = k
          · simp [hk]
          · simp [hk]

end Index

/-! ## Records in the order of walks -/

theorem component?_componentEdits (v : Visit) (configured : Text) :
    (v.componentEdits files l configured).filterMap Edit.component? =
      ((v.componentFile? files l configured).map (·.record l)).toList := by
  cases v with
  | leave dir below entries =>
      simp only [Visit.componentEdits, Visit.componentFile?]
      split
      · split <;> rfl
      · rfl
  | unlisted dir e => rfl
  | enter dir entries => rfl
  | file dir below name =>
      simp only [Visit.componentEdits]
      cases Visit.componentFile? files l configured (.file dir below name) <;> rfl

theorem component?_buildEdits :
    (buildEdits files root l).filterMap Edit.component? = (componentFiles files root l).map (·.record l) := by
  have hkind : (buildEdits files root l).filterMap Edit.component? =
      ((buildEdits files root l).filter fun e => e.kind == .component).filterMap Edit.component? := by
    rw [List.filterMap_filter]
    congr 1
    funext e
    cases e <;> rfl
  have hscan : ∀ e ∈ componentEdits files root l, (e.kind == ResourceKind.component) = true :=
    fun e he => beq_iff_eq.2 (scanEdits_kind .component he)
  rw [hkind, filter_buildEdits .component (by simp)]
  show ((componentEdits files root l).filter _).filterMap _ = _
  rw [List.filter_eq_self.2 hscan]
  unfold componentEdits componentFiles
  simp only [List.filterMap_flatMap, List.map_flatMap, component?_componentEdits]
  refine List.flatMap_congr fun configured _ => ?_
  rw [List.map_filterMap, List.filterMap_eq_flatMap_toList]

theorem builtIndex_keys :
    (builtIndex files root l).components.keys = ((componentFiles files root l).map (·.key l)).eraseDups := by
  refine (Index.components_keys _).trans ?_
  rw [component?_buildEdits, List.map_map]
  rfl

theorem builtIndex_find? (k : Text) :
    ((builtIndex files root l).components.find? k).map ComponentRecord.undocumented =
      ((componentFiles files root l).filter fun f => f.key l == k).getLast?.map (·.record l) := by
  refine (Index.components_find? _ k).trans ?_
  rw [component?_buildEdits, List.filter_map, List.getLast?_map]
  rfl

theorem read_of_toOption {p : Path} {source : Text} (h : (files.read p).toOption = some source) :
    files.read p = .ok source := by
  cases hr : files.read p with
  | error e =>
      rw [hr] at h
      cases h
  | ok t =>
      rw [hr] at h
      exact congrArg Except.ok (Option.some.inj h)

theorem mem_componentFiles {f : ComponentFile} :
    f ∈ componentFiles files root l ↔
      f.configured ∈ l.componentDirs ∧ files.Leads (root.join f.configured) f.below f.dir ∧
        (∃ entries, files.list f.dir = .ok entries ∧ ⟨f.name, false⟩ ∈ entries) ∧
        f.name.endsWith l.componentExtension = true ∧ files.read f.path = .ok f.source := by
  simp only [componentFiles, List.mem_flatMap, List.mem_filterMap]
  constructor
  · rintro ⟨configured, hc, v, hv, hf⟩
    cases v with
    | file dir below name =>
        simp only [Visit.componentFile?] at hf
        split at hf
        · next hname =>
            obtain ⟨source, hread, rfl⟩ := Option.map_eq_some_iff.1 hf
            obtain ⟨hleads, hlisted⟩ := FileSystem.file_mem_walk.1 hv
            exact ⟨hc, hleads, hlisted, hname, read_of_toOption hread⟩
        · cases hf
    | _ => cases hf
  · rintro ⟨hc, hleads, hlisted, hname, hread⟩
    refine ⟨f.configured, hc, .file f.dir f.below f.name, FileSystem.file_mem_walk.2 ⟨hleads, hlisted⟩, ?_⟩
    rw [ComponentFile.path] at hread
    simp only [Visit.componentFile?, if_pos hname, hread]
    rfl

/-! ## What the map of components should be -/

/-- The name of a component file without as many characters at its end as the extension has. -/
def ComponentFile.bareName (l : Layout) (f : ComponentFile) : Text :=
  f.name.take (f.name.length - l.componentExtension.length)

/-- A key is in the map if a file of this name and with the extension can be read on a walk through
listed directories; it has the record of the last such file, and the keys stand in the order of their
first files. -/
structure ComponentMap (files : FileSystem) (root : Path) (l : Layout) (index : Index) : Prop where
  contains : ∀ k, index.components.contains k = true ↔
    ∃ configured ∈ l.componentDirs, ∃ below dir entries source,
      files.Leads (root.join configured) below dir ∧ files.list dir = .ok entries ∧
        ⟨k ++ l.componentExtension, false⟩ ∈ entries ∧
        files.read (dir.child (k ++ l.componentExtension)) = .ok source
  record : ∀ k c, index.components.find? k = some c → ∃ f,
    ((componentFiles files root l).filter fun f => f.name == k ++ l.componentExtension).getLast? = some f ∧
      c.undocumented = {
        name := k
        category := Text.join ['/'] (f.configured :: f.below)
        filePath := (f.dir.child f.name).toText
        properties := properties f.source
        events := events f.source
        mixins := mixins f.source
        imports := imports f.source
        template := template f.source }
  order : index.components.keys = ((componentFiles files root l).map (·.bareName l)).eraseDups

theorem bareName_eq_iff {f : ComponentFile} (h : f.name.endsWith l.componentExtension = true) :
    f.bareName l = k ↔ f.name = k ++ l.componentExtension := by
  obtain ⟨front, hname⟩ := List.isSuffixOf_iff_suffix.1 h
  rw [ComponentFile.bareName, ← hname]
  simp

theorem componentMap_of_keys (h : ∀ f ∈ componentFiles files root l, f.key l = f.bareName l) :
    ComponentMap files root l (builtIndex files root l) := by
  have hkey : ∀ k, ∀ f ∈ componentFiles files root l,
      f.key l = k ↔ f.name = k ++ l.componentExtension := by
    intro k f hf
    rw [h f hf]
    exact bareName_eq_iff (mem_componentFiles.1 hf).2.2.2.1
  constructor
  · intro k
    rw [OrderedMap.contains_iff, ← OrderedMap.mem_keys, builtIndex_keys, List.mem_eraseDups, List.mem_map]
    constructor
    · rintro ⟨f, hf, hk⟩
      have hname := (hkey k f hf).1 hk
      obtain ⟨hc, hleads, ⟨entries, hl, he⟩, -, hread⟩ := mem_componentFiles.1 hf
      rw [ComponentFile.path, hname] at hread
      exact ⟨f.configured, hc, f.below, f.dir, entries, f.source, hleads, hl, hname ▸ he, hread⟩
    · rintro ⟨configured, hc, below, dir, entries, source, hleads, hl, he, hread⟩
      have hf : (⟨configured, below, dir, k ++ l.componentExtension, source⟩ : ComponentFile) ∈
          componentFiles files root l := by
        refine mem_componentFiles.2 ⟨hc, hleads, ⟨entries, hl, he⟩, ?_, hread⟩
        exact List.isSuffixOf_iff_suffix.2 (List.suffix_append _ _)
      exact ⟨_, hf, (hkey k _ hf).2 rfl⟩
  · intro k c hc
    have hlast := @builtIndex_find? files root l k
    rw [hc, Option.map_some] at hlast
    obtain ⟨f, hf, hrecord⟩ := Option.map_eq_some_iff.1 hlast.symm
    have hfilter : ((componentFiles files root l).filter fun f => f.key l == k) =
        (componentFiles files root l).filter fun f => f.name == k ++ l.componentExtension := by
      refine List.filter_congr fun f hf => ?_
      rw [Bool.eq_iff_iff, beq_iff_eq, beq_iff_eq]
      exact hkey k f hf
    have hk : f.key l = k := by
      simpa using (List.mem_filter.1 (List.mem_of_getLast? hf)).2
    refine ⟨f, hfilter ▸ hf, ?_⟩
    rw [← hrecord, ComponentFile.record, hk]
    rfl
  · rw [builtIndex_keys]
    exact congrArg List.eraseDups (List.map_congr_left h)

/-- A file name keeps what stands before an extension that is not empty. -/
theorem key_eq_bareName {f : ComponentFile} (h : f.name.endsWith l.componentExtension = true)
    (hne : l.componentExtension ≠ []) : f.key l = f.bareName l := by
  unfold ComponentFile.key ComponentFile.bareName stem
  rw [if_neg (by simpa using hne), if_pos h]

theorem key_of_empty (f : ComponentFile) (h : l.componentExtension = []) : f.key l = [] := by
  unfold ComponentFile.key stem
  rw [if_pos (by simp [h])]

theorem bareName_of_empty (f : ComponentFile) (h : l.componentExtension = []) :
    f.bareName l = f.name := by
  simp [ComponentFile.bareName, h]

theorem componentMap_iff :
    ComponentMap files root l (builtIndex files root l) ↔
      l.componentExtension ≠ [] ∨ ∀ f ∈ componentFiles files root l, f.name = [] := by
  constructor
  · intro hmap
    by_cases hempty : l.componentExtension = []
    -- All keys are empty, so the names that the keys should be are empty too.
    · refine .inr fun f hf => ?_
      have hname : f.bareName l ∈ (builtIndex files root l).components.keys := by
        rw [hmap.order, List.mem_eraseDups]
        exact List.mem_map_of_mem hf
      rw [builtIndex_keys, List.mem_eraseDups, bareName_of_empty f hempty] at hname
      obtain ⟨f', -, hkey⟩ := List.mem_map.1 hname
      rw [← hkey, key_of_empty f' hempty]
    · exact .inl hempty
  · rintro (hne | hnames)
    · exact componentMap_of_keys fun f hf => key_eq_bareName (mem_componentFiles.1 hf).2.2.2.1 hne
    · by_cases hempty : l.componentExtension = []
      · refine componentMap_of_keys fun f hf => ?_
        rw [key_of_empty f hempty, bareName_of_empty f hempty, hnames f hf]
      · exact componentMap_of_keys fun f hf =>
          key_eq_bareName (mem_componentFiles.1 hf).2.2.2.1 hempty

/-- A build leaves the map of components that it should leave, whatever the index was before, unless
the extension of components is empty and there are files to be named. -/
theorem build_componentMap_iff {lib : Library} (hlog : lib.logger.Accepts) (hl : lib.settings.Lays l)
    (w : Workspace) :
    ∃ index log, build lib w = .ok () ⟨index, log⟩ ∧
      (ComponentMap lib.files lib.root l index ↔
        l.componentExtension ≠ [] ∨ ∀ f ∈ componentFiles lib.files lib.root l, f.name = []) := by
  obtain ⟨log, hbuild⟩ := build_builtIndex lib hlog hl w
  exact ⟨_, log, hbuild, componentMap_iff⟩

/-- A library of two component files, with the empty extension for components. -/
def namelessLibrary : Library where
  root := Path.ofText "/lib"
  files := ((({} : MemoryFiles).write "/lib/src/scripts/components/a.vue" "").write
    "/lib/src/scripts/components/b.vue" "").fileSystem
  settings := ((Settings.ofBase ⟨[]⟩).set "library" "component_extension" "").2

/-- The layout of that library. -/
def namelessLayout : Layout := { Layout.standard with componentExtension := "" }

theorem namelessLibrary_lays : namelessLibrary.settings.Lays namelessLayout where
  componentDirs := rfl
  utilsDir := rfl
  configModulesDir := rfl
  pluginsDir := rfl
  examplesDir := rfl
  componentExtension := rfl
  scriptExtension := rfl
  readmeName := rfl
  entryPoint := rfl
  manifestName := rfl
  treeDepth := rfl

/-- Of two components without an extension, the map should hold two keys and does not. -/
theorem namelessLibrary_not_componentMap :
    ∃ index log, build namelessLibrary {} = .ok () ⟨index, log⟩ ∧
      ¬ ComponentMap namelessLibrary.files namelessLibrary.root namelessLayout index := by
  obtain ⟨index, log, hbuild, hiff⟩ := build_componentMap_iff Logger.silent_accepts namelessLibrary_lays {}
  refine ⟨index, log, hbuild, fun hmap => ?_⟩
  rcases hiff.1 hmap with hne | hnames
  · exact hne rfl
  · exact absurd hnames (by decide +kernel)

end ComponentCatalog
