import ComponentCatalog.Files.Memory
import ComponentCatalog.Proofs.BuildEdits

/-!
# Keys and file names

The key of a component, a utility or a configuration module should be the name of its file without the
extension, so that the files of a directory have keys of their own. Of an empty extension this does not
hold: the names of all files are cut down to nothing, and one record is left of them.
-/

namespace ComponentCatalog

open Work

/-! ## What is left of a name -/

theorem stem_append {extension name : Text} (h : name.endsWith extension = true) (hne : extension ≠ []) :
    stem extension name ++ extension = name := by
  obtain ⟨front, rfl⟩ := List.isSuffixOf_iff_suffix.1 h
  rw [stem, if_neg (by simpa using hne), if_pos h]
  simp

theorem stem_empty (name : Text) : stem [] name = [] := rfl

/-! ## Records and the files that they stand for -/

variable {α : Type} {extension : Except SettingError Text} {met : Path → Text → Prop} {m : OrderedMap Text α}
  {filePath : α → Text} {k : Text} {v : α}

/-- The record of a key is that of a file with the extension, and the key is what is left of its name. -/
def IsKey (extension : Except SettingError Text) (k filePath : Text) : Prop :=
  ∃ ext, extension = .ok ext ∧ k = stem ext (Path.ofText filePath).name ∧
    (Path.ofText filePath).name.endsWith ext = true ∧ Path.IsName (Path.ofText filePath).name

/-- All keys are what is left of the names of files. -/
def KeyedBy (extension : Except SettingError Text) (m : OrderedMap Text α) (filePath : α → Text) : Prop :=
  ∀ k v, m.find? k = some v → IsKey extension k (filePath v)

theorem KeyedBy.empty : KeyedBy extension ∅ filePath := fun _ _ h => by cases h

theorem KeyedBy.insert (h : KeyedBy extension m filePath) (hk : IsKey extension k (filePath v)) :
    KeyedBy extension (m.insert k v) filePath := by
  intro k' v' hfind
  rw [OrderedMap.find?_insert] at hfind
  split at hfind
  · next heq =>
      cases hfind
      exact heq ▸ hk
  · exact h k' v' hfind

theorem KeyedBy.map (h : KeyedBy extension m filePath) {f : Text → α → α}
    (hf : ∀ k v, filePath (f k v) = filePath v) : KeyedBy extension (m.map f) filePath := by
  intro k v' hmap
  rw [OrderedMap.find?_map] at hmap
  obtain ⟨v, hfind, rfl⟩ := Option.map_eq_some_iff.1 hmap
  exact hf k v ▸ h k v hfind

/-- Keys stand for files: a key and the extension are the last part of the path in the record. So the
record is that of no other file of the directory, and every file that is met has a key of its own. -/
structure Identifies (extension : Except SettingError Text) (met : Path → Text → Prop) (m : OrderedMap Text α)
    (filePath : α → Text) : Prop where
  named : ∀ k v, m.find? k = some v → ∃ ext, extension = .ok ext ∧ (Path.ofText (filePath v)).name = k ++ ext
  alone : ∀ k v, m.find? k = some v → ∀ ext name, extension = .ok ext → name.endsWith ext = true →
    stem ext name = k → name = (Path.ofText (filePath v)).name
  own : ∀ dir name, met dir name → ∃ ext k, extension = .ok ext ∧ name = k ++ ext ∧ m.contains k = true

theorem KeyedBy.identifies (h : KeyedBy extension m filePath) (hne : extension ≠ .ok [])
    (hmet : ∀ dir name, met dir name →
      ∃ ext, extension = .ok ext ∧ name.endsWith ext = true ∧ stem ext name ∈ m.keys) :
    Identifies extension met m filePath := by
  have hstem : ∀ ext name, extension = .ok ext → name.endsWith ext = true → stem ext name ++ ext = name :=
    fun ext name hext hends => stem_append hends fun hnil => hne (by rw [hext, hnil])
  constructor
  · intro k v hfind
    obtain ⟨ext, hext, rfl, hends, -⟩ := h k v hfind
    exact ⟨ext, hext, (hstem ext _ hext hends).symm⟩
  · intro k v hfind ext name hext hends hk
    obtain ⟨ext', hext', hk', hends', -⟩ := h k v hfind
    obtain rfl : ext = ext' := Except.ok.inj (hext.symm.trans hext')
    rw [← hstem ext name hext hends, hk, hk', hstem ext _ hext hends']
  · intro dir name hname
    obtain ⟨ext, hext, hends, hmem⟩ := hmet dir name hname
    have hcontains := OrderedMap.contains_iff.2 (OrderedMap.mem_keys.1 hmem)
    exact ⟨ext, _, hext, (hstem ext name hext hends).symm, hcontains⟩

/-- Without an extension only what is empty has keys that identify files. -/
theorem identifies_iff (h : KeyedBy extension m filePath)
    (hmet : ∀ dir name, met dir name →
      ∃ ext, extension = .ok ext ∧ name.endsWith ext = true ∧ stem ext name ∈ m.keys) :
    Identifies extension met m filePath ↔ extension ≠ .ok [] ∨ m.keys = [] := by
  by_cases hempty : extension = .ok []
  · constructor
    · intro hidentifies
      -- A record under the empty key would be that of a file without a name.
      refine .inr (List.eq_nil_iff_forall_not_mem.2 fun k hk => ?_)
      obtain ⟨v, hfind⟩ := OrderedMap.mem_keys.1 hk
      obtain ⟨ext, hext, hstem, -, -, hne, -⟩ := h k v hfind
      obtain ⟨ext', hext', hname⟩ := hidentifies.named k v hfind
      obtain rfl : [] = ext := Except.ok.inj (hempty.symm.trans hext)
      obtain rfl : [] = ext' := Except.ok.inj (hempty.symm.trans hext')
      rw [hstem, stem_empty] at hname
      exact hne hname
    · intro hkeys
      have hkeys : m.keys = [] := hkeys.resolve_left fun hne => hne hempty
      have hnone : ∀ k v, m.find? k ≠ some v := fun k v hfind => by
        simpa [hkeys] using OrderedMap.mem_keys.2 ⟨v, hfind⟩
      refine ⟨fun k v hfind => absurd hfind (hnone k v), fun k v hfind => absurd hfind (hnone k v), ?_⟩
      intro dir name hname
      obtain ⟨ext, -, -, hmem⟩ := hmet dir name hname
      simp [hkeys] at hmem
  · exact iff_of_true (h.identifies hempty hmet) (.inl hempty)

/-! ## The keys of an index -/

/-- Every key of an index is what is left of the name of a file. -/
structure Index.Keyed (lib : Library) (index : Index) : Prop where
  components : KeyedBy lib.settings.componentExtension index.components (·.filePath)
  utilities : KeyedBy lib.settings.scriptExtension index.utilities (·.filePath)
  configs : KeyedBy lib.settings.scriptExtension index.configs (·.filePath)

variable {lib : Library} {index : Index}

theorem isKey_child (hroot : lib.root.Anchored) (hnames : lib.files.ListsNames) {configured ext name : Text}
    {below : List Text} {dir : Path} (hleads : lib.files.Leads (lib.root.join configured) below dir)
    (hfile : lib.files.HasFile dir name) (hext : extension = .ok ext)
    (hends : Path.IsName name → name.endsWith ext = true) :
    IsKey extension (stem ext name) (dir.child name).toText := by
  obtain ⟨entries, hlist, hentry⟩ := hfile
  have hname : Path.IsName name := hnames hlist hentry
  have hanchored : dir.Anchored := by
    rw [hleads.eq_descend]
    exact (hroot.join configured).descend (hleads.isName hnames)
  have hlast := Path.name_ofText_toText_child hanchored hname
  exact ⟨ext, hext, by rw [hlast], by rw [hlast]; exact hends hname, by rw [hlast]; exact hname⟩

theorem Scan.attach_filePath (category : Text) (sections : List Section) (name : Text)
    (c : ComponentRecord) : (Scan.attach category sections name c).filePath = c.filePath := by
  rcases attach_eq category sections name c with h | ⟨documentation, h⟩ <;> rw [h]
  rfl

theorem Index.Keyed.apply (h : index.Keyed lib) (hroot : lib.root.Anchored) (hnames : lib.files.ListsNames)
    {e : Edit} (he : e.Sourced lib) : (e.apply index).Keyed lib := by
  cases he with
  | component hcategory hextension hfile hends hread =>
      obtain ⟨dirs, configured, below, -, -, hleads, -⟩ := hcategory
      have hkey := isKey_child hroot hnames hleads hfile hextension fun _ => hends
      exact ⟨h.components.insert hkey, h.utilities, h.configs⟩
  | attach => exact ⟨h.components.map (Scan.attach_filePath _ _), h.utilities, h.configs⟩
  | utility hscript =>
      obtain ⟨ext, configured, below, dir, name, hextension, hleads, hfile, hends, rfl, rfl⟩ := hscript
      have hkey := isKey_child hroot hnames hleads hfile hextension hends
      exact ⟨h.components, h.utilities.insert hkey, h.configs⟩
  | config hscript =>
      obtain ⟨ext, configured, below, dir, name, hextension, hleads, hfile, hends, rfl, rfl⟩ := hscript
      have hkey := isKey_child hroot hnames hleads hfile hextension hends
      exact ⟨h.components, h.utilities, h.configs.insert hkey⟩
  | _ => exact ⟨h.components, h.utilities, h.configs⟩

/-! ## Files that are met -/

/-- A component file that can be read, in a directory to which the walk from a configured one leads. -/
def Library.MeetsComponent (lib : Library) (dir : Path) (name : Text) : Prop :=
  ∃ l configured below source, lib.settings.Lays l ∧ configured ∈ l.componentDirs ∧
    lib.files.Leads (lib.root.join configured) below dir ∧ lib.files.HasFile dir name ∧
      name.endsWith l.componentExtension = true ∧ lib.files.read (dir.child name) = .ok source

/-- A script that can be read, in a directory to which the walk from `start` leads. It is neither an
entry point nor the documentation of `start`. -/
def Library.MeetsScript (lib : Library) (start : Layout → Text) (dir : Path) (name : Text) : Prop :=
  ∃ l below source, lib.settings.Lays l ∧ lib.files.Leads (lib.root.join (start l)) below dir ∧
    lib.files.HasFile dir name ∧ name ≠ l.entryPoint ∧ name.endsWith l.scriptExtension = true ∧
      dir.child name ≠ (lib.root.join (start l)).join l.readmeName ∧
        lib.files.read (dir.child name) = .ok source

variable {files : FileSystem} {root start dir : Path} {l : Layout} {name source : Text} {below : List Text}

theorem component_mem_componentEdits {configured : Text} (hconfigured : configured ∈ l.componentDirs)
    (hleads : files.Leads (root.join configured) below dir) (hfile : files.HasFile dir name)
    (hends : name.endsWith l.componentExtension = true) (hread : files.read (dir.child name) = .ok source) :
    .component (stem l.componentExtension name) (Scan.category configured below) (dir.child name) source ∈
      componentEdits files root l := by
  refine List.mem_flatMap.2 ⟨configured, hconfigured, List.mem_flatMap.2 ⟨.file dir below name, ?_, ?_⟩⟩
  · exact FileSystem.file_mem_walk.2 ⟨hleads, hfile⟩
  · simp only [Visit.componentEdits, Visit.componentFile?, if_pos hends, hread]
    exact List.mem_singleton_self _

theorem record_mem_moduleEdits {kind : Text} {document : Option KindDocumentation → Edit}
    {record : Text → Path → Text → Edit} (hleads : files.Leads start below dir)
    (hfile : files.HasFile dir name) (hentry : name ≠ l.entryPoint)
    (hends : name.endsWith l.scriptExtension = true) (hreadme : dir.child name ≠ start.join l.readmeName)
    (hread : files.read (dir.child name) = .ok source) :
    record (stem l.scriptExtension name) (dir.child name) source ∈
      moduleEdits files l start kind document record := by
  refine List.mem_flatMap.2 ⟨.file dir below name, FileSystem.file_mem_walk.2 ⟨hleads, hfile⟩, ?_⟩
  have hname : (dir.child name).name = name := by simp [Path.name, Path.child]
  simp [Visit.script?, scriptEdits, hentry, hends, hreadme, hread, hname]

theorem stem_mem_components (h : ∀ l, lib.settings.Lays l → index = builtIndex lib.files lib.root l)
    (hmet : lib.MeetsComponent dir name) :
    ∃ ext, lib.settings.componentExtension = .ok ext ∧ name.endsWith ext = true ∧
      stem ext name ∈ index.components.keys := by
  obtain ⟨l, configured, below, source, hl, hconfigured, hleads, hfile, hends, hread⟩ := hmet
  refine ⟨_, hl.componentExtension, hends, ?_⟩
  rw [h l hl]
  have hmem := component_mem_componentEdits hconfigured hleads hfile hends hread
  exact (mem_keys_builtIndex (κ := .component)).2 ⟨_, hmem, Edit.sets_iff.2 ⟨rfl, rfl⟩⟩

theorem stem_mem_records (h : ∀ l, lib.settings.Lays l → index = builtIndex lib.files lib.root l)
    {κ : ResourceKind} {start : Layout → Text} {kind : Text} {document : Option KindDocumentation → Edit}
    {record : Text → Path → Text → Edit}
    (hscan : ∀ l, scanEdits lib.files lib.root l κ =
      moduleEdits lib.files l (lib.root.join (start l)) kind document record)
    (hsets : ∀ k p source, (record k p source).sets κ k = true) (hmet : lib.MeetsScript start dir name) :
    ∃ ext, lib.settings.scriptExtension = .ok ext ∧ name.endsWith ext = true ∧
      stem ext name ∈ (index.records κ).keys := by
  obtain ⟨l, below, source, hl, hleads, hfile, hentry, hends, hreadme, hread⟩ := hmet
  refine ⟨_, hl.scriptExtension, hends, ?_⟩
  rw [h l hl]
  refine mem_keys_builtIndex.2 ⟨_, ?_, hsets _ (dir.child name) source⟩
  rw [hscan]
  exact record_mem_moduleEdits hleads hfile hentry hends hreadme hread

/-- Under a logger that accepts everything a build leaves keys that identify files, of each kind unless
its extension is empty and something was recorded. -/
theorem build_identifies_iff (lib : Library) (hlog : lib.logger.Accepts) (hroot : lib.root.Anchored)
    (hnames : lib.files.ListsNames) (w : Workspace) :
    ∃ index log, build lib w = .ok () ⟨index, log⟩ ∧
      (Identifies lib.settings.componentExtension lib.MeetsComponent index.components (·.filePath) ↔
        lib.settings.componentExtension ≠ .ok [] ∨ index.components.keys = []) ∧
      (Identifies lib.settings.scriptExtension (lib.MeetsScript (·.utilsDir)) index.utilities (·.filePath) ↔
        lib.settings.scriptExtension ≠ .ok [] ∨ index.utilities.keys = []) ∧
      (Identifies lib.settings.scriptExtension (lib.MeetsScript (·.configModulesDir)) index.configs
          (·.filePath) ↔
        lib.settings.scriptExtension ≠ .ok [] ∨ index.configs.keys = []) := by
  obtain ⟨edits, hdoes, hedits⟩ := scanAll_ok hlog
  obtain ⟨log, hbuild⟩ := build_edited hlog hdoes w
  have hkeyed : (({} : Index).edited edits).Keyed lib :=
    Index.edited_preserves (fun e he _ h => h.apply hroot hnames (hedits e he)) ⟨.empty, .empty, .empty⟩
  have hbuilt : ∀ l, lib.settings.Lays l →
      (({} : Index).edited edits).marked true = builtIndex lib.files lib.root l := by
    intro l hl
    obtain ⟨log', hbuild'⟩ := build_builtIndex lib hlog hl w
    rw [hbuild] at hbuild'
    injection hbuild' with _ hw
    exact congrArg Workspace.index hw
  refine ⟨_, _, hbuild, ?_, ?_, ?_⟩
  · exact identifies_iff hkeyed.components fun _ _ hmet => stem_mem_components hbuilt hmet
  · refine identifies_iff hkeyed.utilities fun _ _ hmet => ?_
    exact stem_mem_records (κ := .utility) hbuilt (fun _ => rfl)
      (fun _ _ _ => Edit.sets_iff.2 ⟨rfl, rfl⟩) hmet
  · refine identifies_iff hkeyed.configs fun _ _ hmet => ?_
    exact stem_mem_records (κ := .config) hbuilt (fun _ => rfl)
      (fun _ _ _ => Edit.sets_iff.2 ⟨rfl, rfl⟩) hmet

/-- Components without an extension beside a utility module with one. -/
def keylessLibrary : Library where
  root := Path.ofText "/lib"
  files := (((({} : MemoryFiles).write "/lib/src/scripts/components/a.vue" "").write
    "/lib/src/scripts/components/b.vue" "").write "/lib/src/scripts/utils/c.js" "").fileSystem
  settings := ((Settings.ofBase ⟨[]⟩).set "library" "component_extension" "").2

theorem build_identifies_keylessLibrary :
    ∃ index log, build keylessLibrary {} = .ok () ⟨index, log⟩ ∧
      ¬ Identifies keylessLibrary.settings.componentExtension keylessLibrary.MeetsComponent
        index.components (·.filePath) ∧
      Identifies keylessLibrary.settings.scriptExtension (keylessLibrary.MeetsScript (·.utilsDir))
        index.utilities (·.filePath) := by
  have hnames : keylessLibrary.files.ListsNames :=
    MemoryFiles.fileSystem_listsNames (((MemoryFiles.named_empty.write _ _).write _ _).write _ _)
  obtain ⟨index, log, hbuild, hcomponents, hutilities, -⟩ :=
    build_identifies_iff keylessLibrary Logger.silent_accepts (Path.anchored_ofText _) hnames {}
  have hkeys : ((build keylessLibrary).after {}).index.components.keys = [[]] := by decide +kernel
  rw [Work.after, hbuild] at hkeys
  refine ⟨index, log, hbuild, fun hidentifies => ?_, hutilities.2 (.inl (by decide +kernel))⟩
  rcases hcomponents.1 hidentifies with hne | hempty
  · exact hne rfl
  · rw [hempty] at hkeys
    cases hkeys

end ComponentCatalog
