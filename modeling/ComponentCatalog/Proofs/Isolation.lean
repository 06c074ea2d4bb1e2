import ComponentCatalog.Files.Memory
import ComponentCatalog.Proofs.Agreement
import ComponentCatalog.Proofs.BuildEdits
import ComponentCatalog.Proofs.EditView

/-!
# What one path can spoil

If two file systems agree outside of a path, the indexes that are built over them agree on all
records and all documentation in which the path has no part.
-/

namespace ComponentCatalog

open Work

variable {files files' : FileSystem} {root p : Path} {l : Layout} {k : Text}

/-! ## What a path has a part in -/

/-- A component of this key is read at the path or below it. -/
def ComponentAt (files : FileSystem) (root : Path) (l : Layout) (p : Path) (k : Text) : Prop :=
  ∃ f ∈ componentFiles files root l, f.path.isWithin p = true ∧ f.key l = k

/-- A directory of this category has its documentation at the path or below it. -/
def DocumentationAt (files : FileSystem) (root : Path) (l : Layout) (p : Path) (category : Text) : Prop :=
  ∃ configured ∈ l.componentDirs, ∃ dir below entries,
    .leave dir below entries ∈ files.walk (root.join configured) ∧ l.hasReadme entries = true ∧
      (dir.child l.readmeName).isWithin p = true ∧ Scan.category configured below = category

/-- A script below `dir` that is found under this key is at the path or below it. -/
def ScriptAt (files : FileSystem) (l : Layout) (dir p : Path) (k : Text) : Prop :=
  ∃ v ∈ files.walk dir, ∃ q, v.script? l = some q ∧ q ≠ dir.join l.readmeName ∧
    q.isWithin p = true ∧ stem l.scriptExtension q.name = k

/-- Two indexes agree, as maps, on everything in which the path has no part. -/
structure AgreeApart (files files' : FileSystem) (root : Path) (l : Layout) (p : Path)
    (index index' : Index) : Prop where
  components : ∀ k, ¬ ComponentAt files root l p k → ¬ ComponentAt files' root l p k →
    (∀ c, index.components.find? k = some c →
      ¬ DocumentationAt files root l p c.category ∧ ¬ DocumentationAt files' root l p c.category) →
    index.components.find? k = index'.components.find? k
  utilities : ∀ k, ¬ ScriptAt files l (root.join l.utilsDir) p k →
    ¬ ScriptAt files' l (root.join l.utilsDir) p k → index.utilities.find? k = index'.utilities.find? k
  configs : ∀ k, ¬ ScriptAt files l (root.join l.configModulesDir) p k →
    ¬ ScriptAt files' l (root.join l.configModulesDir) p k →
    index.configs.find? k = index'.configs.find? k
  plugins : ∀ k, ((root.join l.pluginsDir).child k).isWithin p = false →
    p.isWithin ((root.join l.pluginsDir).child k) = false →
    index.plugins.find? k = index'.plugins.find? k
  examples : ∀ k, ProjectApart files l p ((root.join l.examplesDir).child k) →
    index.examples.find? k = index'.examples.find? k
  utilitiesDoc : ((root.join l.utilsDir).join l.readmeName).isWithin p = false →
    index.utilitiesDoc = index'.utilitiesDoc
  configsDoc : ((root.join l.configModulesDir).join l.readmeName).isWithin p = false →
    index.configsDoc = index'.configsDoc
  pluginsDoc : ((root.join l.pluginsDir).child l.readmeName).isWithin p = false →
    index.pluginsDoc = index'.pluginsDoc

/-! ## Components -/

/-- An edit sets the component of this key, or documents a category in which the path has no part. -/
def Edit.Spared (files : FileSystem) (root : Path) (l : Layout) (p : Path) (k : Text) (e : Edit) : Prop :=
  match e with
  | .attach category _ => ¬ DocumentationAt files root l p category
  | e => e.sets .component k = true

variable {relevant : Edit → Bool}

theorem leave_edits_within {configured : Text} (hc : configured ∈ l.componentDirs)
    (hrel : ∀ e, relevant e = true → e.Spared files root l p k) {dir : Path} {below : List Text}
    {entries : List Entry} (hv : .leave dir below entries ∈ files.walk (root.join configured))
    (hp : (dir.child l.readmeName).isWithin p = true) (files' : FileSystem) :
    ((Visit.leave dir below entries).componentEdits files' l configured).filter relevant = [] := by
  simp only [Visit.componentEdits]
  cases hr : l.hasReadme entries with
  | false => rfl
  | true =>
      have hdoc : DocumentationAt files root l p (Scan.category configured below) :=
        ⟨configured, hc, dir, below, entries, hv, hr, hp, rfl⟩
      cases files'.read (dir.child l.readmeName) with
      | error e => rfl
      | ok t =>
          rw [List.filter_eq_nil_iff]
          intro e he hre
          obtain rfl := List.mem_singleton.1 he
          exact hrel _ hre hdoc

theorem readme_isWithin {entries : List Entry} {dir : Path} (hl : files.list dir = .ok entries)
    (hr : l.hasReadme entries = true) (hp : dir.isWithin p = true) :
    (dir.child l.readmeName).isWithin p = true := by
  simp only [Layout.hasReadme, List.any_eq_true, Bool.and_eq_true, beq_iff_eq] at hr
  obtain ⟨e, he, ⟨-, hname⟩, -⟩ := hr
  exact hname ▸ FileSystem.isWithin_child hl he hp

theorem path_of_componentFile? {configured : Text} {v : Visit} {f : ComponentFile}
    (h : v.componentFile? files l configured = some f) : f.path = v.place := by
  cases v with
  | file dir below name =>
      simp only [Visit.componentFile?] at h
      split at h
      · obtain ⟨source, -, rfl⟩ := Option.map_eq_some_iff.1 h
        rfl
      · cases h
  | _ => cases h

theorem componentEdits_within {configured : Text} (hc : configured ∈ l.componentDirs)
    (hk : ¬ ComponentAt files root l p k) (hrel : ∀ e, relevant e = true → e.Spared files root l p k)
    {v : Visit} (hv : v ∈ files.walk (root.join configured)) (hp : v.place.isWithin p = true) :
    (v.componentEdits files l configured).filter relevant = [] := by
  cases v with
  | unlisted dir error => rfl
  | enter dir entries => rfl
  | file dir below name =>
      rw [List.filter_eq_nil_iff]
      intro e he hre
      obtain ⟨f, hf, rfl⟩ := by simpa [Visit.componentEdits] using he
      have hmem : f ∈ componentFiles files root l :=
        List.mem_flatMap.2 ⟨configured, hc, List.mem_filterMap.2 ⟨_, hv, hf⟩⟩
      have hsets : (f.edit l).sets .component k = true := hrel _ hre
      have hkey : f.key l = k := by simpa [ComponentFile.edit, Edit.sets, Edit.key?, Edit.kind] using hsets
      exact hk ⟨f, hmem, path_of_componentFile? hf ▸ hp, hkey⟩
  | leave dir below entries =>
      cases hr : l.hasReadme entries with
      | false => simp [Visit.componentEdits, hr]
      | true =>
          have hl := (FileSystem.leave_mem_walk.1 hv).2
          exact leave_edits_within hc hrel hv (readme_isWithin hl hr hp) files

namespace FileSystem.AgreesOutside

theorem filter_componentEdits (h : files.AgreesOutside p files')
    (hk : ¬ ComponentAt files root l p k) (hk' : ¬ ComponentAt files' root l p k)
    (hrel : ∀ e, relevant e = true → e.Spared files root l p k)
    (hrel' : ∀ e, relevant e = true → e.Spared files' root l p k) :
    (buildEdits files root l).filter relevant = (buildEdits files' root l).filter relevant := by
  have hkind : ∀ e, relevant e = true → e.kind = .component := by
    intro e he
    have hspared := hrel e he
    cases e with
    | attach category sections => rfl
    | _ => exact Edit.kind_of_sets hspared
  rw [filter_buildEdits .component hkind, filter_buildEdits .component hkind]
  show (componentEdits files root l).filter relevant = (componentEdits files' root l).filter relevant
  unfold componentEdits
  simp only [List.filter_flatMap]
  refine List.flatMap_congr fun configured hc => ?_
  refine h.flatMap_walk (fun v => componentEdits_within hc hk hrel)
    (fun v => componentEdits_within hc hk' hrel') fun v hv hp => ?_
  cases v with
  | unlisted dir error => rfl
  | enter dir entries => rfl
  | file dir below name =>
      have hread : files.read (dir.child name) = files'.read (dir.child name) := h.read hp
      simp only [Visit.componentEdits, Visit.componentFile?, hread]
  | leave dir below entries =>
      cases hp' : (dir.child l.readmeName).isWithin p with
      | true => rw [leave_edits_within hc hrel hv hp' files, leave_edits_within hc hrel hv hp' files']
      | false => simp only [Visit.componentEdits, h.read hp']

theorem components (h : files.AgreesOutside p files') (hk : ¬ ComponentAt files root l p k)
    (hk' : ¬ ComponentAt files' root l p k)
    (hdoc : ∀ c, (builtIndex files root l).components.find? k = some c →
      ¬ DocumentationAt files root l p c.category ∧ ¬ DocumentationAt files' root l p c.category) :
    (builtIndex files root l).components.find? k = (builtIndex files' root l).components.find? k := by
  have hsets : ∀ files (e : Edit), e.sets .component k = true → e.Spared files root l p k := by
    intro files e he
    cases e with
    | attach category sections => simp [Edit.sets, Edit.key?] at he
    | _ => exact he
  -- Whether there is a record, and of which category, does not depend on any documentation. Once the
  -- category is known, only documentation of that category matters.
  have hcategory : ((builtIndex files root l).components.find? k).map (·.category) =
      ((builtIndex files' root l).components.find? k).map (·.category) :=
    Index.componentCategory_congr (h.filter_componentEdits hk hk' (hsets files) (hsets files')) {}
  cases hc : (builtIndex files root l).components.find? k with
  | none =>
      rw [hc] at hcategory
      exact (Option.map_eq_none_iff.1 hcategory.symm).symm
  | some c =>
      obtain ⟨hd, hd'⟩ := hdoc c hc
      have hconcerns : ∀ files, ¬ DocumentationAt files root l p c.category →
          ∀ e : Edit, e.concerns k c.category = true → e.Spared files root l p k := by
        intro files hd e he
        cases e with
        | attach category sections =>
            obtain rfl : category = c.category := by simpa [Edit.concerns] using he
            exact hd
        | _ => exact he
      have hin : (builtIndex files root l).componentIn k c.category =
          (builtIndex files' root l).componentIn k c.category :=
        Index.componentIn_congr
          (h.filter_componentEdits hk hk' (hconcerns files hd) (hconcerns files' hd')) {}
      rw [Index.componentIn, hc, Option.filter_some, if_pos (beq_self_eq_true _)] at hin
      exact (Option.filter_eq_some_iff.1 hin.symm).1.symm

end FileSystem.AgreesOutside

/-! ## Utilities and configuration modules -/

section Modules

variable {dir : Path} {kind : Text} {document : Option KindDocumentation → Edit}
variable {record : Text → Path → Text → Edit}

theorem place_of_script? {v : Visit} {q : Path} (h : v.script? l = some q) : v.place = q := by
  cases v with
  | file dir below name =>
      simp only [Visit.script?] at h
      split at h
      · cases h
      · split at h
        · exact Option.some.inj h
        · split at h
          · exact Option.some.inj h
          · cases h
  | _ => cases h

theorem moduleEdits_within
    (hdoc : ∀ doc, relevant (document doc) = true → (dir.join l.readmeName).isWithin p = false)
    (hrec : ∀ name q source, relevant (record name q source) = true → ¬ ScriptAt files l dir p name)
    {v : Visit} (hv : v ∈ files.walk dir) (hp : v.place.isWithin p = true) :
    ((v.script? l).toList.flatMap (scriptEdits files l (dir.join l.readmeName) kind document record)).filter
      relevant = [] := by
  rw [List.filter_eq_nil_iff]
  intro e he hre
  obtain ⟨q, hq, he⟩ := List.mem_flatMap.1 he
  have hscript : v.script? l = some q := Option.mem_toList.1 hq
  rw [place_of_script? hscript] at hp
  unfold scriptEdits at he
  split at he
  · next hreadme =>
      obtain rfl := List.mem_singleton.1 he
      have hout := hdoc _ hre
      rw [← hreadme, hp] at hout
      cases hout
  · next hreadme =>
      split at he
      · obtain rfl := List.mem_singleton.1 he
        exact hrec _ _ _ hre ⟨v, hv, q, hscript, hreadme, hp, rfl⟩
      · cases he

theorem FileSystem.AgreesOutside.filter_moduleEdits (h : files.AgreesOutside p files')
    (hdoc : ∀ doc, relevant (document doc) = true → (dir.join l.readmeName).isWithin p = false)
    (hrec : ∀ name q source, relevant (record name q source) = true →
      ¬ ScriptAt files l dir p name ∧ ¬ ScriptAt files' l dir p name) :
    (moduleEdits files l dir kind document record).filter relevant =
      (moduleEdits files' l dir kind document record).filter relevant := by
  unfold moduleEdits
  rw [List.filter_flatMap, List.filter_flatMap]
  refine h.flatMap_walk (fun v => moduleEdits_within hdoc fun _ _ _ he => (hrec _ _ _ he).1)
    (fun v => moduleEdits_within hdoc fun _ _ _ he => (hrec _ _ _ he).2) fun v hv hp => ?_
  congr 1
  refine List.flatMap_congr fun q hq => ?_
  rw [place_of_script? (Option.mem_toList.1 hq)] at hp
  unfold scriptEdits
  rw [h.read hp]

end Modules

/-! ## Plugins and example projects -/

section Entries

variable {dir : Path}

/-- What is made of the entries of a directory is the same if nothing is made of them within the path,
and the same of each elsewhere. -/
theorem FileSystem.AgreesOutside.flatMap_list {β : Type} (h : files.AgreesOutside p files')
    {f f' : Entry → List β}
    (hin : ∀ entries, files.list dir = .ok entries → ∀ e ∈ entries,
      (dir.child e.name).isWithin p = true → f e = [])
    (hin' : ∀ entries, files'.list dir = .ok entries → ∀ e ∈ entries,
      (dir.child e.name).isWithin p = true → f' e = [])
    (hout : ∀ entries, files.list dir = .ok entries → ∀ e ∈ entries,
      (dir.child e.name).isWithin p = false → f e = f' e) :
    ((files.list dir).toOption.getD []).flatMap f = ((files'.list dir).toOption.getD []).flatMap f' := by
  cases hp : dir.isWithin p with
  | true =>
      have hnil : ∀ (files : FileSystem) (f : Entry → List β),
          (∀ entries, files.list dir = .ok entries → ∀ e ∈ entries,
            (dir.child e.name).isWithin p = true → f e = []) →
          ((files.list dir).toOption.getD []).flatMap f = [] := by
        intro files f hin
        cases hl : files.list dir with
        | error e => rfl
        | ok entries =>
            exact List.flatMap_eq_nil_iff.2 fun e he =>
              hin entries hl e he (FileSystem.isWithin_child hl he hp)
      rw [hnil files f hin, hnil files' f' hin']
  | false =>
      have hlist := h.list hp
      rw [← hlist]
      cases hl : files.list dir with
      | error e => rfl
      | ok entries =>
          refine List.flatMap_congr fun e he => ?_
          cases hc : (dir.child e.name).isWithin p with
          | true => rw [hin entries hl e he hc, hin' entries (hlist ▸ hl) e he hc]
          | false => exact hout entries hl e he hc

theorem pluginEntryEdits_filter_eq_nil
    (hdoc : ∀ doc, relevant (.pluginsDoc doc) = true → (dir.child l.readmeName).isWithin p = false)
    {e : Entry} (hp : (dir.child e.name).isWithin p = true)
    (hrec : ∀ record, relevant (.plugin e.name record) = false) :
    (pluginEntryEdits files l dir e).filter relevant = [] := by
  rw [List.filter_eq_nil_iff]
  intro edit he hre
  unfold pluginEntryEdits at he
  split at he
  · split at he
    · obtain rfl := List.mem_singleton.1 he
      rw [hrec] at hre
      cases hre
    · cases he
  · split at he
    · next hname =>
        obtain rfl := List.mem_singleton.1 he
        rw [← hname, hp] at hdoc
        cases hdoc _ hre
    · cases he

theorem FileSystem.AgreesOutside.filter_pluginEdits (h : files.AgreesOutside p files')
    (hdoc : ∀ doc, relevant (.pluginsDoc doc) = true →
      ((root.join l.pluginsDir).child l.readmeName).isWithin p = false)
    (hrec : ∀ name record, relevant (.plugin name record) = true →
      ((root.join l.pluginsDir).child name).isWithin p = false ∧
        p.isWithin ((root.join l.pluginsDir).child name) = false) :
    (pluginEdits files root l).filter relevant = (pluginEdits files' root l).filter relevant := by
  have hwithin : ∀ e : Entry, ((root.join l.pluginsDir).child e.name).isWithin p = true →
      ∀ record, relevant (.plugin e.name record) = false := by
    intro e hp record
    by_contra hre
    have hout := (hrec e.name record (by simpa using hre)).1
    rw [hp] at hout
    cases hout
  unfold pluginEdits
  rw [List.filter_flatMap, List.filter_flatMap]
  refine h.flatMap_list
    (fun _ _ e _ hp => pluginEntryEdits_filter_eq_nil hdoc hp (hwithin e hp))
    (fun _ _ e _ hp => pluginEntryEdits_filter_eq_nil hdoc hp (hwithin e hp)) fun entries hl e he hp => ?_
  unfold pluginEntryEdits
  cases hd : e.isDirectory with
  | false => simp only [Bool.false_eq_true, ↓reduceIte, h.read hp]
  | true =>
      simp only [↓reduceIte]
      rw [← h.list hp]
      cases hle : files.list ((root.join l.pluginsDir).child e.name) with
      | error error => rfl
      | ok entries' =>
          cases haround : p.isWithin ((root.join l.pluginsDir).child e.name) with
          | false => simp only [h.pluginRecord_eq l e.name hle hp haround]
          | true =>
              have hnone : ∀ record, relevant (.plugin e.name record) = false := by
                intro record
                by_contra hre
                have hout := (hrec e.name record (by simpa using hre)).2
                rw [haround] at hout
                cases hout
              simp [hnone]

theorem FileSystem.AgreesOutside.filter_projectEdits (h : files.AgreesOutside p files')
    (hrec : ∀ name record, relevant (.project name record) = true →
      ProjectApart files l p ((root.join l.examplesDir).child name)) :
    (projectEdits files root l).filter relevant = (projectEdits files' root l).filter relevant := by
  have hnil : ∀ (files' : FileSystem) (name : Text),
      ¬ ProjectApart files l p ((root.join l.examplesDir).child name) →
      (projectDirectoryEdits files' l ((root.join l.examplesDir).child name) name).filter relevant = [] := by
    intro files' name hapart
    rw [List.filter_eq_nil_iff]
    intro e he hre
    unfold projectDirectoryEdits at he
    split at he
    · obtain rfl := List.mem_singleton.1 he
      exact hapart (hrec _ _ hre)
    · cases he
  have hentry : ∀ e : Entry,
      (if e.isDirectory then
        projectDirectoryEdits files l ((root.join l.examplesDir).child e.name) e.name
      else []).filter relevant =
      (if e.isDirectory then
        projectDirectoryEdits files' l ((root.join l.examplesDir).child e.name) e.name
      else []).filter relevant := by
    intro e
    split
    · by_cases hapart : ProjectApart files l p ((root.join l.examplesDir).child e.name)
      · rw [h.projectDirectoryEdits_eq hapart]
      · rw [hnil files e.name hapart, hnil files' e.name hapart]
    · rfl
  have hwithin : ∀ (files' : FileSystem) (e : Entry),
      ((root.join l.examplesDir).child e.name).isWithin p = true →
      (if e.isDirectory then
        projectDirectoryEdits files' l ((root.join l.examplesDir).child e.name) e.name
      else []).filter relevant = [] := by
    intro files' e hp
    split
    · refine hnil files' e.name fun hapart => ?_
      have hout := hapart.outside
      rw [hp] at hout
      cases hout
    · rfl
  unfold projectEdits
  rw [List.filter_flatMap, List.filter_flatMap]
  exact h.flatMap_list (fun _ _ e _ hp => hwithin files e hp) (fun _ _ e _ hp => hwithin files' e hp)
    fun _ _ e _ _ => hentry e

end Entries

/-! ## Both builds -/

theorem builtIndex_records_congr (κ : ResourceKind) (hκ : κ ≠ .component)
    (h : (scanEdits files root l κ).filter (·.sets κ k) =
      (scanEdits files' root l κ).filter (·.sets κ k)) :
    ((builtIndex files root l).records κ).find? k = ((builtIndex files' root l).records κ).find? k := by
  refine Index.records_congr κ hκ ?_ {}
  rw [filter_buildEdits κ fun e => Edit.kind_of_sets, filter_buildEdits κ fun e => Edit.kind_of_sets, h]

theorem builtIndex_documentation_congr (κ : ResourceKind)
    (h : (scanEdits files root l κ).filter (·.documents κ) =
      (scanEdits files' root l κ).filter (·.documents κ)) :
    (builtIndex files root l).documentation κ = (builtIndex files' root l).documentation κ := by
  refine Index.documentation_congr κ ?_ {}
  rw [filter_buildEdits κ fun e => Edit.kind_of_documents,
    filter_buildEdits κ fun e => Edit.kind_of_documents, h]

theorem FileSystem.AgreesOutside.agreeApart (h : files.AgreesOutside p files') :
    AgreeApart files files' root l p (builtIndex files root l) (builtIndex files' root l) where
  components k hk hk' hdoc := h.components hk hk' hdoc
  utilities k hk hk' := by
    refine builtIndex_records_congr .utility (by decide) (h.filter_moduleEdits ?_ ?_)
    · intro doc he
      simp [Edit.sets, Edit.key?] at he
    · intro name q source he
      obtain rfl : name = k := by simpa [Edit.sets, Edit.key?, Edit.kind] using he
      exact ⟨hk, hk'⟩
  configs k hk hk' := by
    refine builtIndex_records_congr .config (by decide) (h.filter_moduleEdits ?_ ?_)
    · intro doc he
      simp [Edit.sets, Edit.key?] at he
    · intro name q source he
      obtain rfl : name = k := by simpa [Edit.sets, Edit.key?, Edit.kind] using he
      exact ⟨hk, hk'⟩
  plugins k hout haround := by
    refine builtIndex_records_congr .plugin (by decide) (h.filter_pluginEdits ?_ ?_)
    · intro doc he
      simp [Edit.sets, Edit.key?] at he
    · intro name record he
      obtain rfl : name = k := by simpa [Edit.sets, Edit.key?, Edit.kind] using he
      exact ⟨hout, haround⟩
  examples k hapart := by
    refine builtIndex_records_congr .project (by decide) (h.filter_projectEdits ?_)
    intro name record he
    obtain rfl : name = k := by simpa [Edit.sets, Edit.key?, Edit.kind] using he
    exact hapart
  utilitiesDoc hout := by
    refine builtIndex_documentation_congr .utility (h.filter_moduleEdits (fun _ _ => hout) ?_)
    intro name q source he
    simp [Edit.documents, Edit.key?] at he
  configsDoc hout := by
    refine builtIndex_documentation_congr .config (h.filter_moduleEdits (fun _ _ => hout) ?_)
    intro name q source he
    simp [Edit.documents, Edit.key?] at he
  pluginsDoc hout := by
    refine builtIndex_documentation_congr .plugin (h.filter_pluginEdits (fun _ _ => hout) ?_)
    intro name record he
    simp [Edit.documents, Edit.key?] at he

/-- Builds over file systems that agree outside of a path both end well, and their indexes agree on
everything in which the path has no part, whatever the indexes were before. -/
theorem build_isolates {lib : Library} (hlog : lib.logger.Accepts) (hl : lib.settings.Lays l)
    (h : lib.files.AgreesOutside p files') (w w' : Workspace) :
    ∃ index index' log log',
      build lib w = .ok () ⟨index, log⟩ ∧ build { lib with files := files' } w' = .ok () ⟨index', log'⟩ ∧
        index.ready = true ∧ index'.ready = true ∧
        AgreeApart lib.files files' lib.root l p index index' := by
  obtain ⟨log, hbuild⟩ := build_builtIndex lib hlog hl w
  obtain ⟨log', hbuild'⟩ := build_builtIndex { lib with files := files' } hlog hl w'
  exact ⟨_, _, log, log', hbuild, hbuild', rfl, rfl, h.agreeApart⟩

/-! ## A library whose parts are crossed -/

theorem MemoryFiles.agreesOutside_fail (files : MemoryFiles) (p : Path) (e : FileError) :
    files.fileSystem.AgreesOutside p (files.fail p e).fileSystem := by
  have hfailure : ∀ {q : Path}, q.isWithin p = false →
      (files.fail p e).failures.find? q = files.failures.find? q := by
    intro q hq
    have hne : p ≠ q := by
      rintro rfl
      rw [Path.isWithin_iff.2 ⟨List.prefix_refl _, rfl⟩] at hq
      cases hq
    exact (OrderedMap.find?_insert _ _ _ _).trans (if_neg hne)
  refine ⟨fun hq => ?_, fun hq => ?_⟩
  · show files.list _ = (files.fail p e).list _
    unfold MemoryFiles.list
    rw [hfailure hq]
    rfl
  · show files.read _ = (files.fail p e).read _
    unfold MemoryFiles.read
    rw [hfailure hq]
    rfl

/-- A manifest outside of the projects, and a component and a README below two different roots. -/
def crossedFiles : MemoryFiles :=
  ((({} : MemoryFiles).write "/package.json" "1").write "/lib/examples/demo/a.js" "").write "/x/A.vue" ""
    |>.write "//x/README.md" "# A\nA component."

/-- All projects of the library have one manifest, and two of its directories are of one category. -/
def crossedLibrary : Library where
  root := Path.ofText "/lib"
  files := crossedFiles.fileSystem
  settings := (((Settings.ofBase ⟨[]⟩).set "library" "manifest_name" "/package.json").2.set "library"
    "component_dirs" "/,//x").2

/-- The layout of that library. -/
def crossedLayout : Layout :=
  { Layout.standard with componentDirs := ["/", "//x"], manifestName := "/package.json" }

theorem crossedLibrary_lays : crossedLibrary.settings.Lays crossedLayout where
  componentDirs := rfl
  utilsDir := rfl
  configModulesDir := rfl
  pluginsDir := rfl
  examplesDir := rfl
  componentExtension := rfl
  scriptExtension := rfl
  readmeName := rfl
  entryPoint := rfl
  manifestName := rfl
  treeDepth := rfl

/-- The crossed library, where nothing can be had of a path any more. -/
def crossedWithout (p : Path) : Library :=
  { crossedLibrary with files := (crossedFiles.fail p (.failure .runtime "stop")).fileSystem }

theorem build_isolates_crossedLibrary :
    ∃ index index' log log',
      build crossedLibrary {} = .ok () ⟨index, log⟩ ∧
        build (crossedWithout (Path.ofText "/x")) {} = .ok () ⟨index', log'⟩ ∧
        index.ready = true ∧ index'.ready = true ∧
        AgreeApart crossedLibrary.files (crossedWithout (Path.ofText "/x")).files crossedLibrary.root
          crossedLayout (Path.ofText "/x") index index' :=
  build_isolates Logger.silent_accepts crossedLibrary_lays (crossedFiles.agreesOutside_fail _ _) {} {}

/-- Neither the place of a project nor the place of a component tells all that it depends on: a
manifest may lie outside of its project, and a documentation outside of the directory it documents. -/
theorem crossedLibrary_not_isolated :
    (∃ index index' log log', let p := Path.ofText "/package.json"
      build crossedLibrary {} = .ok () ⟨index, log⟩ ∧
        build (crossedWithout p) {} = .ok () ⟨index', log'⟩ ∧
        crossedLibrary.files.AgreesOutside p (crossedWithout p).files ∧
        ((crossedLibrary.root.join crossedLayout.examplesDir).child "demo").isWithin p = false ∧
        p.isWithin ((crossedLibrary.root.join crossedLayout.examplesDir).child "demo") = false ∧
        index.examples.find? "demo" ≠ index'.examples.find? "demo") ∧
    ∃ index index' log log', let p := Path.ofText "//x/README.md"
      build crossedLibrary {} = .ok () ⟨index, log⟩ ∧
        build (crossedWithout p) {} = .ok () ⟨index', log'⟩ ∧
        crossedLibrary.files.AgreesOutside p (crossedWithout p).files ∧
        (∀ f ∈ componentFiles crossedLibrary.files crossedLibrary.root crossedLayout ++
            componentFiles (crossedWithout p).files crossedLibrary.root crossedLayout,
          f.path.isWithin p = false ∧ f.dir.child crossedLayout.readmeName ≠ p) ∧
        index.components.find? "A" ≠ index'.components.find? "A" := by
  have hbuild (p : Path) := build_builtIndex (crossedWithout p) Logger.silent_accepts crossedLibrary_lays {}
  obtain ⟨log, hwhole⟩ := build_builtIndex crossedLibrary Logger.silent_accepts crossedLibrary_lays {}
  constructor
  · obtain ⟨log', hwithout⟩ := hbuild (Path.ofText "/package.json")
    have hkept : ((builtIndex crossedLibrary.files crossedLibrary.root crossedLayout).examples.find?
        "demo").isSome = true := by decide +kernel
    have hlost : ((builtIndex (crossedWithout (Path.ofText "/package.json")).files crossedLibrary.root
        crossedLayout).examples.find? "demo").isSome = false := by decide +kernel
    refine ⟨_, _, log, log', hwhole, hwithout, crossedFiles.agreesOutside_fail _ _, by decide +kernel,
      by decide +kernel, fun h => ?_⟩
    exact absurd (hkept.symm.trans ((congrArg Option.isSome h).trans hlost)) (by decide)
  · obtain ⟨log', hwithout⟩ := hbuild (Path.ofText "//x/README.md")
    have hdocumented : ((builtIndex crossedLibrary.files crossedLibrary.root
        crossedLayout).components.find? "A").map (fun c => c.documentation.isEmpty) = some false := by
      decide +kernel
    have hplain : ((builtIndex (crossedWithout (Path.ofText "//x/README.md")).files crossedLibrary.root
        crossedLayout).components.find? "A").map (fun c => c.documentation.isEmpty) = some true := by
      decide +kernel
    refine ⟨_, _, log, log', hwhole, hwithout, crossedFiles.agreesOutside_fail _ _, by decide +kernel,
      fun h => ?_⟩
    have heq := congrArg (Option.map fun c => c.documentation.isEmpty) h
    exact absurd (hdocumented.symm.trans (heq.trans hplain)) (by decide)

end ComponentCatalog
