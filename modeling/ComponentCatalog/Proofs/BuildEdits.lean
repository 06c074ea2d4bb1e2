import ComponentCatalog.Proofs.EditView
import ComponentCatalog.Proofs.Outcome
import ComponentCatalog.Proofs.ProjectScan

/-!
# The edits of a build

Under a logger that accepts everything a build ends well: it edits an empty index and marks it as
ready. With settings that can be read, the edits are those of the five scans, one kind after the
other, and what a scan adds to the index can be told from the edits of its kind alone.
-/

namespace ComponentCatalog

open Work

variable {lib : Library} {l : Layout} {files : FileSystem} {root : Path}

/-! ## How a build ends -/

theorem build_edited (hlog : lib.logger.Accepts) {edits : List Edit}
    (h : Does (scanAll lib) (.ok ()) edits) (w : Workspace) :
    ∃ log, build lib w = .ok () ⟨(({} : Index).edited edits).marked true,
      w.log ++ ⟨.index, .info, lib.opening⟩ :: log⟩ := by
  obtain ⟨log, hpopulate⟩ := populate_apply h (w.told .info lib.opening)
  let index := (({} : Index).edited edits).marked true
  refine ⟨log ++ [⟨.index, .info, index.report⟩], ?_⟩
  simp only [tell_apply, hlog .info _] at hpopulate
  rw [build_apply, hlog, hpopulate]
  simp [Workspace.told, index]

/-- One index comes out of a build, whatever the index was, and the log tells of the build. -/
theorem build_ok (hlog : lib.logger.Accepts) :
    ∃ index : Index, index.ready = true ∧ ∀ w, ∃ log,
      build lib w = .ok () ⟨index, w.log ++ ⟨.index, .info, lib.opening⟩ :: log⟩ := by
  obtain ⟨edits, h, -⟩ := scanAll_ok hlog
  exact ⟨(({} : Index).edited edits).marked true, rfl, build_edited hlog h⟩

/-! ## The edits of the five scans -/

/-- The edits of the scan of one kind. -/
def scanEdits (files : FileSystem) (root : Path) (l : Layout) : ResourceKind → List Edit
  | .component => componentEdits files root l
  | .utility => utilityEdits files root l
  | .config => configEdits files root l
  | .plugin => pluginEdits files root l
  | .project => projectEdits files root l

/-- The kinds in the order in which a build scans them. -/
def ResourceKind.all : List ResourceKind := [.component, .utility, .config, .plugin, .project]

/-- All edits of a build, scan by scan. -/
def buildEdits (files : FileSystem) (root : Path) (l : Layout) : List Edit :=
  ResourceKind.all.flatMap (scanEdits files root l)

/-- The index of a library that is laid out in this way. -/
def builtIndex (files : FileSystem) (root : Path) (l : Layout) : Index :=
  (({} : Index).edited (buildEdits files root l)).marked true

theorem scanAll_does (hlog : lib.logger.Accepts) (hl : lib.settings.Lays l) :
    Does (scanAll lib) (.ok ()) (buildEdits lib.files lib.root l) := by
  have hrest : Does (scanAll lib) (.ok ()) (componentEdits lib.files lib.root l ++
      (utilityEdits lib.files lib.root l ++ (configEdits lib.files lib.root l ++
        (pluginEdits lib.files lib.root l ++ (projectEdits lib.files lib.root l ++ []))))) := by
    refine (Does.guarded_ok (Scan.components_does hlog hl)).bind ?_
    refine (Does.guarded_ok (Scan.utilities_does hlog hl)).bind ?_
    refine (Does.guarded_ok (Scan.configurations_does hlog hl)).bind ?_
    refine (Does.guarded_ok (Scan.plugins_does hlog hl)).bind ?_
    exact (Does.guarded_ok (Scan.examples_does hlog hl.projects)).bind (Does.pure ())
  exact hrest

theorem build_builtIndex (lib : Library) (hlog : lib.logger.Accepts) (hl : lib.settings.Lays l) (w : Workspace) :
    ∃ log, build lib w = .ok () ⟨builtIndex lib.files lib.root l, log⟩ := by
  obtain ⟨log, h⟩ := build_edited hlog (scanAll_does hlog hl) w
  exact ⟨_, h⟩

/-! ## The kind of an edit -/

theorem scriptEdits_kind {κ : ResourceKind} {readme p : Path} {kind : Text}
    {document : Option KindDocumentation → Edit} {record : Text → Path → Text → Edit}
    (hdoc : ∀ doc, (document doc).kind = κ) (hrec : ∀ name p source, (record name p source).kind = κ)
    {e : Edit} (he : e ∈ scriptEdits files l readme kind document record p) : e.kind = κ := by
  unfold scriptEdits at he
  split at he
  · rw [List.mem_singleton.1 he, hdoc]
  · split at he
    · rw [List.mem_singleton.1 he, hrec]
    · cases he

theorem moduleEdits_kind {κ : ResourceKind} {dir : Path} {kind : Text}
    (document : Option KindDocumentation → Edit) (record : Text → Path → Text → Edit)
    (hdoc : ∀ doc, (document doc).kind = κ) (hrec : ∀ name p source, (record name p source).kind = κ)
    {e : Edit} (he : e ∈ moduleEdits files l dir kind document record) : e.kind = κ := by
  obtain ⟨v, -, he⟩ := List.mem_flatMap.1 he
  obtain ⟨p, -, he⟩ := List.mem_flatMap.1 he
  exact scriptEdits_kind hdoc hrec he

theorem componentEdits_kind {configured : Text} {v : Visit} {e : Edit}
    (he : e ∈ v.componentEdits files l configured) : e.kind = .component := by
  cases v with
  | leave dir below entries =>
      simp only [Visit.componentEdits] at he
      split at he
      · split at he
        · rw [List.mem_singleton.1 he]; rfl
        · cases he
      · cases he
  | file dir below name =>
      obtain ⟨f, -, rfl⟩ := by simpa [Visit.componentEdits] using he
      rfl
  | _ => cases he

theorem pluginEntryEdits_kind {dir : Path} {entry : Entry} {e : Edit}
    (he : e ∈ pluginEntryEdits files l dir entry) : e.kind = .plugin := by
  unfold pluginEntryEdits at he
  split at he
  · split at he
    · rw [List.mem_singleton.1 he]; rfl
    · cases he
  · split at he
    · rw [List.mem_singleton.1 he]; rfl
    · cases he

theorem scanEdits_kind (κ : ResourceKind) {e : Edit} (he : e ∈ scanEdits files root l κ) : e.kind = κ := by
  cases κ with
  | component =>
      obtain ⟨configured, -, he⟩ := List.mem_flatMap.1 he
      obtain ⟨v, -, he⟩ := List.mem_flatMap.1 he
      exact componentEdits_kind he
  | utility =>
      exact moduleEdits_kind .utilitiesDoc .utility (fun _ => rfl) (fun _ _ _ => rfl) he
  | config =>
      exact moduleEdits_kind .configsDoc .config (fun _ => rfl) (fun _ _ _ => rfl) he
  | plugin =>
      obtain ⟨entry, -, he⟩ := List.mem_flatMap.1 he
      exact pluginEntryEdits_kind he
  | project =>
      obtain ⟨entry, -, he⟩ := List.mem_flatMap.1 he
      split at he
      · unfold projectDirectoryEdits at he
        split at he
        · rw [List.mem_singleton.1 he]; rfl
        · cases he
      · cases he

/-- Where the example projects are known, so are the edits that set them, whatever the other scans do. -/
theorem scanAll_projects (hlog : lib.logger.Accepts) (hl : lib.settings.LaysProjects l) :
    ∃ edits, Does (scanAll lib) (.ok ()) edits ∧
      ∀ e, e ∈ projectEdits lib.files lib.root l ↔ e ∈ edits ∧ e.kind = .project := by
  obtain ⟨components, hcomponents, hcomponent⟩ := Scan.components_makes.guarded_ok hlog
  obtain ⟨utilities, hutilities, hutility⟩ := Scan.utilities_makes.guarded_ok hlog
  obtain ⟨configs, hconfigs, hconfig⟩ := Scan.configurations_makes.guarded_ok hlog
  obtain ⟨plugins, hplugins, hplugin⟩ := Scan.plugins_makes.guarded_ok hlog
  refine ⟨_, hcomponents.bind (hutilities.bind (hconfigs.bind (hplugins.bind
    ((Does.guarded_ok (Scan.examples_does hlog hl)).bind (Does.pure ()))))), fun e => ?_⟩
  have hkind : e ∈ projectEdits lib.files lib.root l → e.kind = .project := scanEdits_kind .project
  have hother : ∀ {edits : List Edit} {κ : ResourceKind}, κ ≠ .project →
      (∀ e ∈ edits, e.SourcedAs lib κ) → e.kind = .project → e ∉ edits :=
    fun hne hedits hproject he => hne ((hedits e he).2.symm.trans hproject)
  constructor
  · intro he
    exact ⟨by simp [he], hkind he⟩
  · rintro ⟨he, hproject⟩
    simpa [hother (by decide) hcomponent hproject, hother (by decide) hutility hproject,
      hother (by decide) hconfig hproject, hother (by decide) hplugin hproject] using he

theorem mem_scanEdits {κ : ResourceKind} {e : Edit} :
    e ∈ scanEdits files root l κ ↔ e ∈ buildEdits files root l ∧ e.kind = κ := by
  constructor
  · intro he
    exact ⟨List.mem_flatMap.2 ⟨κ, by cases κ <;> simp [ResourceKind.all], he⟩, scanEdits_kind κ he⟩
  · rintro ⟨he, rfl⟩
    obtain ⟨κ, -, he⟩ := List.mem_flatMap.1 he
    exact scanEdits_kind κ he ▸ he

/-- Of the edits of a build, those of one kind are the edits of its scan. -/
theorem filter_buildEdits (κ : ResourceKind) {relevant : Edit → Bool}
    (h : ∀ e, relevant e = true → e.kind = κ) :
    (buildEdits files root l).filter relevant = (scanEdits files root l κ).filter relevant := by
  have hother : ∀ κ', κ' ≠ κ → (scanEdits files root l κ').filter relevant = [] := by
    intro κ' hne
    rw [List.filter_eq_nil_iff]
    exact fun e he hrel => hne ((scanEdits_kind κ' he).symm.trans (h e hrel))
  unfold buildEdits ResourceKind.all
  simp only [List.flatMap_cons, List.flatMap_nil, List.filter_append, List.filter_nil]
  cases κ <;> simp [hother]

/-! ## The records of a build -/

theorem builtIndex_records (κ : ResourceKind) :
    (builtIndex files root l).records κ = (({} : Index).edited (buildEdits files root l)).records κ := by
  cases κ <;> rfl

/-- The keys of a kind are those that its scan sets. -/
theorem mem_keys_builtIndex {κ : ResourceKind} {k : Text} :
    k ∈ ((builtIndex files root l).records κ).keys ↔ ∃ e ∈ scanEdits files root l κ, e.sets κ k = true := by
  have hempty : k ∉ (({} : Index).records κ).keys := by cases κ <;> exact List.not_mem_nil
  rw [builtIndex_records, Index.mem_keys_edited]
  constructor
  · intro h
    obtain ⟨e, he, hsets⟩ := h.resolve_right hempty
    exact ⟨e, mem_scanEdits.2 ⟨he, Edit.kind_of_sets hsets⟩, hsets⟩
  · rintro ⟨e, he, hsets⟩
    exact .inl ⟨e, (mem_scanEdits.1 he).1, hsets⟩

end ComponentCatalog
