import ComponentCatalog.Proofs.Determined
import ComponentCatalog.Proofs.Listing
import ComponentCatalog.Proofs.Walk

/-!
# Where edits come from

Under any logger and any settings, and wherever a scan is left, every edit that it made comes from a
file: a component or a script from a file with its extension, a documentation from a file of its
directory, and what is read from a documentation stands beside it.
-/

namespace ComponentCatalog

open Work

/-! ## Files and what they are for -/

namespace FileSystem

/-- A directory lists a file of this name. -/
def HasFile (files : FileSystem) (dir : Path) (name : Text) : Prop :=
  ∃ entries, files.list dir = .ok entries ∧ ⟨name, false⟩ ∈ entries

variable {files : FileSystem} {start dir : Path} {below : List Text}

theorem Leads.eq_descend (h : files.Leads start below dir) : dir = start.descend below := by
  cases dir
  simpa [Path.descend] using h.parts

theorem Leads.isName (h : files.Leads start below dir) (hnames : files.ListsNames) :
    ∀ name ∈ below, Path.IsName name := by
  induction h with
  | start => simp
  | child _ hl he _ ih =>
      intro name hname
      rcases List.mem_append.1 hname with hname | hname
      · exact ih name hname
      · exact List.mem_singleton.1 hname ▸ hnames hl he

end FileSystem

namespace Library

/-- Listed directories lead from a configured one to `dir`, by the names of the category. -/
def IsCategory (lib : Library) (category : Text) (dir : Path) : Prop :=
  ∃ dirs configured below, lib.settings.componentDirs = .ok dirs ∧ configured ∈ dirs ∧
    lib.files.Leads (lib.root.join configured) below dir ∧ category = Scan.category configured below

/-- The file of a script below a configured directory, and the key under which it is recorded. Only a
file whose name is no single part of a path may lack the extension. -/
def IsScript (lib : Library) (key : Text) (p : Path) : Prop :=
  ∃ extension configured below dir name, lib.settings.scriptExtension = .ok extension ∧
    lib.files.Leads (lib.root.join configured) below dir ∧ lib.files.HasFile dir name ∧
      (Path.IsName name → name.endsWith extension = true) ∧ key = stem extension name ∧ p = dir.child name

/-- What the walk below `start` takes for a script: a file with the extension, or the documentation of
`start`. -/
def IsScriptBelow (lib : Library) (start p : Path) : Prop :=
  ∃ extension below dir name, lib.settings.scriptExtension = .ok extension ∧
    lib.files.Leads start below dir ∧ lib.files.HasFile dir name ∧ p = dir.child name ∧
      (name.endsWith extension = true ∨ lib.settings.readmeName = .ok name ∧ dir = start)

end Library

/-- The samples of a documentation are those in its text. -/
def KindDocumentation.Sampled (doc : KindDocumentation) : Prop := doc.examples = codeSamples doc.documentation

/-- The samples of a plugin are those in its documentation. -/
def PluginRecord.Sampled (plugin : PluginRecord) : Prop := plugin.examples = codeSamples plugin.documentation

/-- The edits that scans make, each with where it comes from. -/
inductive Edit.Sourced (lib : Library) : Edit → Prop
  | component {category extension name source : Text} {dir : Path} :
      lib.IsCategory category dir → lib.settings.componentExtension = .ok extension →
      lib.files.HasFile dir name → name.endsWith extension = true →
      lib.files.read (dir.child name) = .ok source →
      Sourced lib (.component (stem extension name) category (dir.child name) source)
  | attach {category readme t : Text} {dir : Path} :
      lib.IsCategory category dir → lib.settings.readmeName = .ok readme → lib.files.HasFile dir readme →
      lib.files.read (dir.child readme) = .ok t → Sourced lib (.attach category (sections t))
  | utility {key source : Text} {p : Path} : lib.IsScript key p → Sourced lib (.utility key p source)
  | config {key source : Text} {p : Path} : lib.IsScript key p → Sourced lib (.config key p source)
  | plugin {name : Text} {record : PluginRecord} : record.Sampled → Sourced lib (.plugin name record)
  | project {name : Text} {record : ExampleRecord} : Sourced lib (.project name record)
  | utilitiesDoc {doc : Option KindDocumentation} : (∀ d ∈ doc, d.Sampled) → Sourced lib (.utilitiesDoc doc)
  | configsDoc {doc : Option KindDocumentation} : (∀ d ∈ doc, d.Sampled) → Sourced lib (.configsDoc doc)
  | pluginsDoc {doc : Option KindDocumentation} : (∀ d ∈ doc, d.Sampled) → Sourced lib (.pluginsDoc doc)

/-- An edit of one kind, and where it comes from. -/
def Edit.SourcedAs (lib : Library) (κ : ResourceKind) (e : Edit) : Prop := e.Sourced lib ∧ e.kind = κ

namespace Scan

variable {lib : Library} {P : Edit → Prop} {category extension readme configured : Text} {dir start p : Path}

theorem listed_makes (dir : Path) : Makes P (fun _ => True) (listed lib dir) :=
  ((Makes.list dir).map fun _ _ => trivial).tryCatch fun _ => (Makes.tell _ _).then (.pure trivial)

theorem noteVisit_makes (visit : Visit) : Makes P (fun _ => True) (noteVisit lib visit) := by
  cases visit with
  | unlisted dir e => exact .tell _ _
  | enter dir entries => exact .note _ _ _
  | file dir below name => exact .pure trivial
  | leave dir below entries => exact .pure trivial

theorem kindDocumentation_makes (p : Path) (kind : Text) :
    Makes P (fun doc => ∀ d ∈ doc, d.Sampled) (kindDocumentation lib p kind) := by
  refine Makes.tryCatch ?_ fun _ => (Makes.tell _ _).then (.pure (by simp))
  refine (Makes.read p).map fun t _ d hd => ?_
  cases hd
  rfl

/-! ## Components -/

theorem component_makes {name : Text} (hcategory : lib.IsCategory category dir)
    (hextension : lib.settings.componentExtension = .ok extension) (hfile : lib.files.HasFile dir name)
    (hname : name.endsWith extension = true) :
    Makes (Edit.SourcedAs lib .component) (fun _ => True)
      (component lib (dir.child name) category extension) := by
  refine .guarded ((Makes.read _).bind fun source hread => ?_)
  have hpath : (dir.child name).name = name := by simp [Path.name, Path.child]
  rw [hpath]
  exact (Makes.update (e := .component _ category _ source) (fun _ => rfl)
    ⟨.component hcategory hextension hfile hname hread, rfl⟩).then (.tell _ _)

theorem componentDocumentation_makes (hcategory : lib.IsCategory category dir)
    (hreadme : lib.settings.readmeName = .ok readme) (hfile : lib.files.HasFile dir readme) :
    Makes (Edit.SourcedAs lib .component) (fun _ => True)
      (componentDocumentation lib (dir.child readme) category) := by
  have hread : Makes (Edit.SourcedAs lib .component)
      (fun t? => ∀ t ∈ t?, lib.files.read (dir.child readme) = .ok t)
      (tryCatch (some <$> read lib (dir.child readme)) fun fault => do
        tell lib .warning
          ("Failed to parse documentation " ++ (dir.child readme).toText ++ ": " ++ fault.message)
        pure none) := by
    refine Makes.tryCatch ?_ fun _ => (Makes.tell _ _).then (.pure (by simp))
    exact (Makes.read _).map fun t ht t' ht' => by cases ht'; exact ht
  refine hread.bind fun text? htext => ?_
  cases text? with
  | none => exact .pure trivial
  | some t => exact .update (fun _ => rfl) ⟨.attach hcategory hreadme hfile (htext t rfl), rfl⟩

theorem hasReadme_eq_some {entries : List Entry} (h : hasReadme lib.settings entries = some readme) :
    lib.settings.readmeName = .ok readme ∧ ⟨readme, false⟩ ∈ entries := by
  unfold hasReadme at h
  split at h
  · next extension name hextension hname =>
      split at h
      · next hany =>
          obtain ⟨⟨n, d⟩, he, hentry⟩ := List.any_eq_true.1 hany
          simp only [Bool.and_eq_true, Bool.not_eq_true', beq_iff_eq] at hentry
          obtain ⟨⟨rfl, rfl⟩, -⟩ := hentry
          cases h
          exact ⟨hname, he⟩
      · cases h
  · cases h

theorem visitComponent_makes {dirs : List Text} (hdirs : lib.settings.componentDirs = .ok dirs)
    (hconfigured : configured ∈ dirs) {v : Visit} (hv : v ∈ lib.files.walk (lib.root.join configured)) :
    Makes (Edit.SourcedAs lib .component) (fun _ => True) (visitComponent lib configured v) := by
  cases v with
  | unlisted dir e => exact noteVisit_makes (.unlisted dir e)
  | enter dir entries => exact .note _ _ _
  | file dir below name =>
      obtain ⟨hleads, hfile⟩ := FileSystem.file_mem_walk.1 hv
      refine Makes.setting.bind fun extension hextension => ?_
      split
      · next hname =>
          have hcategory : lib.IsCategory _ dir := ⟨dirs, configured, below, hdirs, hconfigured, hleads, rfl⟩
          exact component_makes hcategory hextension hfile hname
      · exact Makes.setting.map fun _ _ => trivial
  | leave dir below entries =>
      obtain ⟨hleads, hlisted⟩ := FileSystem.leave_mem_walk.1 hv
      simp only [visitComponent]
      split
      · next readme hreadme =>
          obtain ⟨hname, hentry⟩ := hasReadme_eq_some hreadme
          have hcategory : lib.IsCategory _ dir := ⟨dirs, configured, below, hdirs, hconfigured, hleads, rfl⟩
          exact componentDocumentation_makes hcategory hname ⟨entries, hlisted, hentry⟩
      · exact .pure trivial

theorem components_makes : Makes (Edit.SourcedAs lib .component) (fun _ => True) (components lib) := by
  refine Makes.setting.bind fun dirs hdirs => .forM fun configured hconfigured => .guarded ?_
  exact .forM fun visit hvisit => visitComponent_makes hdirs hconfigured hvisit

/-! ## Utilities and configuration modules -/

theorem visitScript_makes {v : Visit} (hv : v ∈ lib.files.walk start) :
    Makes P (fun paths => ∀ p ∈ paths, lib.IsScriptBelow start p) (visitScript lib v) := by
  cases v with
  | file dir below name =>
      obtain ⟨hleads, hfile⟩ := FileSystem.file_mem_walk.1 hv
      refine Makes.setting.bind fun entryPoint _ => ?_
      split
      · exact .pure (by simp)
      refine Makes.setting.bind fun extension hextension => ?_
      split
      · next hname =>
          have hscript : lib.IsScriptBelow start (dir.child name) :=
            ⟨extension, below, dir, name, hextension, hleads, hfile, rfl, .inl hname⟩
          exact .pure (by simpa using hscript)
      refine Makes.setting.bind fun readme hreadme => ?_
      split
      · next hname =>
          simp only [Bool.and_eq_true, List.isEmpty_iff, decide_eq_true_eq] at hname
          obtain ⟨rfl, rfl⟩ := hname
          have hdir : dir = start := by
            cases dir
            cases start
            simpa using hleads.parts
          subst hdir
          have hscript : lib.IsScriptBelow dir (dir.child name) :=
            ⟨extension, [], dir, name, hextension, hleads, hfile, rfl, .inr ⟨hreadme, rfl⟩⟩
          exact .pure (by simpa using hscript)
      · exact .pure (by simp)
  | unlisted dir e => exact (noteVisit_makes _).then (.pure (by simp))
  | enter dir entries => exact (noteVisit_makes _).then (.pure (by simp))
  | leave dir below entries => exact (noteVisit_makes _).then (.pure (by simp))

theorem scripts_makes (start : Path) :
    Makes P (fun paths => ∀ p ∈ paths, lib.IsScriptBelow start p) (scripts lib start) := by
  refine (Makes.mapM fun v hv => visitScript_makes hv).map fun paths hpaths p hp => ?_
  obtain ⟨ps, hps, hp⟩ := List.mem_flatten.1 hp
  exact hpaths ps hps p hp

/-- A script that is not the documentation of the directory is recorded under its name. -/
theorem isScript_of_below (h : lib.IsScriptBelow (lib.root.join configured) p)
    (hextension : lib.settings.scriptExtension = .ok extension)
    (hreadme : lib.settings.readmeName = .ok readme) (hp : p ≠ (lib.root.join configured).join readme) :
    lib.IsScript (stem extension p.name) p := by
  obtain ⟨extension', below, dir, name, hextension', hleads, hfile, rfl, hname⟩ := h
  obtain rfl : extension' = extension := Except.ok.inj (hextension'.symm.trans hextension)
  refine ⟨extension', configured, below, dir, name, hextension, hleads, hfile,
    fun hplain => hname.resolve_right ?_, ?_, rfl⟩
  · rintro ⟨hreadme', rfl⟩
    obtain rfl : name = readme := Except.ok.inj (hreadme'.symm.trans hreadme)
    exact hp (Path.join_of_isName hplain _).symm
  · simp [Path.name, Path.child]

theorem utility_makes (h : ∀ extension, lib.settings.scriptExtension = .ok extension →
    lib.IsScript (stem extension p.name) p) :
    Makes (Edit.SourcedAs lib .utility) (fun _ => True) (utility lib p) := by
  refine .guarded ((Makes.read p).bind fun source _ => Makes.setting.bind fun extension hextension => ?_)
  exact (Makes.update (e := .utility _ p source) (fun _ => rfl) ⟨.utility (h extension hextension), rfl⟩).then
    (.tell _ _)

theorem config_makes (h : ∀ extension, lib.settings.scriptExtension = .ok extension →
    lib.IsScript (stem extension p.name) p) :
    Makes (Edit.SourcedAs lib .config) (fun _ => True) (config lib p) := by
  refine .guarded ((Makes.read p).bind fun source _ => Makes.setting.bind fun extension hextension => ?_)
  exact (Makes.update (e := .config _ p source) (fun _ => rfl) ⟨.config (h extension hextension), rfl⟩).then
    (.tell _ _)

theorem modules_makes {dir : Except SettingError Text} {kind : Text}
    {document : Option KindDocumentation → Index → Index} {script : Path → Work Unit}
    {e : Option KindDocumentation → Edit} {κ : ResourceKind}
    (hdoc : ∀ doc index, document doc index = (e doc).apply index)
    (hsampled : ∀ doc, (∀ d ∈ doc, d.Sampled) → (e doc).SourcedAs lib κ)
    (hscript : ∀ p, (∀ extension, lib.settings.scriptExtension = .ok extension →
      lib.IsScript (stem extension p.name) p) → Makes (Edit.SourcedAs lib κ) (fun _ => True) (script p)) :
    Makes (Edit.SourcedAs lib κ) (fun _ => True) (modules lib dir kind document script) := by
  refine Makes.setting.bind fun d _ => Makes.setting.bind fun readme hreadme => ?_
  refine (scripts_makes _).bind fun paths hpaths => .forM fun p hp => ?_
  split
  · exact (kindDocumentation_makes _ _).bind fun doc hd => .update (hdoc doc) (hsampled doc hd)
  · next hne => exact hscript p fun _ hextension => isScript_of_below (hpaths p hp) hextension hreadme hne

theorem utilities_makes : Makes (Edit.SourcedAs lib .utility) (fun _ => True) (utilities lib) :=
  modules_makes (e := .utilitiesDoc) (fun _ _ => rfl) (fun _ h => ⟨.utilitiesDoc h, rfl⟩) fun _ => utility_makes

theorem configurations_makes : Makes (Edit.SourcedAs lib .config) (fun _ => True) (configurations lib) :=
  modules_makes (e := .configsDoc) (fun _ _ => rfl) (fun _ h => ⟨.configsDoc h, rfl⟩) fun _ => config_makes

/-! ## Plugins -/

theorem pluginFile_makes (dir : Path) (name : Text) :
    Makes P (fun change => ∀ plugin : PluginRecord, plugin.Sampled → (change plugin).Sampled)
      (pluginFile lib dir name) := by
  refine Makes.setting.bind fun extension _ => ?_
  split
  · exact (Makes.read _).bind fun source _ => .pure fun plugin h => h
  refine Makes.setting.bind fun readme _ => ?_
  split
  · exact (Makes.read _).bind fun t _ => .pure fun plugin _ => rfl
  · exact .pure fun plugin h => h

theorem addPluginEntry_makes (dir : Path) {plugin : PluginRecord} (h : plugin.Sampled) (e : Entry) :
    Makes P PluginRecord.Sampled (addPluginEntry lib dir plugin e) := by
  unfold addPluginEntry
  split
  · exact .pure h
  · refine Makes.bind (Makes.tryCatch (pluginFile_makes dir e.name) fun _ => ?_) fun change hchange => ?_
    · exact (Makes.tell _ _).then (.pure fun _ h => h)
    · exact .pure (hchange plugin h)

theorem plugin_makes (dir : Path) (name : Text) :
    Makes (Edit.SourcedAs lib .plugin) (fun _ => True) (plugin lib dir name) := by
  refine (listed_makes dir).bind fun entries? _ => ?_
  cases entries? with
  | none => exact .pure trivial
  | some entries =>
      have hempty : PluginRecord.Sampled { name, dirPath := dir.toText } := rfl
      refine (Makes.foldlM hempty fun _ h e _ => addPluginEntry_makes dir h e).bind fun record hrecord => ?_
      exact (Makes.update (e := .plugin name record) (fun _ => rfl) ⟨.plugin hrecord, rfl⟩).then (.tell _ _)

theorem plugins_makes : Makes (Edit.SourcedAs lib .plugin) (fun _ => True) (plugins lib) := by
  refine Makes.setting.bind fun _ _ => (listed_makes _).bind fun entries? _ => ?_
  cases entries? with
  | none => exact .pure trivial
  | some entries =>
      refine .forM fun e _ => ?_
      split
      · exact .guarded (plugin_makes _ _)
      · refine Makes.setting.bind fun readme _ => ?_
        split
        · exact (kindDocumentation_makes _ _).bind fun doc hdoc =>
            .update (e := .pluginsDoc doc) (fun _ => rfl) ⟨.pluginsDoc hdoc, rfl⟩
        · exact .pure trivial

/-! ## Example projects -/

theorem tree_makes (levels : Nat) (dir : Path) : Makes P (fun _ => True) (tree lib levels dir) := by
  induction levels generalizing dir with
  | zero => exact .pure trivial
  | succ levels ih =>
      unfold tree
      refine (listed_makes dir).bind fun entries? _ => ?_
      cases entries? with
      | none => exact .pure trivial
      | some entries =>
          refine (Makes.mapM (R := fun _ => True) fun e _ => ?_).trivial
          dsimp only
          split
          · exact (ih _).bind fun _ _ => .pure trivial
          · exact .pure trivial

theorem manifest_makes (dir : Path) (project : Text) :
    Makes P (fun _ => True) (manifest lib dir project) := by
  refine Makes.setting.bind fun name _ => ?_
  split
  · split
    · exact (Makes.tell _ _).then (.pure trivial)
    · exact .throw _
  · split
    · exact .pure trivial
    · exact .throw _
    · exact (Makes.tell _ _).then (.pure trivial)

theorem exampleDocumentation_makes (dir : Path) (project : Text) (nodes : List TreeNode) :
    Makes P (fun _ => True) (exampleDocumentation lib dir project nodes) := by
  unfold exampleDocumentation
  split
  · exact .pure trivial
  refine Makes.setting.bind fun readme _ => ?_
  split
  · exact (Makes.read _).trivial.tryCatch fun _ => (Makes.tell _ _).then (.pure trivial)
  · exact .pure trivial

theorem project_makes (dir : Path) (name : Text) :
    Makes (Edit.SourcedAs lib .project) (fun _ => True) (project lib dir name) := by
  refine (manifest_makes dir name).bind fun manifest _ => Makes.setting.bind fun depth _ => ?_
  refine (tree_makes _ dir).bind fun nodes _ => ?_
  refine (exampleDocumentation_makes dir name nodes).bind fun documentation _ => ?_
  exact (Makes.update (e := .project name ⟨name, dir.toText, manifest, nodes, documentation⟩)
    (fun _ => rfl) ⟨.project, rfl⟩).then (.tell _ _)

theorem examples_makes : Makes (Edit.SourcedAs lib .project) (fun _ => True) (examples lib) := by
  refine Makes.setting.bind fun _ _ => (listed_makes _).bind fun entries? _ => ?_
  cases entries? with
  | none => exact .pure trivial
  | some entries =>
      refine .forM fun e _ => ?_
      split
      · exact .guarded (project_makes _ _)
      · exact .pure trivial

end Scan

theorem scans_makes {lib : Library} {kind : Text} {scan : Work Unit} (h : (kind, scan) ∈ scans lib) :
    Makes (Edit.Sourced lib) (fun _ => True) scan := by
  simp only [scans, List.mem_cons, Prod.mk.injEq, List.not_mem_nil, or_false] at h
  obtain ⟨-, rfl⟩ | ⟨-, rfl⟩ | ⟨-, rfl⟩ | ⟨-, rfl⟩ | ⟨-, rfl⟩ := h
  · exact Scan.components_makes.mono fun _ he => he.1
  · exact Scan.utilities_makes.mono fun _ he => he.1
  · exact Scan.configurations_makes.mono fun _ he => he.1
  · exact Scan.plugins_makes.mono fun _ he => he.1
  · exact Scan.examples_makes.mono fun _ he => he.1

/-- All five scans of a build, whatever becomes of each. -/
theorem scanAll_makes (lib : Library) : Makes (Edit.Sourced lib) (fun _ => True) (scanAll lib) :=
  .forM fun (_, _) h => .guarded (scans_makes h)

theorem scanAll_determined (lib : Library) : Determined (scanAll lib) := (scanAll_makes lib).determined

/-- Under a logger that accepts everything, scans that end early do not keep the others from their end. -/
theorem scanAll_ok {lib : Library} (hlog : lib.logger.Accepts) :
    ∃ edits, Does (scanAll lib) (.ok ()) edits ∧ ∀ e ∈ edits, e.Sourced lib :=
  forM_ok fun (_, _) h => (scans_makes h).guarded_ok hlog

end ComponentCatalog
