import ComponentCatalog.Proofs.ComponentScan

/-!
# What the scans of utilities and configuration modules do

Both scans go through the scripts below a directory. The documentation of the kind is one of them;
every other script that can be read is set as a record.
-/

namespace ComponentCatalog

open Work

variable {lib : Library} {l : Layout}

/-- The file that a visit meets, if the scan of modules reads it: a script that is not an entry point, or the README
at the top. -/
def Visit.script? (l : Layout) : Visit → Option Path
  | .file dir below name =>
    if name = l.entryPoint then none
    else if name.endsWith l.scriptExtension then some (dir.child name)
    else if below.isEmpty && name = l.readmeName then some (dir.child name)
    else none
  | _ => none

/-- The edits that a script makes: of the documentation of the kind, or of a record. -/
def scriptEdits (files : FileSystem) (l : Layout) (readme : Path) (kind : Text)
    (document : Option KindDocumentation → Edit) (record : Text → Path → Text → Edit) (p : Path) :
    List Edit :=
  if p = readme then [document ((files.read p).toOption.map fun t => .ofText kind t)]
  else match files.read p with
    | .ok source => [record (stem l.scriptExtension p.name) p source]
    | .error _ => []

/-- The edits of a scan of modules below a directory. -/
def moduleEdits (files : FileSystem) (l : Layout) (dir : Path) (kind : Text)
    (document : Option KindDocumentation → Edit) (record : Text → Path → Text → Edit) : List Edit :=
  (files.walk dir).flatMap fun v =>
    (v.script? l).toList.flatMap (scriptEdits files l (dir.join l.readmeName) kind document record)

/-- The edits of the scan of utilities. -/
def utilityEdits (files : FileSystem) (root : Path) (l : Layout) : List Edit :=
  moduleEdits files l (root.join l.utilsDir) "utilities" .utilitiesDoc .utility

/-- The edits of the scan of configuration modules. -/
def configEdits (files : FileSystem) (root : Path) (l : Layout) : List Edit :=
  moduleEdits files l (root.join l.configModulesDir) "configurations" .configsDoc .config

namespace Scan

theorem kindDocumentation_does (hlog : lib.logger.Accepts) (p : Path) (kind : Text) :
    Does (kindDocumentation lib p kind)
      (.ok ((lib.files.read p).toOption.map fun t => .ofText kind t)) [] := by
  cases hr : lib.files.read p with
  | ok t => exact ((Does.read hr).map _).tryCatch_ok
  | error e =>
      exact (Does.read_error hr).map_error.tryCatch_error ((Does.tell hlog _ _).then (Does.pure _))

theorem visitScript_does (hlog : lib.logger.Accepts) (hl : lib.settings.Lays l) (v : Visit) :
    Does (visitScript lib v) (.ok (v.script? l).toList) [] := by
  cases v with
  | unlisted dir e => exact (noteVisit_does hlog _).then (Does.pure _)
  | enter dir entries => exact (noteVisit_does hlog _).then (Does.pure _)
  | leave dir below entries => exact (noteVisit_does hlog _).then (Does.pure _)
  | file dir below name =>
      refine (Does.setting hl.entryPoint).then ?_
      simp only [Visit.script?]
      by_cases hentry : name = l.entryPoint
      · simp only [hentry, ↓reduceIte]
        exact Does.pure []
      simp only [hentry, ↓reduceIte]
      refine (Does.setting hl.scriptExtension).then ?_
      by_cases hscript : name.endsWith l.scriptExtension = true
      · simp only [hscript, ↓reduceIte]
        exact Does.pure _
      simp only [hscript]
      refine (Does.setting hl.readmeName).then ?_
      by_cases hreadme : (below.isEmpty && decide (name = l.readmeName)) = true
      · simp only [hreadme, ↓reduceIte]
        exact Does.pure _
      · simp only [hreadme]
        exact Does.pure _

theorem scripts_does (hlog : lib.logger.Accepts) (hl : lib.settings.Lays l) (dir : Path) :
    Does (scripts lib dir) (.ok ((lib.files.walk dir).flatMap fun v => (v.script? l).toList)) [] := by
  rw [List.flatMap_def]
  exact (Does.mapM fun v _ => visitScript_does hlog hl v).map List.flatten

/-- A script whose record is set when it can be read, and a warning in its place otherwise. -/
theorem guarded_script_does (hlog : lib.logger.Accepts) {p : Path} {what : Text} {body : Text → Work Unit}
    {e : Text → Edit} (h : ∀ source, Does (body source) (.ok ()) [e source]) :
    Does (guarded lib what (Work.read lib p >>= body)) (.ok ())
      (match lib.files.read p with
        | .ok source => [e source]
        | .error _ => []) := by
  cases hr : lib.files.read p with
  | error e => exact ((Does.read_error hr).bind_error).guarded_error hlog
  | ok source => exact Does.guarded_ok ((Does.read hr).then (h source))

theorem utility_does (hlog : lib.logger.Accepts) (hl : lib.settings.Lays l) (p : Path) :
    Does (utility lib p) (.ok ())
      (match lib.files.read p with
        | .ok source => [.utility (stem l.scriptExtension p.name) p source]
        | .error _ => []) := by
  refine guarded_script_does hlog fun source => (Does.setting hl.scriptExtension).then ?_
  refine (Does.update (e := .utility _ p source) fun _ => rfl).bind ?_
  exact Does.tell hlog _ _

theorem config_does (hlog : lib.logger.Accepts) (hl : lib.settings.Lays l) (p : Path) :
    Does (config lib p) (.ok ())
      (match lib.files.read p with
        | .ok source => [.config (stem l.scriptExtension p.name) p source]
        | .error _ => []) := by
  refine guarded_script_does hlog fun source => (Does.setting hl.scriptExtension).then ?_
  refine (Does.update (e := .config _ p source) fun _ => rfl).bind ?_
  exact Does.tell hlog _ _

theorem modules_does (hlog : lib.logger.Accepts) (hl : lib.settings.Lays l)
    {dir : Except SettingError Text} {d kind : Text} (hdir : dir = .ok d)
    {document : Option KindDocumentation → Index → Index} {script : Path → Work Unit}
    {e : Option KindDocumentation → Edit} {r : Text → Path → Text → Edit}
    (hdoc : ∀ doc index, document doc index = (e doc).apply index)
    (hscript : ∀ p, Does (script p) (.ok ())
      (match lib.files.read p with
        | .ok source => [r (stem l.scriptExtension p.name) p source]
        | .error _ => [])) :
    Does (modules lib dir kind document script) (.ok ())
      (moduleEdits lib.files l (lib.root.join d) kind e r) := by
  refine (Does.setting hdir).then ((Does.setting hl.readmeName).then ((scripts_does hlog hl _).then ?_))
  unfold moduleEdits
  rw [← List.flatMap_assoc]
  refine Does.forM fun p _ => ?_
  unfold scriptEdits
  split
  · exact (kindDocumentation_does hlog p kind).then (Does.update (hdoc _))
  · exact hscript p

theorem utilities_does (hlog : lib.logger.Accepts) (hl : lib.settings.Lays l) :
    Does (utilities lib) (.ok ()) (utilityEdits lib.files lib.root l) :=
  modules_does hlog hl hl.utilsDir (fun _ _ => rfl) (utility_does hlog hl)

theorem configurations_does (hlog : lib.logger.Accepts) (hl : lib.settings.Lays l) :
    Does (configurations lib) (.ok ()) (configEdits lib.files lib.root l) :=
  modules_does hlog hl hl.configModulesDir (fun _ _ => rfl) (config_does hlog hl)

end Scan

end ComponentCatalog
