import ComponentCatalog.Proofs.Layout
import ComponentCatalog.Proofs.OrderedMap
import ComponentCatalog.Proofs.Walk
import ComponentCatalog.Proofs.Work

/-!
# What the scan of components does

Under a logger that accepts everything, and with settings that can be read, the scan of components
sets a record for every component file that can be read, and attaches every documentation that can
be read, in the order of the walks.
-/

namespace ComponentCatalog

open Work

variable {lib : Library} {l : Layout}

/-- A component file that was read: the directory in which it is, the configured directory and the
names that lead there, its own name, and its text. -/
structure ComponentFile where
  configured : Text
  below : List Text
  dir : Path
  name : Text
  source : Text
deriving Repr, DecidableEq

namespace ComponentFile

/-- Where the file is. -/
def path (f : ComponentFile) : Path := f.dir.child f.name

/-- The category that its record gets. -/
def category (f : ComponentFile) : Text := Scan.category f.configured f.below

/-- The name under which its record stands. -/
def key (l : Layout) (f : ComponentFile) : Text := stem l.componentExtension f.name

/-- The record that the scan makes of it. -/
def record (l : Layout) (f : ComponentFile) : ComponentRecord :=
  Scan.componentRecord (f.key l) f.category f.path f.source

/-- The edit that enters it. -/
def edit (l : Layout) (f : ComponentFile) : Edit := .component (f.key l) f.category f.path f.source

end ComponentFile

/-- Is a README among the entries that is not taken for a component? -/
def Layout.hasReadme (l : Layout) (entries : List Entry) : Bool :=
  entries.any fun e =>
    !e.isDirectory && e.name == l.readmeName && !e.name.endsWith l.componentExtension

/-- The component file that a visit meets, if it is one and can be read. -/
def Visit.componentFile? (files : FileSystem) (l : Layout) (configured : Text) :
    Visit → Option ComponentFile
  | .file dir below name =>
    if name.endsWith l.componentExtension then
      (files.read (dir.child name)).toOption.map fun source => ⟨configured, below, dir, name, source⟩
    else none
  | _ => none

/-- The edits of one visit: a component is entered at its file, a README attached on leaving its directory. -/
def Visit.componentEdits (files : FileSystem) (l : Layout) (configured : Text) (v : Visit) : List Edit :=
  match v with
  | .leave dir below entries =>
    if l.hasReadme entries then
      match files.read (dir.child l.readmeName) with
      | .ok t => [.attach (Scan.category configured below) (sections t)]
      | .error _ => []
    else []
  | v => ((v.componentFile? files l configured).map (·.edit l)).toList

/-- The edits of the scan of components, one configured directory after the other. -/
def componentEdits (files : FileSystem) (root : Path) (l : Layout) : List Edit :=
  l.componentDirs.flatMap fun configured =>
    (files.walk (root.join configured)).flatMap (Visit.componentEdits files l configured)

/-- The component files that can be read, in the order of the walks. -/
def componentFiles (files : FileSystem) (root : Path) (l : Layout) : List ComponentFile :=
  l.componentDirs.flatMap fun configured =>
    (files.walk (root.join configured)).filterMap (Visit.componentFile? files l configured)

/-! ## The scan makes these edits -/

namespace Scan

theorem listed_does (hlog : lib.logger.Accepts) (dir : Path) :
    Does (listed lib dir) (.ok (lib.files.list dir).toOption) [] := by
  cases hl : lib.files.list dir with
  | ok entries => exact ((Does.list hl).map some).tryCatch_ok
  | error e =>
      exact (Does.list_error hl).map_error.tryCatch_error ((Does.tell hlog _ _).then (Does.pure _))

theorem noteVisit_does (hlog : lib.logger.Accepts) (v : Visit) : Does (noteVisit lib v) (.ok ()) [] := by
  cases v with
  | unlisted dir e => exact Does.tell hlog _ _
  | enter dir entries => exact Does.note _ _ _
  | file dir below name => exact Does.pure ()
  | leave dir below entries => exact Does.pure ()

theorem component_does (hlog : lib.logger.Accepts) (p : Path) (category extension : Text) :
    Does (component lib p category extension) (.ok ())
      (match lib.files.read p with
        | .ok source => [.component (stem extension p.name) category p source]
        | .error _ => []) := by
  cases hr : lib.files.read p with
  | error e => exact ((Does.read_error hr).bind_error).guarded_error hlog
  | ok source =>
      refine Does.guarded_ok ((Does.read hr).then ?_)
      refine (Does.update (e := .component _ category p source) fun _ => rfl).bind ?_
      exact Does.tell hlog _ _

theorem componentDocumentation_does (hlog : lib.logger.Accepts) (p : Path) (category : Text) :
    Does (componentDocumentation lib p category) (.ok ())
      (match lib.files.read p with
        | .ok t => [.attach category (sections t)]
        | .error _ => []) := by
  cases hr : lib.files.read p with
  | error e =>
      refine Does.then (a := none) ?_ (Does.pure ())
      exact (Does.read_error hr).map_error.tryCatch_error ((Does.tell hlog _ _).then (Does.pure _))
  | ok t =>
      exact ((Does.read hr).map some).tryCatch_ok.then (Does.update fun _ => rfl)

theorem hasReadme_eq (hl : lib.settings.Lays l) (entries : List Entry) :
    hasReadme lib.settings entries = if l.hasReadme entries then some l.readmeName else none := by
  unfold hasReadme Layout.hasReadme
  rw [hl.componentExtension, hl.readmeName]

theorem visitComponent_does (hlog : lib.logger.Accepts) (hl : lib.settings.Lays l) (configured : Text)
    (v : Visit) :
    Does (visitComponent lib configured v) (.ok ()) (v.componentEdits lib.files l configured) := by
  cases v with
  | unlisted dir e => exact noteVisit_does hlog (.unlisted dir e)
  | enter dir entries => exact Does.note _ _ _
  | file dir below name =>
      refine (Does.setting hl.componentExtension).then ?_
      simp only [Visit.componentEdits, Visit.componentFile?]
      split
      · have h := component_does hlog (dir.child name) (Scan.category configured below) l.componentExtension
        cases hr : lib.files.read (dir.child name) with
        | ok source =>
            rw [hr] at h
            simpa [ComponentFile.edit, ComponentFile.key, ComponentFile.category, ComponentFile.path,
              Except.toOption, Path.name, Path.child] using h
        | error e =>
            rw [hr] at h
            exact h
      · exact (Does.setting hl.readmeName).map _
  | leave dir below entries =>
      simp only [visitComponent, Visit.componentEdits, hasReadme_eq hl]
      cases l.hasReadme entries with
      | true => exact componentDocumentation_does hlog _ _
      | false => exact Does.pure ()

theorem components_does (hlog : lib.logger.Accepts) (hl : lib.settings.Lays l) :
    Does (components lib) (.ok ()) (componentEdits lib.files lib.root l) := by
  refine (Does.setting hl.componentDirs).then (Does.forM fun configured _ => Does.guarded_ok ?_)
  exact Does.forM fun v _ => visitComponent_does hlog hl configured v

end Scan

end ComponentCatalog
