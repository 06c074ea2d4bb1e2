import ComponentCatalog.Catalog.Log
import ComponentCatalog.Catalog.Record
import ComponentCatalog.OrderedMap
import ComponentCatalog.Settings.Settings

/-!
# The index

The index holds a map of records for each kind of resources, the documentation of three of the
kinds, and whether it was built. Work on it may end early; what it did to the index and the log
until then stays.
-/

namespace ComponentCatalog

/-- The index of a library. -/
structure Index where
  components : OrderedMap Text ComponentRecord := ∅
  utilities : OrderedMap Text UtilityRecord := ∅
  configs : OrderedMap Text ConfigRecord := ∅
  plugins : OrderedMap Text PluginRecord := ∅
  examples : OrderedMap Text ExampleRecord := ∅
  utilitiesDoc : Option KindDocumentation := none
  configsDoc : Option KindDocumentation := none
  pluginsDoc : Option KindDocumentation := none
  ready : Bool := false

/-- The index without its records and documentation. -/
def Index.cleared (index : Index) : Index := { ready := index.ready }

/-- A library: where it lies, the files in which it lies, what is set for it, and who is told. -/
structure Library where
  root : Path
  files : FileSystem
  settings : Settings
  logger : Logger := .silent

/-- An index and the log of the work on it. -/
structure Workspace where
  index : Index := {}
  log : List LogEntry := []

/-- Work on an index. When it ends early, what was done stays done. -/
abbrev Work := EStateM Fault Workspace

namespace Work

/-- A message that no logger refuses. -/
def note (channel : Channel) (level : Level) (text : Text) : Work Unit :=
  modify fun w => { w with log := w.log ++ [⟨channel, level, text⟩] }

/-- A message to the logger of the index. -/
def tell (lib : Library) (level : Level) (text : Text) : Work Unit := do
  note .index level text
  match lib.logger.refusal? level text with
  | none => pure ()
  | some message => throw (.interrupted message)

/-- A value that may be a fault. -/
def check {ε α : Type} (cause : ε → Fault) : Except ε α → Work α
  | .ok a => pure a
  | .error e => throw (cause e)

/-- The value of a setting. -/
def setting {α : Type} (value : Except SettingError α) : Work α := check .setting value

/-- The text of a file. -/
def read (lib : Library) (p : Path) : Work Text := check .file (lib.files.read p)

/-- The note that a directory was listed. -/
def noteListed (p : Path) (entries : List Entry) : Work Unit :=
  note .files .debug ("Listed " ++ p.toText ++ " (" ++ Text.ofNat entries.length ++ " entries)")

/-- The entries of a directory. -/
def list (lib : Library) (p : Path) : Work (List Entry) := do
  let entries ← check .file (lib.files.list p)
  noteListed p entries
  return entries

/-- A change of the index. -/
def update (f : Index → Index) : Work Unit := modify fun w => { w with index := f w.index }

/-- The work `body`; if it ends early, a warning about `what` takes its place. -/
def guarded (lib : Library) (what : Text) (body : Work Unit) : Work Unit :=
  try body
  catch fault => tell lib .warning (what ++ ": " ++ fault.message)

end Work

end ComponentCatalog
