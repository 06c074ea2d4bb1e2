import ComponentCatalog.Files.Memory
import ComponentCatalog.Json.Printer
import ComponentCatalog.Query.Tool

/-!
# Sessions

A session is a library, an index over it, and a run of steps: builds and questions, changes of the
files and the settings, and failures that are laid on files. A step that fails leaves behind what it
did until then, and the session goes on.
-/

namespace ComponentCatalog

/-- Where the files of a session are. -/
inductive Storage where
  | memory (files : MemoryFiles)
  | disk (disk : Disk)

/-- The files of a session, wherever they are kept. -/
def Storage.fileSystem : Storage → FileSystem
  | memory files => files.fileSystem
  | disk d => d.fileSystem

/-- The state of a session. -/
structure Session where
  storage : Storage
  root : Path
  settings : Settings
  logger : Logger := .silent
  index : Index := {}

/-- The library of a session as it is now. -/
def Session.library (s : Session) : Library := ⟨s.root, s.storage.fileSystem, s.settings, s.logger⟩

/-- A step of a session. -/
inductive Step where
  | build
  | ensureBuilt
  | stats
  | status
  | component (name : Text) (category : Option Text)
  | utility (name : Text)
  | plugin (name : Text)
  | practices (topic : Text)
  | listing (kind : ListedKind)
  | tool (name : Text) (args : Arguments)
  | toolText (name : Text) (args : Arguments)
  | toolOffer
  | write (path : Text) (content : List UInt8)
  | delete (path : Text)
  | fail (path : Text) (kind : FailureKind) (message : Text)
  | unfail (path : Text)
  | set (group option value : Text)
  | listenTo (logger : Logger)

namespace Storage

/-- The files with one written; a path that ends with a slash makes a directory. -/
def write (path : Text) (content : List UInt8) : Storage → Except FileError Storage
  | memory files => .ok (memory (files.write path (Utf8.decode content)))
  | disk d => do
    let p := Path.ofText path
    if path.endsWith "/" then return disk (← d.ensureDirectory p)
    let d ← d.ensureDirectory p.parent
    return disk (← d.writeBytes p content)

/-- The files without a path and everything below it. -/
def delete (path : Text) : Storage → Storage
  | memory files => memory (files.delete (Path.ofText path))
  | disk d => disk (d.delete (Path.ofText path))

/-- The files with a failure laid on a path; only files in memory take one. -/
def fail (path : Text) (e : FileError) : Storage → Storage
  | memory files => memory (files.fail (Path.ofText path) e)
  | disk d => disk d

/-- The files without the failure on a path. -/
def unfail (path : Text) : Storage → Storage
  | memory files => memory (files.unfail (Path.ofText path))
  | disk d => disk d

end Storage

/-- What a step answers, and what was logged for the index meanwhile. -/
structure StepAnswer where
  outcome : Except Fault Json
  log : List LogEntry := []

namespace Session

/-- The answer of work on the index. -/
def work (s : Session) (body : Library → Work Json) : StepAnswer × Session :=
  match body s.library { index := s.index } with
  | .ok v w => (⟨.ok v, w.log⟩, { s with index := w.index })
  | .error fault w => (⟨.error fault, w.log⟩, { s with index := w.index })

/-- The answer of a tool, as `encode` shows it. -/
def tool (s : Session) (name : Text) (args : Arguments) (encode : Json → Json) :
    StepAnswer × Session :=
  let (v, w) := callTool s.library name args { index := s.index }
  (⟨.ok (encode v), w.log⟩, { s with index := w.index })

/-- A tool's answer as the text that an assistant is given. -/
def asContent (v : Json) : Json :=
  .arr [.obj [("type", "text".toList), ("text", .str v.text)]]

/-- The answer of a change without a result. -/
def changed (s : Session) : StepAnswer × Session := (⟨.ok .null, []⟩, s)

/-- One step of a session. -/
def perform (s : Session) : Step → StepAnswer × Session
  | .build => s.work fun lib => do
      build lib
      return ((← get).index.stats lib.root).toJson
  | .ensureBuilt => s.work fun lib => do
      ensureBuilt lib
      return .null
  | .stats => (⟨.ok (s.index.stats s.root).toJson, []⟩, s)
  | .status => s.work fun lib => Stats.toJson <$> queryStatus lib
  | .component name category => s.work fun lib =>
      ComponentAnswer.toJson <$> queryComponent lib name (.ofText? category)
  | .utility name => s.work fun lib => UtilityAnswer.toJson <$> queryUtility lib name
  | .plugin name => s.work fun lib => PluginAnswer.toJson <$> queryPlugin lib name
  | .practices topic => s.work fun lib => PracticeAnswer.toJson <$> queryPractices lib topic
  | .listing kind => s.work fun lib => do
      return .arr ((← queryListing lib kind).map ListedItem.toJson)
  | .tool name args => s.tool name args id
  | .toolText name args => s.tool name args asContent
  | .toolOffer => (⟨.ok Tool.offer, []⟩, s)
  | .write path content =>
    match s.storage.write path content with
    | .ok storage => changed { s with storage }
    | .error e => (⟨.error (.file e), []⟩, s)
  | .delete path => changed { s with storage := s.storage.delete path }
  | .fail path kind message =>
    changed { s with storage := s.storage.fail path (.failure kind message) }
  | .unfail path => changed { s with storage := s.storage.unfail path }
  | .set group option value =>
    let (outcome, settings) := s.settings.set group option value
    (⟨(outcome.map fun _ => .null).mapError .setting, []⟩, { s with settings })
  | .listenTo logger => changed { s with logger }

end Session

end ComponentCatalog
