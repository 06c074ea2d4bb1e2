import ComponentCatalog.CommandLine.Report
import ComponentCatalog.CommandLine.Request
import ComponentCatalog.Json.Printer

/-!
# Runs of the program

A run answers a command line: it prints, logs, changes the disk, and ends with a code. What was
printed and changed before a fault stays.
-/

namespace ComponentCatalog.CommandLine

/-- What a program is run in. -/
structure Host where
  environment : Environment
  /-- The executable by which an assistant starts the program. -/
  launcher : Text

/-- What a run has done so far. -/
structure RunState where
  disk : Disk
  output : Text := []
  log : List LogEntry := []

/-- A run, or a part of it. -/
abbrev Run := EStateM Fault RunState

namespace Run

/-- Prints a text. -/
def print (t : Text) : Run Unit := modify fun s => { s with output := s.output ++ t }

/-- Prints a line. -/
def printLine (t : Text) : Run Unit := print (Text.ofLines [t])

/-- Prints a JSON value on lines of its own. -/
def printJson (v : Json) : Run Unit := printLine v.text

/-- A value that may be a fault. -/
def check {ε α : Type} (cause : ε → Fault) : Except ε α → Run α
  | .ok v => pure v
  | .error e => throw (cause e)

/-- A change of the disk. -/
def change (f : Disk → Except FileError Disk) : Run Unit := do
  let disk ← check .file (f (← get).disk)
  modify fun s => { s with disk }

/-- Work on a fresh index. -/
def onIndex {α : Type} (work : Work α) : Run α := fun s =>
  match work { log := s.log } with
  | .ok v w => .ok v { s with log := w.log }
  | .error fault w => .error fault { s with log := w.log }

end Run

namespace Request

open Run

/-- The library that a request names; an empty name is none. -/
def library? (r : Request) : Option Text := r.library.filter (!·.isEmpty)

/-- The settings as they are stored. -/
def storedSettings (r : Request) (env : Environment) : Run Settings := do
  let base ← check .setting (Settings.findBase env r.base)
  check id (Settings.load (← get).disk base)

/-- The settings with the library that the request names. -/
def settings (r : Request) (env : Environment) : Run Settings := do
  let settings ← r.storedSettings env
  match r.library? with
  | some t => check .setting (settings.pin env t)
  | none => return settings

/-- The library that a request is about. -/
def openLibrary (r : Request) (env : Environment) : Run Library := do
  let settings ← r.settings env
  let root ← check .setting (settings.libraryPath env)
  let disk := (← get).disk
  if ← check .file (disk.isDirectory root) then
    return { root, files := disk.fileSystem, settings }
  else throw (.libraryNotFound root)

/-! ## Actions -/

/-- Builds the index of the library and counts what is in it. -/
def runIndex (lib : Library) (json : Bool) : Run Nat := do
  if !json then printLine ("🤖 Indexing " ++ lib.root.toText ++ "...")
  let stats ← onIndex do
    build lib
    return (← get).index.stats lib.root
  if json then printJson stats.toJson else print stats.report
  return 0

/-- Looks up one resource. -/
def runQuery (lib : Library) (question : Question) (json : Bool) : Run Nat := do
  let answer ← onIndex (question.ask lib)
  if json then printJson answer.toJson else print answer.report
  return if answer.isFound then 0 else 1

/-- Collects what is known about a topic. -/
def runPractices (lib : Library) (topic : Text) (json : Bool) : Run Nat := do
  let answer ← onIndex (queryPractices lib topic)
  if json then printJson answer.toJson else print answer.report
  return 0

/-- Lists the resources of a kind. -/
def runListing (lib : Library) (kind : ListedKind) (json : Bool) : Run Nat := do
  let items ← onIndex (queryListing lib kind)
  if json then printJson (.arr (items.map ListedItem.toJson)) else print (listingReport kind items)
  return 0

/-- The way in which an assistant starts the program for a library. -/
def installation (launcher : Text) (library : Path) : Json :=
  .obj [("mcpServers", .obj [("libscout", .obj [("command", launcher),
    ("args", .ofTexts ["-m", "libscout", "mcp", "serve"]),
    ("env", .obj [("SHARED_LIBRARY_PATH", library.toText)])])])]

/-- What is printed where a command is needed below another one. -/
def commandNeeded (kind command : Text) : Text :=
  "No " ++ kind ++ " subcommand specified. Use 'libscout " ++ command ++ " --help' for options."

/-- No transport is there to serve with; installing prints what an assistant is to be configured with. -/
def runAssistant (settings : Settings) (host : Host) : AssistantAction → Run Nat
  | .unspecified => do
    printLine (commandNeeded "MCP" "mcp")
    return 1
  | .serve true => throw .missingTransport
  | .serve false => return 0
  | .install => do
    let library ← check .setting (settings.libraryPath host.environment)
    print "Add this to your MCP client configuration:\n\n"
    printJson (installation host.launcher library)
    return 0

/-- Prints all settings, by sections. -/
def showSettings (settings : Settings) : Run Unit :=
  Settings.known.forM fun (group, options) => do
    printLine ("[" ++ group ++ "]")
    options.forM fun (option, _) => do
      let value ← check .setting (settings.get group option [])
      printLine ("  " ++ option ++ " = " ++ value)
    printLine []

/-- Stores a setting with a new value. -/
def storeSetting (settings : Settings) (group option value : Text) : Run Unit := do
  change settings.ensureDirectory
  let (outcome, settings) := settings.set group option value
  check .setting outcome
  change settings.save
  printLine ("  ✅ " ++ group ++ "." ++ option ++ " = " ++ value)

/-- Says that there is no setting of a name. -/
def refuseSetting (group option : Text) : Run Nat := do
  printLine ("Unknown setting: " ++ group ++ "." ++ option)
  return 1

/-- Changes a setting that there is. -/
def changeSetting (settings : Settings) : SettingChange → Run Nat
  | .withoutOption => throw .unnamedSetting
  | .withoutValue group option =>
    if Settings.isKnown group option then do
      change settings.ensureDirectory
      throw .unvaluedSetting
    else refuseSetting group option
  | .complete group option value =>
    if Settings.isKnown group option then do
      storeSetting settings group option value
      return 0
    else refuseSetting group option

/-- Shows or changes the settings. -/
def runSettings (settings : Settings) : SettingsAction → Run Nat
  | .unspecified => do
    printLine (commandNeeded "config" "config")
    return 1
  | .showAll => do
    showSettings settings
    return 0
  | .change change => changeSetting settings change

/-- Shows what the settings say, with the library that the request names. -/
def runStatus (r : Request) (env : Environment) (json : Bool) : Run Nat := do
  let settings ← r.storedSettings env
  let disk := (← get).disk
  let status ← check id (settings.status env disk)
  let library ← match r.library? with
    | some t => check .setting (env.resolve t)
    | none => pure status.library
  let status := { status with library }
  let present ← check .file (disk.isDirectory status.library)
  if json then printJson (status.toJson present) else print (status.report present)
  return 0

/-- Does what a request asks for. -/
def perform (r : Request) (host : Host) : Run Nat := do
  let env := host.environment
  match r.action with
  | .overview => do
    print Command.root.help
    return 0
  | .unspecifiedQuery => do
    printLine (commandNeeded "query" "query")
    return 1
  | .index json => runIndex (← r.openLibrary env) json
  | .query question json => runQuery (← r.openLibrary env) question json
  | .practices topic json => runPractices (← r.openLibrary env) topic json
  | .listing kind json => runListing (← r.openLibrary env) kind json
  | .assistant action => runAssistant (← r.settings env) host action
  | .settings action => runSettings (← r.storedSettings env) action
  | .status json => r.runStatus env json

end Request

/-! ## What a run leaves behind -/

/-- The name of a part of the program in the log. -/
def channelName : Channel → Text
  | .index => "libscout.index"
  | .files => "libscout.filesystem"
  | .queries => "libscout.query"
  | .commands => "libscout.cli"

/-- The name of a level in the log. -/
def levelLabel : Level → Text
  | .debug => "DEBUG"
  | .info => "INFO"
  | .warning => "WARNING"
  | .error => "ERROR"

/-- Is a message shown to everyone? -/
def isUrgent : Level → Bool
  | .debug | .info => false
  | .warning | .error => true

/-- The log as it is shown: all messages with their origin, or the urgent ones alone. -/
def logText (verbose : Bool) (log : List LogEntry) : Text :=
  if verbose then
    Text.ofLines (log.map fun e => levelLabel e.level ++ ": " ++ channelName e.channel ++ ": " ++ e.text)
  else Text.ofLines ((log.filter fun e => isUrgent e.level).map LogEntry.text)

/-- What a run printed, what it wrote to the error channel, and the code with which it ended. -/
structure Outcome where
  code : Nat
  output : Text := []
  errors : Text := []
deriving Repr, DecidableEq

/-- The outcome of a command line that asks for nothing to be done. -/
def Stop.outcome : Stop → Outcome
  | .help c => { code := 0, output := c.help }
  | .version => { code := 0, output := Text.ofLines [program ++ " " ++ CommandLine.version] }
  | .problem c p => { code := 2, errors := p.report c }

/-- The outcome of a request, and the disk after it. A fault is printed, or logged if everything is
to be seen. -/
def Request.run (r : Request) (host : Host) (disk : Disk) : Outcome × Disk :=
  match r.perform host { disk } with
  | .ok code s => (⟨code, s.output, logText r.verbose s.log⟩, s.disk)
  | .error fault s =>
    let message := "Error: " ++ fault.message
    if r.verbose then
      let log := s.log ++ [⟨.commands, .error, message⟩]
      (⟨1, s.output, logText true log⟩, s.disk)
    else
      let notice := Text.ofLines [[], "❌ " ++ message, "   Run with -v for details."]
      (⟨1, s.output ++ notice, logText false s.log⟩, s.disk)

/-- The outcome of a command line, and the disk after it. -/
def run (host : Host) (disk : Disk) (words : List Text) : Outcome × Disk :=
  match Request.ofWords words with
  | .error stop => (stop.outcome, disk)
  | .ok r => r.run host disk

end ComponentCatalog.CommandLine
