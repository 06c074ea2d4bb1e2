import ComponentCatalog.CommandLine.Run

/-!
# The program

The outer layer of the program: it reads the parts of the disk that a request is about, runs the
request, and stores and prints what came of it.
-/

namespace ComponentCatalog.Main

/-- A path as the operating system takes it. -/
def systemPath (p : Path) : String := String.ofList p.toText

/-- What a path leads to, and the names in it if it is a directory. -/
def look (p : Path) : IO (Option (DiskNode × List Text)) := do
  try
    let entries ← (← IO.FS.realPath (systemPath p)).readDir
    return some (.directory .empty, entries.toList.map fun e => e.fileName.toList)
  catch _ =>
    try
      return some (.file (← IO.FS.readBinFile (systemPath p)).toList, [])
    catch _ => return none

/-- The disk with a node at the end of a path; a directory that is there stays. -/
def addNode (disk : Disk) (p : Path) (node : DiskNode) : Disk :=
  match disk.locate p with
  | .ok place =>
    if node.isDirectory && place.node?.any DiskNode.isDirectory then disk else disk.put place node
  | .error _ => disk

/-- The disk with all that leads to an absolute path. -/
def addLine (disk : Disk) (p : Path) : IO Disk :=
  (List.range p.parts.length).foldlM (fun disk n => do
    let p : Path := ⟨p.parts.take (n + 1)⟩
    match ← look p with
    | some (node, _) => return addNode disk p node
    | none => return disk) disk

/-- The disk with all that is below an absolute path, down to some depth. -/
def addTree : Nat → Disk → Path → IO Disk
  | 0, disk, _ => return disk
  | depth + 1, disk, p => do
    match ← look p with
    | none => return disk
    | some (node, names) =>
      names.foldlM (fun disk name => addTree depth disk (p.child name)) (addNode disk p node)

/-- Directories are read to this depth. -/
def depthLimit : Nat := 40

/-- The directories of a library. A setting that has no value names none. -/
def libraryDirectories (settings : Settings) (env : Environment) : List Path :=
  match settings.libraryPath env with
  | .error _ => []
  | .ok root =>
    let single : List (Except SettingError Text) :=
      [settings.utilsDir, settings.configModulesDir, settings.pluginsDir, settings.examplesDir]
    let names := (settings.componentDirs.toOption.getD []) ++ single.filterMap Except.toOption
    names.map fun name => (root.join name).resolve env.cwd

/-- The parts of the disk that a request is about. -/
def readDisk (r : CommandLine.Request) (env : Environment) : IO Disk := do
  let disk ← addLine { cwd := env.cwd } env.cwd
  let .ok base := Settings.findBase env r.base | return disk
  let disk ← addLine disk (Settings.ofBase base).file
  let .ok stored := Settings.load disk base | return disk
  let .ok settings := (match r.library? with
    | some t => stored.pin env t
    | none => .ok stored) | return disk
  let disk ← match settings.libraryPath env with
    | .ok root => addLine disk root
    | .error _ => pure disk
  (libraryDirectories settings env).foldlM (fun disk p => do addTree depthLimit (← addLine disk p) p)
    disk

/-- Stores what is new in the directory `p`. -/
def writeDirectory (before : Directory) (p : Path) : Directory → IO Unit
  | .empty => return
  | .file name bytes rest => do
    if before.find? name ≠ some (.file bytes) then
      IO.FS.writeBinFile (systemPath (p.child name)) ⟨bytes.toArray⟩
    writeDirectory before p rest
  | .directory name content rest => do
    match before.find? name with
    | some (.directory known) => writeDirectory known (p.child name) content
    | _ =>
      IO.FS.createDirAll (systemPath (p.child name))
      writeDirectory .empty (p.child name) content
    writeDirectory before p rest

/-- Stores what is new on a disk. -/
def writeDisk (before after : Disk) : IO Unit := writeDirectory before.root ⟨[['/']]⟩ after.root

/-- The home of an account in a line of the list of accounts. -/
def account? (line : Text) : Option (Text × Text) :=
  match line.pieces ':' with
  | name :: _ :: _ :: _ :: _ :: home :: _ => some (name, home)
  | _ => none

/-- The homes of all accounts. -/
def homes : IO (OrderedMap Text Text) := do
  try
    let accounts ← IO.FS.readFile "/etc/passwd"
    return .ofList ((Text.lines accounts.toList).filterMap account?)
  catch _ => return ∅

/-- The environment of the process. -/
def environment : IO Environment := do
  let names := ["HOME", "LIBSCOUT_HOME", "SHARED_LIBRARY_PATH"]
  let set ← names.filterMapM fun name => do
    return (← IO.getEnv name).map fun value => (name.toList, value.toList)
  let cwd ← IO.currentDir
  return { bindings := .ofList set, cwd := Path.ofText (toString cwd).toList, homes := ← homes }

/-- Answers a command line and gives back the code with which the program ends. -/
def answer (args : List String) : IO UInt32 := do
  let words := args.map String.toList
  let host : CommandLine.Host := ⟨← environment, (toString (← IO.appPath)).toList⟩
  let before ← match CommandLine.Request.ofWords words with
    | .ok r => readDisk r host.environment
    | .error _ => pure {}
  let (outcome, after) := CommandLine.run host before words
  writeDisk before after
  (← IO.getStdout).putStr (String.ofList outcome.output)
  (← IO.getStderr).putStr (String.ofList outcome.errors)
  return outcome.code.toUInt32

end ComponentCatalog.Main

/-- The program. -/
def main (args : List String) : IO UInt32 := ComponentCatalog.Main.answer args
