import ComponentCatalog.Catalog.Walk
import ComponentCatalog.Markdown.Section
import ComponentCatalog.Script.Component
import ComponentCatalog.Script.Constants
import ComponentCatalog.Script.Functions

/-!
# Scans of a library

One scan for each kind of resources. Each directory and each file stands for itself: what cannot be
listed or read is logged as a warning, and the scan goes on.
-/

namespace ComponentCatalog

/-- A file name without an extension that it ends with. Of an empty extension nothing is left. -/
def stem (extension name : Text) : Text :=
  if extension.isEmpty then [] else
  if name.endsWith extension then name.take (name.length - extension.length) else name

namespace Scan

open Work

/-- The entries of a directory; if it cannot be listed, a warning takes their place. -/
def listed (lib : Library) (dir : Path) : Work (Option (List Entry)) :=
  try some <$> list lib dir
  catch fault => do
    tell lib .warning ("Cannot access directory " ++ dir.toText ++ ": " ++ fault.message)
    pure none

/-- What was met of directories on a walk: a warning for one that is not listed, a note for one
that is. -/
def noteVisit (lib : Library) : Visit → Work Unit
  | .unlisted dir e => tell lib .warning ("Cannot access directory " ++ dir.toText ++ ": " ++ e.message)
  | .enter dir entries => noteListed dir entries
  | _ => pure ()

/-- The documentation of a kind; if it cannot be read, a warning takes its place. -/
def kindDocumentation (lib : Library) (p : Path) (kind : Text) : Work (Option KindDocumentation) :=
  try (fun t => some (.ofText kind t)) <$> read lib p
  catch fault => do
    tell lib .warning
      ("Failed to read " ++ kind ++ " documentation " ++ p.toText ++ ": " ++ fault.message)
    pure none

/-! ## Components -/

/-- The record of a component from its source. -/
def componentRecord (name category : Text) (p : Path) (source : Text) : ComponentRecord where
  name := name
  category := category
  filePath := p.toText
  properties := properties source
  events := events source
  mixins := mixins source
  imports := imports source
  template := template source

/-- The file of a component. -/
def component (lib : Library) (p : Path) (category extension : Text) : Work Unit :=
  guarded lib ("Failed to parse component " ++ p.name) do
    let source ← read lib p
    let name := stem extension p.name
    update fun index =>
      { index with
        components := index.components.insert name (componentRecord name category p source) }
    tell lib .debug ("Indexed component: " ++ name)

/-- Does a section document a component? -/
def documents (s : Section) (name : Text) : Bool :=
  Text.includes name.lower s.title.lower || Text.includes name s.content

/-- What the sections say about a component, from the first one that documents it on. -/
def documentationOf? (name : Text) (sections : List Section) : Option Text :=
  match sections.dropWhile fun s => !documents s name with
  | [] => none
  | head :: following => some (head.withSubsections following)

/-- A component of a category with the documentation that the category's sections hold of it. -/
def attach (category : Text) (sections : List Section) (name : Text) (c : ComponentRecord) :
    ComponentRecord :=
  if c.category = category then
    match documentationOf? name sections with
    | some documentation => c.document documentation
    | none => c
  else c

/-- The documentation of a category: it goes to the components of the category that are in the index
by now. -/
def componentDocumentation (lib : Library) (p : Path) (category : Text) : Work Unit := do
  let text? ←
    try some <$> read lib p
    catch fault => do
      tell lib .warning ("Failed to parse documentation " ++ p.toText ++ ": " ++ fault.message)
      pure none
  match text? with
  | none => pure ()
  | some t =>
    update fun index => { index with components := index.components.map (attach category (sections t)) }

/-- The category of a directory: the configured directory and the names that lead from it. -/
def category (configured : Text) (below : List Text) : Text := Text.join ['/'] (configured :: below)

/-- Is there a file among the entries that is no component and has the name of a documentation? -/
def hasReadme (settings : Settings) (entries : List Entry) : Option Text :=
  match settings.componentExtension, settings.readmeName with
  | .ok extension, .ok readme =>
    if entries.any fun e => !e.isDirectory && e.name == readme && !e.name.endsWith extension then
      some readme
    else none
  | _, _ => none

/-- A visit below a configured directory. Documentation is read at the end of its directory, when
the components beside it are in the index. -/
def visitComponent (lib : Library) (configured : Text) : Visit → Work Unit
  | .file dir below name => do
    let extension ← setting lib.settings.componentExtension
    if name.endsWith extension then
      component lib (dir.child name) (category configured below) extension
    else
      discard (setting lib.settings.readmeName)
  | .leave dir below entries =>
    match hasReadme lib.settings entries with
    | some readme => componentDocumentation lib (dir.child readme) (category configured below)
    | none => pure ()
  | visit => noteVisit lib visit

/-- The components below a configured directory. -/
def componentDirectory (lib : Library) (configured : Text) : Work Unit :=
  (lib.files.walk (lib.root.join configured)).forM (visitComponent lib configured)

/-- The components of all configured directories. -/
def components (lib : Library) : Work Unit := do
  (← setting lib.settings.componentDirs).forM fun configured =>
    guarded lib ("Failed to index component directory " ++ configured) do
      componentDirectory lib configured

/-! ## Utilities and configuration modules -/

/-- The script that a visit meets, if any; on the first level the documentation counts as one. The
entry point of a directory does not. -/
def visitScript (lib : Library) : Visit → Work (List Path)
  | .file dir below name => do
    if name = (← setting lib.settings.entryPoint) then return []
    if name.endsWith (← setting lib.settings.scriptExtension) then return [dir.child name]
    if below.isEmpty && name = (← setting lib.settings.readmeName) then return [dir.child name]
    return []
  | visit => do
    noteVisit lib visit
    return []

/-- The scripts below a directory and the documentation in it. -/
def scripts (lib : Library) (dir : Path) : Work (List Path) :=
  List.flatten <$> (lib.files.walk dir).mapM (visitScript lib)

/-- The record of a utility module from its source. -/
def utilityRecord (name : Text) (p : Path) (source : Text) : UtilityRecord where
  name := name
  filePath := p.toText
  functions := functions source
  exports := exports source
  imports := imports source

/-- The file of a utility module. -/
def utility (lib : Library) (p : Path) : Work Unit :=
  guarded lib ("Failed to parse utility " ++ p.name) do
    let source ← read lib p
    let name := stem (← setting lib.settings.scriptExtension) p.name
    update fun index =>
      { index with utilities := index.utilities.insert name (utilityRecord name p source) }
    tell lib .debug ("Indexed utility: " ++ name)

/-- The record of a configuration module from its source. -/
def configRecord (name : Text) (p : Path) (source : Text) : ConfigRecord where
  name := name
  filePath := p.toText
  exports := exports source
  constants := constants source

/-- The file of a configuration module. -/
def config (lib : Library) (p : Path) : Work Unit :=
  guarded lib ("Failed to parse config " ++ p.name) do
    let source ← read lib p
    let name := stem (← setting lib.settings.scriptExtension) p.name
    update fun index =>
      { index with configs := index.configs.insert name (configRecord name p source) }
    tell lib .debug ("Indexed config: " ++ name)

/-- The scripts below a directory one by one, and the documentation in it. -/
def modules (lib : Library) (dir : Except SettingError Text) (kind : Text)
    (document : Option KindDocumentation → Index → Index) (script : Path → Work Unit) : Work Unit := do
  let dir := lib.root.join (← setting dir)
  let readme := dir.join (← setting lib.settings.readmeName)
  (← scripts lib dir).forM fun p =>
    if p = readme then do
      let doc ← kindDocumentation lib p kind
      update (document doc)
    else script p

/-- The utility modules. -/
def utilities (lib : Library) : Work Unit :=
  modules lib lib.settings.utilsDir "utilities"
    (fun doc index => { index with utilitiesDoc := doc }) (utility lib)

/-- The configuration modules. -/
def configurations (lib : Library) : Work Unit :=
  modules lib lib.settings.configModulesDir "configurations"
    (fun doc index => { index with configsDoc := doc }) (config lib)

/-! ## Plugins -/

/-- What a file in a plugin's directory adds to the plugin. -/
def pluginFile (lib : Library) (dir : Path) (name : Text) : Work (PluginRecord → PluginRecord) := do
  let p := dir.child name
  if name.endsWith (← setting lib.settings.scriptExtension) then
    let source ← read lib p
    let file : PluginFile :=
      { name, path := p.toText, exports := exports source, functions := functions source }
    return fun plugin => { plugin with files := plugin.files ++ [file] }
  else if name = (← setting lib.settings.readmeName) then
    let t ← read lib p
    return fun plugin => { plugin with documentation := t, examples := codeSamples t }
  else return id

/-- A plugin with what an entry of its directory adds; if that cannot be read, a warning takes its
place. -/
def addPluginEntry (lib : Library) (dir : Path) (plugin : PluginRecord) (e : Entry) :
    Work PluginRecord := do
  if e.isDirectory then return plugin
  let change ←
    try pluginFile lib dir e.name
    catch fault => do
      tell lib .warning
        ("Failed to read plugin file " ++ plugin.name ++ "/" ++ e.name ++ ": " ++ fault.message)
      pure id
  return change plugin

/-- The directory of a plugin. -/
def plugin (lib : Library) (dir : Path) (name : Text) : Work Unit := do
  match ← listed lib dir with
  | none => pure ()
  | some entries =>
    let record ← entries.foldlM (addPluginEntry lib dir) { name, dirPath := dir.toText }
    update fun index => { index with plugins := index.plugins.insert name record }
    tell lib .debug ("Indexed plugin: " ++ name)

/-- The plugins, and their documentation. -/
def plugins (lib : Library) : Work Unit := do
  let dir := lib.root.join (← setting lib.settings.pluginsDir)
  match ← listed lib dir with
  | none => pure ()
  | some entries =>
    entries.forM fun e =>
      if e.isDirectory then
        guarded lib ("Failed to index plugin " ++ e.name) do plugin lib (dir.child e.name) e.name
      else do
        if e.name = (← setting lib.settings.readmeName) then
          let doc ← kindDocumentation lib (dir.child e.name) "plugins"
          update fun index => { index with pluginsDoc := doc }

/-! ## Example projects -/

/-- The tree below a directory, so many levels deep and without names that begin with a dot. -/
def tree (lib : Library) (levels : Nat) (dir : Path) : Work (List TreeNode) := do
  match levels with
  | 0 => return []
  | levels + 1 =>
    match ← listed lib dir with
    | none => return []
    | some entries =>
      (entries.filter fun e => e.name.head? != some '.').mapM fun e => do
        let p := dir.child e.name
        if e.isDirectory then return .directory e.name p.toText (← tree lib levels p)
        else return .file e.name p.toText

/-- The manifest of an example project. If there is none, or if it is malformed, a warning takes its
place; any other fault is one of the project. -/
def manifest (lib : Library) (dir : Path) (project : Text) : Work (Option Json) := do
  let name ← setting lib.settings.manifestName
  match lib.files.read (dir.join name) with
  | .error e =>
    if e.isSystem then
      tell lib .warning ("No " ++ name ++ " found for example " ++ project)
      return none
    else throw (.file e)
  | .ok t =>
    match Json.read t with
    | .ok v => return some v
    | .error (.excess e) => throw (.excess e)
    | .error fault =>
      tell lib .warning ("Invalid " ++ name ++ " for example " ++ project ++ ": " ++ fault.message t)
      return none

/-- The documentation of an example project, if its tree shows one. -/
def exampleDocumentation (lib : Library) (dir : Path) (project : Text) (nodes : List TreeNode) :
    Work Text := do
  if nodes.isEmpty then return []
  let readme ← setting lib.settings.readmeName
  if nodes.any fun node => node.isFile && node.name == readme then
    try read lib (dir.join readme)
    catch fault => do
      tell lib .warning ("Failed to read README for example " ++ project ++ ": " ++ fault.message)
      pure []
  else return []

/-- The directory of an example project. -/
def project (lib : Library) (dir : Path) (project : Text) : Work Unit := do
  let manifest ← manifest lib dir project
  let nodes ← tree lib (← setting lib.settings.treeDepth).toNat dir
  let documentation ← exampleDocumentation lib dir project nodes
  update fun index =>
    { index with
      examples := index.examples.insert project
        { name := project, dirPath := dir.toText, manifest, tree := nodes, documentation } }
  tell lib .debug ("Indexed example: " ++ project)

/-- The example projects. -/
def examples (lib : Library) : Work Unit := do
  let dir := lib.root.join (← setting lib.settings.examplesDir)
  match ← listed lib dir with
  | none => pure ()
  | some entries =>
    entries.forM fun e =>
      if e.isDirectory then
        guarded lib ("Failed to index example " ++ e.name) do project lib (dir.child e.name) e.name
      else pure ()

end Scan

end ComponentCatalog
