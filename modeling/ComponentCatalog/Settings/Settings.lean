import ComponentCatalog.Fault
import ComponentCatalog.Files.Disk
import ComponentCatalog.Settings.Reading

/-!
# Settings of the catalogue

Where a library lies and what is in which of its directories, how forgiving a lookup is, and where
its resources are imported from. Every setting has a default; a settings file changes some of them.
-/

namespace ComponentCatalog

/-- The variables of the process, its working directory, and the homes of accounts other than its
own. -/
structure Environment where
  bindings : OrderedMap Text Text := ∅
  cwd : Path := ⟨[['/']]⟩
  homes : OrderedMap Text Text := ∅

namespace Environment

/-- The value of a variable that is set and not empty. -/
def nonempty? (env : Environment) (name : Text) : Option Text :=
  (env.bindings.find? name).filter (!·.isEmpty)

/-- The absolute path of a path. -/
def absolute (env : Environment) (p : Path) : Except SettingError Path :=
  if p.hasNul then .error .nulInPath else .ok (p.resolve env.cwd)

/-- The absolute path that a text denotes. -/
def resolve (env : Environment) (t : Text) : Except SettingError Path := env.absolute (Path.ofText t)

/-- The home that a part of a path with a tilde stands for. -/
def home? (env : Environment) (part : Text) : Option Text :=
  let home := if part = ['~'] then env.bindings.find? "HOME" else env.homes.find? (part.drop 1)
  (home.map (Text.dropEndWhile (· == '/'))).map fun h => if h.isEmpty then ['/'] else h

/-- A path with the home in the place of a tilde at its beginning. -/
def expandHome (env : Environment) (p : Path) : Except SettingError Path :=
  match p.parts with
  | part :: rest =>
    if part.head? == some '~' then
      if part.contains '\x00' then .error .nulInPath
      else match env.home? part with
      | some home =>
        if home.head? == some '~' then .error .unknownHome else .ok ⟨(Path.ofText home).parts ++ rest⟩
      | none => .error .unknownHome
    else .ok p
  | [] => .ok p

end Environment

/-- The settings of the catalogue. -/
structure Settings where
  /-- The directory that holds the settings. -/
  base : Path
  /-- A library that takes the place of the one that is set. -/
  pinned : Option Path := none
  ini : Ini

namespace Settings

/-- All settings and their defaults, by sections. -/
def known : List (Text × List (Text × Text)) :=
  [("library",
      [("path", "."),
        ("component_dirs",
          "src/scripts/components,src/scripts/form-components,src/scripts/chart-components"),
        ("utils_dir", "src/scripts/utils"),
        ("config_dir", "src/scripts/config"),
        ("plugins_dir", "src/scripts/plugins"),
        ("examples_dir", "examples"),
        ("component_extension", ".vue"),
        ("script_extension", ".js"),
        ("readme_name", "README.md"),
        ("entry_point", "index.js"),
        ("manifest_name", "package.json"),
        ("tree_depth", "3")]),
    ("search",
      [("accept_threshold", "0.5"),
        ("suggestion_threshold", "0.3"),
        ("max_suggestions", "5")]),
    ("usage",
      [("import_prefix", "@shared")])]

/-- The defaults as sections of options. -/
def defaults : Ini where
  sections := .ofList (known.map fun (group, options) => (group, .ofList options))

/-- Is there a setting of that name? -/
def isKnown (group option : Text) : Bool :=
  known.any fun (name, options) => name == group && options.any (·.1 == option)

/-- The settings of a base directory without a file. -/
def ofBase (base : Path) : Settings := { base, ini := defaults }

/-! ## Single settings -/

/-- The text of a setting with its percent signs resolved, or the fallback if there is no such setting. -/
def get (s : Settings) (group option fallback : Text) : Except SettingError Text :=
  s.ini.get group option fallback

/-- The settings with an option set to a value, or the reason why not. -/
def set (s : Settings) (group option value : Text) : Except SettingError Unit × Settings :=
  let (outcome, ini) := s.ini.set group option value
  (outcome, { s with ini })

/-- A whole number. -/
def getWhole (s : Settings) (group option : Text) : Except SettingError Int := do
  let t ← s.get group option []
  match Numeral.whole t with
  | .number n => return n
  | .tooLong digits => throw (.tooManyDigits digits)
  | .notWhole => throw (.notWhole t)

/-- A decimal. -/
def getDouble (s : Settings) (group option : Text) : Except SettingError Double := do
  let t ← s.get group option []
  match Numeral.double? t with
  | some x => return x
  | none => throw (.notNumber t)

/-- The texts of a list with commas, without blanks around them and without empty ones. -/
def splitList (t : Text) : List Text := ((t.pieces ',').map Text.trim).filter (!·.isEmpty)

/-- The directories in which components are looked for. -/
def componentDirs (s : Settings) : Except SettingError (List Text) :=
  splitList <$> s.get "library" "component_dirs" ""

/-- The directory of utilities. -/
def utilsDir (s : Settings) : Except SettingError Text := s.get "library" "utils_dir" ""

/-- The directory of configuration modules. -/
def configModulesDir (s : Settings) : Except SettingError Text := s.get "library" "config_dir" ""

/-- The directory of plugins. -/
def pluginsDir (s : Settings) : Except SettingError Text := s.get "library" "plugins_dir" ""

/-- The directory of example projects. -/
def examplesDir (s : Settings) : Except SettingError Text := s.get "library" "examples_dir" ""

/-- The end of the name of a component file. -/
def componentExtension (s : Settings) : Except SettingError Text :=
  s.get "library" "component_extension" ""

/-- The end of the name of a script. -/
def scriptExtension (s : Settings) : Except SettingError Text :=
  s.get "library" "script_extension" ""

/-- The name of a README. -/
def readmeName (s : Settings) : Except SettingError Text := s.get "library" "readme_name" ""

/-- The name of the scripts that are no modules of their own. -/
def entryPoint (s : Settings) : Except SettingError Text := s.get "library" "entry_point" ""

/-- The name of the manifest of a project. -/
def manifestName (s : Settings) : Except SettingError Text := s.get "library" "manifest_name" ""

/-- How deep the tree of a project is shown. -/
def treeDepth (s : Settings) : Except SettingError Int := s.getWhole "library" "tree_depth"

/-- The score that a name must exceed to be taken for what was asked for. -/
def acceptThreshold (s : Settings) : Except SettingError Double :=
  s.getDouble "search" "accept_threshold"

/-- The score that a name must exceed to be suggested. -/
def suggestionThreshold (s : Settings) : Except SettingError Double :=
  s.getDouble "search" "suggestion_threshold"

/-- How many names are suggested at most. -/
def maxSuggestions (s : Settings) : Except SettingError Int := s.getWhole "search" "max_suggestions"

/-- What imports of the library begin with. -/
def importPrefix (s : Settings) : Except SettingError Text := s.get "usage" "import_prefix" ""

/-- The root of the library: the pinned one, the one that the environment names, or the one that is
set. -/
def libraryPath (s : Settings) (env : Environment) : Except SettingError Path :=
  match s.pinned with
  | some root => .ok root
  | none =>
    match env.nonempty? "SHARED_LIBRARY_PATH" with
    | some t => env.resolve t
    | none => do
      let t ← s.get "library" "path" ""
      env.absolute (← env.expandHome (Path.ofText t))

/-- The settings with a library pinned. -/
def pin (s : Settings) (env : Environment) (t : Text) : Except SettingError Settings := do
  return { s with pinned := some (← env.resolve t) }

/-! ## The settings file -/

/-- The directory of the settings file. -/
def directory (s : Settings) : Path := s.base.child "config"

/-- The settings file. -/
def file (s : Settings) : Path := s.directory.child "defaults.ini"

/-- The base directory: the one given, the one that the environment names, or the one at home. -/
def findBase (env : Environment) (given : Option Text) : Except SettingError Path :=
  match given.filter (!·.isEmpty), env.nonempty? "LIBSCOUT_HOME" with
  | some t, _ | none, some t => env.resolve t
  | none, none => (env.expandHome ⟨[['~']]⟩).map (·.child ".libscout")

/-- The settings of a base directory, with those of its file if there is one that can be opened. -/
def load (disk : Disk) (base : Path) : Except Fault Settings := do
  let s := ofBase base
  let present ← (disk.contains s.file).mapError .file
  match if present then disk.readBytes s.file else .error (.system .notFound s.file) with
  | .error _ => return s
  | .ok bytes => return { s with ini := ← (s.ini.read s.file.toText bytes).mapError .setting }

/-- The disk with the directory of the settings file. -/
def ensureDirectory (s : Settings) (disk : Disk) : Except FileError Disk :=
  disk.ensureDirectory s.directory

/-- The disk with the settings written to their file. -/
def save (s : Settings) (disk : Disk) : Except FileError Disk := do
  let disk ← s.ensureDirectory disk
  disk.writeBytes s.file (Utf8.encode s.ini.text)

/-! ## Status -/

/-- What the settings say about themselves. -/
structure Status where
  base : Path
  hasFile : Bool
  library : Path
  componentDirs : List Text
  accept : Double
  suggestion : Double
  maxSuggestions : Int

/-- The status of the settings. -/
def status (s : Settings) (env : Environment) (disk : Disk) : Except Fault Status := do
  return {
    base := s.base
    hasFile := ← (disk.contains s.file).mapError .file
    library := ← (s.libraryPath env).mapError .setting
    componentDirs := ← s.componentDirs.mapError .setting
    accept := ← s.acceptThreshold.mapError .setting
    suggestion := ← s.suggestionThreshold.mapError .setting
    maxSuggestions := ← s.maxSuggestions.mapError .setting }

end Settings

end ComponentCatalog
