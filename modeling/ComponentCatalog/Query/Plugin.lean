import ComponentCatalog.Query.Component

/-!
# Plugins by name
-/

namespace ComponentCatalog

open Work

/-- The answer to a question for a plugin. -/
inductive PluginAnswer where
  | found (p : PluginRecord) (usage : List UsageSample)
  | missing (name : Text) (suggestions : List Text)

/-- The answer of a ready index: the plugin of that very name, or the names of similar ones. -/
def Index.answerPlugin (index : Index) (settings : Settings) (name : Text) :
    Except SettingError PluginAnswer := do
  match index.plugins.find? name with
  | some p => return .found p (Usage.plugin p.name (← settings.importPrefix))
  | none =>
    return .missing name (← suggest settings name (index.plugins.keys.map fun key => (key, key)))

/-- Looks up a plugin. -/
def queryPlugin (lib : Library) (name : Text) : Work PluginAnswer := do
  note .queries .info ("Querying plugin: " ++ name)
  ensureBuilt lib
  setting ((← get).index.answerPlugin lib.settings name)

namespace PluginAnswer

/-- Was a plugin found? -/
def isFound : PluginAnswer → Bool
  | found .. => true
  | missing .. => false

/-- The plugin with its files and its usage, or the suggestions. -/
def toJson : PluginAnswer → Json
  | found p usage =>
    .obj [("name", p.name), ("type", "plugin".toList), ("found", .bool true), ("dir_path", p.dirPath),
      ("files", .arr (p.files.map PluginFile.toJson)), ("documentation", p.documentation),
      ("examples", .arr (p.examples.map CodeSample.toJson)),
      ("usage", .arr (usage.map UsageSample.toJson))]
  | missing name suggestions =>
    .obj [("name", name), ("type", "plugin".toList), ("found", .bool false),
      ("suggestions", .arr (suggestions.map fun s => .obj [("name", .str s)]))]

end PluginAnswer

end ComponentCatalog
