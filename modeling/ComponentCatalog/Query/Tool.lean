import ComponentCatalog.Query.Listing
import ComponentCatalog.Query.Plugin
import ComponentCatalog.Query.Practices
import ComponentCatalog.Query.Utility

/-!
# Tools

The questions to the catalogue as tools for an assistant: each has a name, a description, and a
schema of its arguments. A call never fails; what goes wrong is its answer.
-/

namespace ComponentCatalog

open Work

/-- The tools of the catalogue. -/
inductive Tool where
  | buildIndex
  | indexStatus
  | component
  | utility
  | plugin
  | practices
  | listing (kind : ListedKind)
deriving Repr, DecidableEq

namespace Tool

/-- All tools, in the order in which they are offered. -/
def all : List Tool :=
  [buildIndex, indexStatus, component, utility, plugin, practices] ++ ListedKind.all.map listing

/-- The name by which an assistant calls a tool. -/
def name : Tool → Text
  | buildIndex => "build_index"
  | indexStatus => "index_status"
  | component => "query_component"
  | utility => "query_utility"
  | plugin => "query_plugin"
  | practices => "get_best_practices"
  | listing kind => "list_" ++ kind.name

/-- The tool of a name. -/
def ofName? (name : Text) : Option Tool := all.find? fun tool => tool.name == name

/-- What an assistant is told of a tool. -/
def description : Tool → Text
  | buildIndex => "Rebuild the shared library resource index"
  | indexStatus => "Number of indexed components, utilities, configs, plugins and examples"
  | component =>
    "Get a shared component's props, events, documentation and usage examples (fuzzy matched, with suggestions)"
  | utility => "Look up a utility module or a function inside one"
  | plugin => "Get a plugin's files, documentation and usage"
  | practices => "Documentation excerpts and general advice for a topic"
  | listing .components => "List every indexed component"
  | listing .utilities => "List every indexed utility module"
  | listing .plugins => "List every indexed plugin"

/-- An argument of a tool. -/
structure Argument where
  name : Text
  description : Text
  required : Bool
deriving Repr, DecidableEq

/-- The arguments of a tool; all are texts. -/
def arguments : Tool → List Argument
  | component =>
    [⟨"name", "Component name, e.g. yb-avatar", true⟩,
      ⟨"category", "Category hint, e.g. form or chart (optional)", false⟩]
  | utility | plugin => [⟨"name", "Resource name", true⟩]
  | practices => [⟨"topic", "Topic, e.g. component-usage", true⟩]
  | _ => []

/-- The schema of the arguments of a tool. -/
def schema (tool : Tool) : Json :=
  let properties := tool.arguments.map fun a =>
    (a.name, Json.obj [("type", "string".toList), ("description", a.description)])
  let required := (tool.arguments.filter (·.required)).map (·.name)
  .obj ([("type".toList, .str "object"), ("properties".toList, .obj properties)] ++
    if required.isEmpty then [] else [("required".toList, .ofTexts required)])

/-- A tool as it is offered: its name, its description and its arguments. -/
def toJson (tool : Tool) : Json :=
  .obj [("name", tool.name), ("description", tool.description), ("inputSchema", tool.schema)]

/-- The tools as they are offered. -/
def offer : Json := .arr (all.map toJson)

end Tool

/-- The arguments of a call, by name. -/
abbrev Arguments := List (Text × Json)

/-- The value of an argument. -/
def Arguments.find? (args : Arguments) (name : Text) : Option Json := (Json.obj args).field? name

/-- A text that must be given and must not be blank, without the blanks around it. -/
def requiredText (args : Arguments) (name : Text) : Except Fault Text :=
  match args.find? name with
  | some (.str t) => if t.trim.isEmpty then .error (.missingArgument name) else .ok t.trim
  | _ => .error (.missingArgument name)

/-- A text that need not be given; anything else counts as not given. -/
def optionalText (args : Arguments) (name : Text) : Option Text :=
  match args.find? name with
  | some (.str t) => if t.isEmpty then none else some t
  | _ => none

/-- The answer of a tool. -/
def Tool.answer (lib : Library) (args : Arguments) : Tool → Work Json
  | buildIndex => do
    build lib
    return ((← get).index.stats lib.root).toJson
  | indexStatus => Stats.toJson <$> queryStatus lib
  | component => do
    let name ← check id (requiredText args "name")
    ComponentAnswer.toJson <$> queryComponent lib name (.ofText? (optionalText args "category"))
  | utility => do
    let name ← check id (requiredText args "name")
    UtilityAnswer.toJson <$> queryUtility lib name
  | plugin => do
    let name ← check id (requiredText args "name")
    PluginAnswer.toJson <$> queryPlugin lib name
  | practices => do
    let topic ← check id (requiredText args "topic")
    PracticeAnswer.toJson <$> queryPractices lib topic
  | listing kind => do
    return .arr ((← queryListing lib kind).map ListedItem.toJson)

/-- An error as an answer. -/
def errorAnswer (message : Text) : Json := .obj [("error", message)]

/-- The answer to a call, and the index after it. -/
def callTool (lib : Library) (name : Text) (args : Arguments) (w : Workspace) : Json × Workspace :=
  match Tool.ofName? name with
  | none => (errorAnswer ("Unknown tool: " ++ name), w)
  | some tool =>
    match tool.answer lib args w with
    | .ok v w => (v, w)
    | .error fault w => (errorAnswer fault.message, w)

end ComponentCatalog
