import ComponentCatalog.Query.Component
import ComponentCatalog.Query.Excerpt

/-!
# Best practices

The documentation that mentions a topic is quoted, resource by resource, and general advice on some
topics follows.
-/

namespace ComponentCatalog

open Work

/-- The resources whose documentation is quoted. -/
inductive PracticeSource where
  | component (name category : Text)
  | utilities
  | plugin (name : Text)
deriving Repr, DecidableEq

/-- A quoted documentation, and where it is found. -/
structure Hit where
  source : PracticeSource
  excerpt : Text
  examples : List CodeSample
  referenceName : Text
  referencePath : Text
deriving Repr, DecidableEq

/-- General advice, with a sample. -/
structure Advice where
  practice : Text
  sample : CodeSample
deriving Repr, DecidableEq

/-- What is known about a topic. -/
structure PracticeAnswer where
  topic : Text
  hits : List Hit
  advice : List Advice

/-- The advice that belongs to a topic. -/
def generalAdvice (topic root : Text) : List Advice :=
  let about (word : String) : Bool := Text.includes word.toList topic.lower
  let components : List Advice :=
    [⟨"Always use kebab-case for component names in templates",
        ⟨"vue", "<yb-avatar></yb-avatar>"⟩⟩,
      ⟨"Import components from the " ++ root ++ " path for consistency",
        ⟨"javascript", "import YbAvatar from '" ++ root ++ "/components/yb-avatar';"⟩⟩]
  let utilities : Advice :=
    ⟨"Import utilities from the main utils index for tree-shaking",
      ⟨"javascript", "import \x7b encrypted \x7d from '" ++ root ++ "/utils';"⟩⟩
  let plugins : Advice :=
    ⟨"Configure plugins in the main plugins index file",
      ⟨"javascript", "Vue.use(plugin, \x7b /* config */ \x7d);"⟩⟩
  (if about "component" || about "vue" then components else []) ++
    (if about "util" || about "function" then [utilities] else []) ++
    (if about "plugin" then [plugins] else [])

/-- The quotation of a documentation that mentions a topic. -/
def hit? (topic documentation : Text) (source : PracticeSource) (examples : List CodeSample)
    (name path : Text) : Option Hit :=
  if mentions documentation topic then
    some ⟨source, excerpt documentation topic, examples, name, path⟩
  else none

namespace Index

/-- The components whose documentation mentions a topic. -/
def componentHits (index : Index) (topic : Text) : List Hit :=
  index.components.entries.filterMap fun (key, c) =>
    if c.documentation.isEmpty then none
    else hit? topic c.documentation (.component key c.category) c.examples key c.filePath

/-- The documentation of the utilities, if it mentions a topic. -/
def utilityHits (index : Index) (topic : Text) (root : Path) (settings : Settings) :
    Except SettingError (List Hit) :=
  match index.utilitiesDoc with
  | none => .ok []
  | some doc =>
    if mentions doc.documentation topic then do
      let dir := root.join (← settings.utilsDir)
      return (hit? topic doc.documentation .utilities doc.examples doc.name dir.toText).toList
    else .ok []

/-- The plugins whose documentation mentions a topic. -/
def pluginHits (index : Index) (topic : Text) : List Hit :=
  index.plugins.entries.filterMap fun (key, p) =>
    if p.documentation.isEmpty then none
    else hit? topic p.documentation (.plugin key) p.examples key p.dirPath

/-- The answer of a ready index. -/
def answerPractices (index : Index) (root : Path) (settings : Settings) (topic : Text) :
    Except SettingError PracticeAnswer := do
  let utilities ← index.utilityHits topic root settings
  return {
    topic
    hits := index.componentHits topic ++ utilities ++ index.pluginHits topic
    advice := generalAdvice topic (← settings.importPrefix) }

end Index

/-- Collects what is known about a topic. -/
def queryPractices (lib : Library) (topic : Text) : Work PracticeAnswer := do
  note .queries .info ("Getting best practices for: " ++ topic)
  ensureBuilt lib
  setting ((← get).index.answerPractices lib.root lib.settings topic)

/-- The word for a kind of resource. -/
def PracticeSource.kind : PracticeSource → Text
  | component .. => "component"
  | utilities => "utilities"
  | plugin .. => "plugin"

/-- The name of a single resource. -/
def PracticeSource.name? : PracticeSource → Option Text
  | component name _ | plugin name => some name
  | utilities => none

/-- An excerpt with the samples beside it, and what it was taken from. -/
def Hit.toJson (h : Hit) : Json :=
  let named : List (Text × Json) := match h.source with
    | .component name category => [("name", name), ("category", category)]
    | .utilities => []
    | .plugin name => [("name", name)]
  .obj (("type".toList, .str h.source.kind) :: named ++
    [("practice".toList, .str h.excerpt), ("examples".toList, .arr (h.examples.map CodeSample.toJson))])

/-- Where an excerpt was taken from. -/
def Hit.reference (h : Hit) : Json :=
  .obj [("type", h.source.kind), ("name", h.referenceName), ("path", h.referencePath)]

/-- A piece of general advice with its sample. -/
def Advice.toJson (a : Advice) : Json :=
  .obj [("type", "general".toList), ("practice", a.practice), ("examples", .arr [a.sample.toJson])]

/-- Excerpts and advice, and all samples and references of the excerpts. -/
def PracticeAnswer.toJson (a : PracticeAnswer) : Json :=
  .obj [("topic", a.topic),
    ("practices", .arr (a.hits.map Hit.toJson ++ a.advice.map Advice.toJson)),
    ("examples", .arr ((a.hits.flatMap (·.examples)).map CodeSample.toJson)),
    ("references", .arr (a.hits.map Hit.reference))]

end ComponentCatalog
