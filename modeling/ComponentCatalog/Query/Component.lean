import ComponentCatalog.Catalog.Build
import ComponentCatalog.Catalog.Encoding
import ComponentCatalog.Query.Merge
import ComponentCatalog.Query.Usage
import ComponentCatalog.Similarity.Ranking

/-!
# Components by name

A component is found by its name, by a part of its name in a category that is hinted at, or by the
similarity of its name. Where none is found, the answer suggests similar ones.
-/

namespace ComponentCatalog

open Work

/-- A component that may have been meant. -/
structure ComponentSuggestion where
  name : Text
  category : Text
deriving Repr, DecidableEq

/-- A hint at the category of a component. -/
inductive CategoryHint where
  | absent
  | given (category : Text)
  /-- There is a hint, but no text in it. -/
  | void
deriving Repr, DecidableEq

namespace CategoryHint

/-- The hint in a text that need not be there. -/
def ofText? : Option Text → CategoryHint
  | none => absent
  | some t => given t

/-- The text of a hint. -/
def text? : CategoryHint → Option Text
  | given t => some t
  | absent | void => none

/-- A hint as it is logged. -/
def label : CategoryHint → Text
  | absent => "None"
  | given t => t
  | void => "[]"

end CategoryHint

/-- The answer to a question for a component. -/
inductive ComponentAnswer where
  | found (c : ComponentRecord)
  | missing (name : Text) (category : Option Text) (suggestions : List ComponentSuggestion)

namespace Index

/-- Does a component lie in a category, and does its name contain the other name or stand in it? -/
def fitsHint (name category : Text) (key : Text) (c : ComponentRecord) : Bool :=
  Text.includes category c.category &&
    (Text.includes name.lower key.lower || Text.includes key.lower name.lower)

/-- The first component that fits a hint. An empty hint is none. -/
def hinted? (index : Index) (name : Text) (category : Option Text) : Option ComponentRecord :=
  match category with
  | none | some [] => none
  | some category =>
    (index.components.entries.find? fun (key, c) => fitsHint name category key c).map (·.2)

/-- The component of the most similar name above the threshold. -/
def similarComponent? (index : Index) (name : Text) (accept : Double) : Option ComponentRecord :=
  bestMatch? name index.components.entries accept

/-- The components to choose suggestions from. -/
def componentCandidates (index : Index) : List (Text × ComponentSuggestion) :=
  index.components.entries.map fun (key, c) => (key, ⟨key, c.category⟩)

end Index

/-- The component that a name means: the first of the ways to find one that does. The threshold is
read only if the last way is taken. -/
def findComponent? (index : Index) (settings : Settings) (name : Text) (category : Option Text) :
    Except SettingError (Option ComponentRecord) :=
  match (index.components.find? name).or (index.hinted? name category) with
  | some c => .ok (some c)
  | none => do return index.similarComponent? name (← settings.acceptThreshold)

/-- The best candidates for a name by the thresholds that are set. -/
def suggest {α : Type} (settings : Settings) (name : Text) (candidates : List (Text × α)) :
    Except SettingError (List α) := do
  let threshold ← settings.suggestionThreshold
  let limit ← settings.maxSuggestions
  return rank name candidates threshold limit

/-- The answer of a ready index. -/
def Index.answerComponent (index : Index) (settings : Settings) (name : Text)
    (category : Option Text) : Except SettingError ComponentAnswer := do
  match ← findComponent? index settings name category with
  | some c => return .found c
  | none => return .missing name category (← suggest settings name index.componentCandidates)

/-- Looks up a component. -/
def queryComponent (lib : Library) (name : Text) (hint : CategoryHint) : Work ComponentAnswer := do
  note .queries .info ("Querying component: " ++ name ++ " (category: " ++ hint.label ++ ")")
  ensureBuilt lib
  setting ((← get).index.answerComponent lib.settings name hint.text?)

namespace ComponentAnswer

/-- Was a component found? -/
def isFound : ComponentAnswer → Bool
  | found _ => true
  | missing .. => false

/-- The component with all that is known of it, or the suggestions. -/
def toJson : ComponentAnswer → Json
  | found c =>
    .obj [("name", c.name), ("category", c.category), ("found", .bool true),
      ("file_path", c.filePath),
      ("props", .arr ((mergeProperties c.properties c.propertyRows).map Property.toJson)),
      ("events", .arr ((mergeEvents c.events c.eventRows).map Event.toJson)),
      ("mixins", .ofTexts c.mixins), ("imports", .ofTexts c.imports), ("template", c.template),
      ("examples", .arr (c.examples.map CodeSample.toJson)), ("documentation", c.documentation),
      ("usage", .arr ((Usage.component c.name c.properties c.events).map UsageSample.toJson))]
  | missing name category suggestions =>
    .obj [("name", name), ("category", (category.filter (!·.isEmpty)).getD "unknown"),
      ("found", .bool false), ("props", .arr []), ("events", .arr []), ("examples", .arr []),
      ("documentation", .str []),
      ("suggestions", .arr (suggestions.map fun s =>
        .obj [("name", s.name), ("category", s.category)]))]

end ComponentAnswer

end ComponentCatalog
