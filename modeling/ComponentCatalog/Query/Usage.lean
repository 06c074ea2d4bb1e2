import ComponentCatalog.Json.Basic
import ComponentCatalog.Script.Declaration
import ComponentCatalog.Text.LetterCase

/-!
# Generated usage samples
-/

namespace ComponentCatalog

/-- A sample that shows how a resource is used. -/
structure UsageSample where
  title : Text
  code : Text
  language : Text
deriving Repr, DecidableEq

/-- A sample of usage as JSON. -/
def UsageSample.toJson (s : UsageSample) : Json :=
  .obj [("title", s.title), ("code", s.code), ("language", s.language)]

namespace Usage

/-- A property set to its default, if it has one. -/
def defaultAttribute? (p : Property) : Option Text :=
  p.default.map fun value => p.name ++ "=\"" ++ value ++ "\""

/-- The component with all defaults written out. -/
def basic (name : Text) (properties : List Property) : UsageSample :=
  let attributes := Text.join " " (properties.filterMap defaultAttribute?)
  let opening := if attributes.isEmpty then name else name ++ " " ++ attributes
  ⟨"Basic Usage", "<" ++ opening ++ "></" ++ name ++ ">", "vue"⟩

/-- The line of a property with a value of its type. -/
def propertyLine (p : Property) : Text :=
  "  " ++ p.name ++ ": " ++ (if p.type = "String".toList then "'value'" else "value")

/-- The component with all properties. -/
def withProperties (name : Text) (properties : List Property) : UsageSample :=
  ⟨"With Props",
    "<" ++ name ++ "\n" ++ Text.join ",\n" (properties.map propertyLine) ++ "\n></" ++ name ++ ">", "vue"⟩

/-- An event with a handler. -/
def eventLine (e : Event) : Text :=
  "@" ++ e.name ++ "=\"handle" ++ e.name.capitalized ++ "\""

/-- The component with handlers for all events. -/
def withEvents (name : Text) (events : List Event) : UsageSample :=
  ⟨"With Events",
    "<" ++ name ++ "\n  " ++ Text.join "\n  " (events.map eventLine) ++ "\n></" ++ name ++ ">", "vue"⟩

/-- The samples for a component: the second and third stand only where there is something to show. -/
def component (name : Text) (properties : List Property) (events : List Event) : List UsageSample :=
  basic name properties ::
    (if properties.isEmpty then [] else [withProperties name properties]) ++
    (if events.isEmpty then [] else [withEvents name events])

/-- The samples for a plugin that is imported from below `root`. -/
def plugin (name root : Text) : List UsageSample :=
  let statement := "import " ++ name ++ " from '" ++ root ++ "/plugins/" ++ name ++ "';"
  [⟨"Import", statement, "javascript"⟩,
    ⟨"Vue Plugin Usage",
      "import Vue from 'vue';\n" ++ statement ++ "\n\nVue.use(" ++ name ++
        ", \x7b\n  // configuration options\n\x7d);", "javascript"⟩]

end Usage

end ComponentCatalog
