import ComponentCatalog.Number.Shortest
import ComponentCatalog.Query.Listing
import ComponentCatalog.Query.Practices
import ComponentCatalog.Query.Question
import ComponentCatalog.Text.Lines

/-!
# Answers as reports

What a reader at a terminal sees of an answer. Every line of a report ends with a line feed.
-/

namespace ComponentCatalog

namespace CommandLine

/-- A text behind a separator; an empty text is left out together with it. -/
def trailing (separator : Text) (t : Text) : Text := if t.isEmpty then [] else separator ++ t

/-- A part of a report under a title of its own; without lines there is none. -/
def titled (title : Text) (lines : List Text) : List Text :=
  if lines.isEmpty then [] else [] :: title :: lines

/-- The lines of a text, indented. -/
def indented (t : Text) : List Text := t.lines.map ("    " ++ ·)

/-- What is printed in place of a resource that is missing. -/
def missingReport (name : Text) (suggestions : List Text) : Text :=
  Text.ofLines (("  ❌ Not found: " ++ name) ::
    (if suggestions.isEmpty then [] else "  Did you mean:" :: suggestions.map ("    - " ++ ·)))

/-- A name, and in parentheses where it belongs. -/
def located (name place : Text) : Text :=
  if place.isEmpty then name else name ++ " (" ++ place ++ ")"

end CommandLine

open CommandLine

/-! ## Components -/

/-- The line of a property, with its default and its description if there are any. -/
def Property.reportLine (p : Property) : Text :=
  let value := match p.default with
    | none => []
    | some value => " = " ++ value
  "    " ++ p.name ++ ": " ++ p.type ++ value ++ trailing "  " p.description

/-- The line of an event. -/
def Event.reportLine (e : Event) : Text := "    @" ++ e.name ++ trailing "  " e.description

/-- A blank line, the title and the indented code. -/
def UsageSample.reportLines (s : UsageSample) : List Text :=
  [] :: ("  " ++ s.title ++ ":") :: indented s.code

/-- The report of a component: where it is, what it declares, and how to use it. -/
def ComponentRecord.report (c : ComponentRecord) : Text :=
  Text.ofLines
    (["🧩 " ++ c.name ++ "  [" ++ c.category ++ "]", "   " ++ c.filePath] ++
      titled "  Props:" ((mergeProperties c.properties c.propertyRows).map Property.reportLine) ++
      titled "  Events:" ((mergeEvents c.events c.eventRows).map Event.reportLine) ++
      (Usage.component c.name c.properties c.events).flatMap UsageSample.reportLines)

/-- The report of a component that was looked up, or the suggestions. -/
def ComponentAnswer.report : ComponentAnswer → Text
  | found c => c.report
  | missing name _ suggestions =>
    missingReport name (suggestions.map fun s => located s.name s.category)

/-! ## Utilities -/

/-- The report of a function and its module. -/
def FoundFunction.report (f : FoundFunction) : Text :=
  let visibility := if f.function.exported then "exported" else "internal"
  Text.ofLines
    ["🔧 " ++ f.function.name ++ "  (" ++ f.function.kind.name ++ ", " ++ visibility ++ ")",
      "   in " ++ f.moduleName ++ ": " ++ f.module_.filePath]

/-- A function of a module; an exported one has a mark. -/
def FunctionDecl.reportLine (f : FunctionDecl) : Text :=
  let mark := if f.exported then '*' else ' '
  ' ' :: ' ' :: mark :: ' ' :: f.name ++ " (" ++ f.kind.name ++ ")"

/-- The report of a utility module: where it is, and its functions. -/
def UtilityRecord.report (u : UtilityRecord) : Text :=
  Text.ofLines
    (("🔧 " ++ u.name) :: ("   " ++ u.filePath) :: u.functions.map FunctionDecl.reportLine)

/-- The report of a utility that was looked up, or the suggestions. -/
def UtilityAnswer.report : UtilityAnswer → Text
  | module u _ => u.report
  | function f _ => f.report
  | missing name suggestions =>
    missingReport name (suggestions.map fun s => located s.name (s.parent.getD []))

/-! ## Plugins -/

/-- The line of a file of a plugin: its exports, or a dash. -/
def PluginFile.reportLine (f : PluginFile) : Text :=
  let exports := Text.join ", " f.exports
  "    " ++ f.name ++ ": " ++ (if exports.isEmpty then ['-'] else exports)

/-- The report of a plugin: where it is, and its files. -/
def PluginRecord.report (p : PluginRecord) : Text :=
  Text.ofLines
    (("🔌 " ++ p.name) :: ("   " ++ p.dirPath) :: p.files.map PluginFile.reportLine)

/-- The report of a plugin that was looked up, or the suggestions. -/
def PluginAnswer.report : PluginAnswer → Text
  | found p _ => p.report
  | missing name suggestions => missingReport name suggestions

/-- The report of what was looked up. -/
def Answer.report : Answer → Text
  | component a => a.report
  | utility a => a.report
  | plugin a => a.report

/-! ## Practices -/

/-- A practice under its source. -/
def practiceLines (source practice : Text) : List Text :=
  ("  [" ++ source ++ "]") :: indented practice ++ [[]]

/-- The lines of an excerpt, below what it was taken from. -/
def Hit.reportLines (h : Hit) : List Text :=
  practiceLines (h.source.kind ++ trailing " " (h.source.name?.getD [])) h.excerpt

/-- The lines of a piece of general advice. -/
def Advice.reportLines (a : Advice) : List Text := practiceLines "general" a.practice

/-- The report of the practices of a topic: excerpts first, then general advice. -/
def PracticeAnswer.report (a : PracticeAnswer) : Text :=
  let practices := a.hits.flatMap Hit.reportLines ++ a.advice.flatMap Advice.reportLines
  if a.hits.isEmpty && a.advice.isEmpty then
    Text.ofLines ["No practices found for '" ++ a.topic ++ "'."]
  else Text.ofLines (("📚 Best practices: " ++ a.topic) :: [] :: practices)

/-! ## Listings -/

/-- The line of a listed item. -/
def ListedItem.reportLine (item : ListedItem) : Text :=
  let category := match item.detail with
    | .category category => category
    | _ => []
  "  " ++ item.name ++ (if category.isEmpty then [] else " [" ++ category ++ "]") ++
    trailing " - " item.description

/-- The report of a listing, with a count at its end. -/
def listingReport (kind : ListedKind) (items : List ListedItem) : Text :=
  if items.isEmpty then Text.ofLines ["No " ++ kind.name ++ " indexed."]
  else
    Text.ofLines (items.map ListedItem.reportLine ++
      [[], "  Total: ".toList ++ Text.ofNat items.length])

/-! ## Counts -/

/-- How many records of a kind there are. -/
def countLine (kind : Text) (n : Nat) : Text := "     " ++ kind ++ ": " ++ Text.ofNat n

/-- The report of a build: how many records of each kind there are. -/
def Stats.report (s : Stats) : Text :=
  Text.ofLines
    ("  ✅ Index built" ::
      [countLine "Components" s.components, countLine "Utilities" s.utilities,
        countLine "Configs" s.configs, countLine "Plugins" s.plugins,
        countLine "Examples" s.examples])

/-! ## Status -/

/-- The report of the settings in force. -/
def Settings.Status.report (s : Settings.Status) (libraryExists : Bool) : Text :=
  Text.ofLines
    ["🤖 libscout status", [],
      "  Base path:    " ++ s.base.toText,
      "  Config file:  " ++ (if s.hasFile then "yes" else "no (defaults)"),
      "  Library:      " ++ s.library.toText ++ (if libraryExists then "" else "  (missing)"),
      "  Fuzzy accept: > " ++ s.accept.text "nan" "inf",
      "  Suggestions:  > " ++ s.suggestion.text "nan" "inf" ++ " (top " ++
        Text.ofInt s.maxSuggestions ++ ")"]

/-- The settings in force as JSON. -/
def Settings.Status.toJson (s : Settings.Status) (libraryExists : Bool) : Json :=
  .obj [("base_path", s.base.toText), ("config_exists", .bool s.hasFile),
    ("library_path", s.library.toText), ("component_dirs", .ofTexts s.componentDirs),
    ("thresholds", .obj [("accept", .real s.accept), ("suggestion", .real s.suggestion),
      ("max_suggestions", .int s.maxSuggestions)]),
    ("library_exists", .bool libraryExists)]

end ComponentCatalog
