import ComponentCatalog.Query.Component

/-!
# Utilities by name

A name means a utility module, or else a function in one: the first function of that very name, or
else the first whose name contains it.
-/

namespace ComponentCatalog

open Work

/-- A module or function that may have been meant, and the module that a function is in. -/
structure UtilitySuggestion where
  name : Text
  parent : Option Text
deriving Repr, DecidableEq

/-- A function and the module that it is in. -/
structure FoundFunction where
  function : FunctionDecl
  moduleName : Text
  module_ : UtilityRecord

/-- The answer to a question for a utility. -/
inductive UtilityAnswer where
  | module (u : UtilityRecord) (examples : List CodeSample)
  | function (f : FoundFunction) (examples : List CodeSample)
  | missing (name : Text) (suggestions : List UtilitySuggestion)

namespace Index

/-- All functions, module by module. -/
def moduleFunctions (index : Index) : List FoundFunction :=
  index.utilities.entries.flatMap fun (key, u) => u.functions.map fun f => ⟨f, key, u⟩

/-- The first function of a name, or else the first whose name contains it regardless of case. -/
def function? (index : Index) (name : Text) : Option FoundFunction :=
  (index.moduleFunctions.find? fun f => f.function.name == name).or
    (index.moduleFunctions.find? fun f => Text.includes name.lower f.function.name.lower)

/-- The samples in the documentation of the utilities that contain a name. -/
def utilityExamples (index : Index) (name : Text) : List CodeSample :=
  match index.utilitiesDoc with
  | none => []
  | some doc => doc.examples.filter fun s => Text.includes name s.code

/-- The modules and functions to choose suggestions from, each module in front of its functions. -/
def utilityCandidates (index : Index) : List (Text × UtilitySuggestion) :=
  index.utilities.entries.flatMap fun (key, u) =>
    (key, ⟨key, none⟩) :: u.functions.map fun f => (f.name, ⟨f.name, some key⟩)

/-- The answer of a ready index. -/
def answerUtility (index : Index) (settings : Settings) (name : Text) :
    Except SettingError UtilityAnswer := do
  match index.utilities.find? name with
  | some u => return .module u (index.utilityExamples name)
  | none =>
    match index.function? name with
    | some f => return .function f (index.utilityExamples name)
    | none => return .missing name (← suggest settings name index.utilityCandidates)

end Index

/-- Looks up a utility module, or a function in one. -/
def queryUtility (lib : Library) (name : Text) : Work UtilityAnswer := do
  note .queries .info ("Querying utility: " ++ name)
  ensureBuilt lib
  setting ((← get).index.answerUtility lib.settings name)

namespace UtilityAnswer

/-- Was a module or a function found? -/
def isFound : UtilityAnswer → Bool
  | missing .. => false
  | _ => true

/-- The module, or the function in its module, or the suggestions. -/
def toJson : UtilityAnswer → Json
  | module u examples =>
    .obj [("name", u.name), ("type", "utility".toList), ("found", .bool true),
      ("file_path", u.filePath), ("functions", .arr (u.functions.map FunctionDecl.toJson)),
      ("exports", .ofTexts u.exports), ("imports", .ofTexts u.imports),
      ("documentation", u.documentation), ("examples", .arr (examples.map CodeSample.toJson))]
  | function f examples =>
    .obj [("name", f.function.name), ("type", "function".toList), ("found", .bool true),
      ("file_path", f.module_.filePath), ("parent_module", f.moduleName),
      ("exported", .bool f.function.exported), ("function_type", f.function.kind.name),
      ("documentation", f.module_.documentation), ("examples", .arr (examples.map CodeSample.toJson))]
  | missing name suggestions =>
    .obj [("name", name), ("type", "utility".toList), ("found", .bool false),
      ("suggestions", .arr (suggestions.map fun s =>
        .obj [("name", s.name), ("parent", .ofText? s.parent)]))]

end UtilityAnswer

end ComponentCatalog
