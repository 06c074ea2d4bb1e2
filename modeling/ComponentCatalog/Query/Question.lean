import ComponentCatalog.Query.Plugin
import ComponentCatalog.Query.Utility

/-!
# Questions for one resource

The three kinds of resources that are looked up by name, behind one question and one answer.
-/

namespace ComponentCatalog

/-- A question for one resource. -/
inductive Question where
  | component (name : Text) (hint : CategoryHint)
  | utility (name : Text)
  | plugin (name : Text)
deriving Repr, DecidableEq

/-- The answer to a question for one resource. -/
inductive Answer where
  | component (a : ComponentAnswer)
  | utility (a : UtilityAnswer)
  | plugin (a : PluginAnswer)

/-- Looks up a resource. -/
def Question.ask (lib : Library) : Question → Work Answer
  | component name hint => .component <$> queryComponent lib name hint
  | utility name => .utility <$> queryUtility lib name
  | plugin name => .plugin <$> queryPlugin lib name

namespace Answer

/-- Was anything found? -/
def isFound : Answer → Bool
  | component a => a.isFound
  | utility a => a.isFound
  | plugin a => a.isFound

/-- The answer as JSON, by what was asked for. -/
def toJson : Answer → Json
  | component a => a.toJson
  | utility a => a.toJson
  | plugin a => a.toJson

end Answer

end ComponentCatalog
