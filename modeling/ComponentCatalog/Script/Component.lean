import ComponentCatalog.Script.Properties

/-!
# Events, mixins and the template of a component
-/

namespace ComponentCatalog

open Reader

/-- The name of an event in a call that emits it. -/
def emitCall : Reader Text := do
  lit "$emit("
  blanks
  quotedText

/-- The first occurrences of the texts. -/
def distinct : List Text → List Text
  | [] => []
  | t :: r => t :: (distinct r).filter (· != t)

/-- The events that a component emits, each once, in the order in which they first come. -/
def events (t : Text) : List Event :=
  (distinct (occurrences (fun _ => emitCall) t)).map fun name => { name }

/-- The words in the first list of mixins. -/
def mixins (t : Text) : List Text :=
  match first? (listAfter "mixins") t with
  | some (names, _) => occurrences (fun _ => word) names
  | none => []

/-- The text up to the last place at which `mark` stands. -/
def beforeLast? (mark : Text) : Text → Option Text
  | [] => none
  | c :: r =>
    match beforeLast? mark r with
    | some t => some (c :: t)
    | none => if mark.isPrefixOf (c :: r) then some [] else none

/-- What stands between an opening tag of a template and the last closing one. -/
def templateBlock : Reader Text := do
  lit "<template"
  discard (run (· != '>'))
  lit ">"
  let t ← rest
  match beforeLast? "</template>" t with
  | some inside => return inside
  | none => failure

/-- The template of a component; empty if there is none. -/
def template (t : Text) : Text :=
  match first? (fun _ => templateBlock) t with
  | some (inside, _) => inside.trim
  | none => []

end ComponentCatalog
