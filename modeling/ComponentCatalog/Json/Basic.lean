import ComponentCatalog.Number.Double

/-!
# JSON values

Answers of the catalogue and manifests of example projects are JSON values. The fields of an object
keep the order in which their names first came.
-/

namespace ComponentCatalog

/-- A JSON value. -/
inductive Json where
  | null
  | bool (b : Bool)
  | int (n : Int)
  | real (x : Double)
  | str (t : Text)
  | arr (elements : List Json)
  | obj (fields : List (Text × Json))

instance : Inhabited Json := ⟨.null⟩

namespace Json

/-- The fields with the value of `name` set; a new name comes last. -/
def setField (name : Text) (v : Json) : List (Text × Json) → List (Text × Json)
  | [] => [(name, v)]
  | field :: rest => if field.1 = name then (name, v) :: rest else field :: setField name v rest

/-- The value of the field `name`. -/
def field? (name : Text) : Json → Option Json
  | obj fields => (fields.find? fun field => field.1 == name).map (·.2)
  | _ => none

/-- The value of an optional text. -/
def ofText? : Option Text → Json
  | none => null
  | some t => str t

/-- An array of texts. -/
def ofTexts (ts : List Text) : Json := arr (ts.map str)

/-- A natural number. -/
def nat (n : Nat) : Json := int n

instance : Coe Text Json := ⟨str⟩

end Json

end ComponentCatalog
