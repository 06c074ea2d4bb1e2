import ComponentCatalog.Text.Basic

/-!
# What scripts and components declare
-/

namespace ComponentCatalog

/-- A property that a component declares. -/
structure Property where
  name : Text
  type : Text := "unknown"
  default : Option Text := none
  description : Text := []
  /-- Does a documentation table describe it? -/
  documented : Bool := false
deriving Repr, DecidableEq

/-- An event that a component emits. -/
structure Event where
  name : Text
  source : Text := "emit"
  type : Text := "unknown"
  description : Text := []
  /-- Does a documentation table describe it? -/
  documented : Bool := false
deriving Repr, DecidableEq

/-- The two ways to write a function. -/
inductive FunctionKind where
  | declared
  | arrow
deriving Repr, DecidableEq

/-- The word for a kind of function. -/
def FunctionKind.name : FunctionKind → Text
  | .declared => "function"
  | .arrow => "arrow"

/-- A named function of a script. -/
structure FunctionDecl where
  name : Text
  kind : FunctionKind
  exported : Bool
deriving Repr, DecidableEq

/-- A constant at the top level of a script, with the text of its value. -/
structure ConstantDecl where
  name : Text
  value : Option Text
  exported : Bool
deriving Repr, DecidableEq

end ComponentCatalog
