import ComponentCatalog.CommandLine.Reading
import ComponentCatalog.Query.Question

/-!
# Requests

What a command line asks for, free of the way in which it was written.
-/

namespace ComponentCatalog.CommandLine

/-- A change of a setting. -/
inductive SettingChange where
  | complete (group option value : Text)
  /-- No option is named. -/
  | withoutOption
  | withoutValue (group option : Text)
deriving Repr, DecidableEq

/-- What is to be done with the settings. -/
inductive SettingsAction where
  | unspecified
  | showAll
  | change (change : SettingChange)
deriving Repr, DecidableEq

/-- What is to be done for an assistant. -/
inductive AssistantAction where
  | unspecified
  /-- Without a transport nothing is served. -/
  | serve (hasTransport : Bool)
  | install
deriving Repr, DecidableEq

/-- What is to be done. -/
inductive Action where
  | overview
  | index (json : Bool)
  /-- A question without a resource. -/
  | unspecifiedQuery
  | query (question : Question) (json : Bool)
  | practices (topic : Text) (json : Bool)
  | listing (kind : ListedKind) (json : Bool)
  | assistant (action : AssistantAction)
  | settings (action : SettingsAction)
  | status (json : Bool)
deriving Repr, DecidableEq

/-- What a command line asks for. -/
structure Request where
  verbose : Bool := false
  /-- The directory of the settings. -/
  base : Option Text := none
  /-- The library that takes the place of the one that is set. -/
  library : Option Text := none
  action : Action
deriving Repr, DecidableEq

namespace Reading

/-- The value of an option; the last one given counts. -/
def option? (r : Reading) (o : Opt) : Option Text := (r.options.lookup o).join

/-- Is an option given? -/
def has (r : Reading) (o : Opt) : Bool := (r.options.lookup o).isSome

/-- Is an option given without the value that it takes? -/
def isVoid (r : Reading) (o : Opt) : Bool := r.options.lookup o == some none

/-- The hint at a category. -/
def hint (r : Reading) : CategoryHint :=
  if r.isVoid .category then .void else .ofText? (r.option? .category)

/-- The value of an operand, if it has one. -/
def operand? (r : Reading) (o : Operand) : Option Text := (r.operands.lookup o).join

/-- The value of an operand that always has one. -/
def operand (r : Reading) (o : Operand) : Text := (r.operand? o).getD []

/-- The change of a setting that the operands name. -/
def change (r : Reading) : SettingChange :=
  match r.operand? .setting, r.operand? .value with
  | some option, some value => .complete (r.operand .group) option value
  | some option, none => .withoutValue (r.operand .group) option
  | none, _ => .withoutOption

/-- The kind of resources that the operand names. -/
def listedKind (r : Reading) : ListedKind :=
  (ListedKind.all.find? fun kind => kind.name == r.operand .kind).getD .components

/-- What a reading asks for. -/
def action (r : Reading) : Action :=
  let json := r.has .json
  match r.command with
  | .root => .overview
  | .index => .index json
  | .query => .unspecifiedQuery
  | .queryComponent => .query (.component (r.operand .component) r.hint) json
  | .queryUtility => .query (.utility (r.operand .utility)) json
  | .queryPlugin => .query (.plugin (r.operand .plugin)) json
  | .practices => .practices (r.operand .topic) json
  | .list => .listing r.listedKind json
  | .mcp => .assistant .unspecified
  | .mcpServe => .assistant (.serve (!r.isVoid .transport))
  | .mcpInstall => .assistant .install
  | .config => .settings .unspecified
  | .configShow => .settings .showAll
  | .configSet => .settings (.change r.change)
  | .status => .status json

/-- The request in what was read. -/
def request (r : Reading) : Request where
  verbose := r.has .verbose
  base := r.option? .basePath
  library := r.option? .library
  action := r.action

end Reading

/-- What the words behind the name of the program ask for. -/
def Request.ofWords (words : List Text) : Except Stop Request := Reading.request <$> readWords words

end ComponentCatalog.CommandLine
