import ComponentCatalog.CommandLine.Help
import ComponentCatalog.Text.Quoted

/-!
# What can be wrong with a command line
-/

namespace ComponentCatalog.CommandLine

/-- Where a value stands. -/
inductive Slot where
  | option (o : Opt)
  | operand (o : Operand)
  | child (parent : Command)
deriving Repr, DecidableEq

/-- The name of a place for a value. -/
def Slot.name : Slot → Text
  | option o => Text.join "/" o.names
  | operand o => o.label
  | child parent => parent.childLabel

/-- What is wrong with a command line. -/
inductive Problem where
  /-- The beginning of a word begins several words. -/
  | ambiguous (given : Text) (names : List Text)
  /-- A value is given to an option that takes none. -/
  | ignoredValue (o : Opt) (value : Text)
  | missingValue (o : Opt)
  | invalidChoice (slot : Slot) (value : Text) (words : List Text)
  | notWhole (slot : Slot) (value : Text)
  | missingOperands (operands : List Operand)
  /-- Something is neither an option nor an operand of the command. -/
  | unrecognized (words : List Text)
deriving Repr, DecidableEq

namespace Problem

/-- A problem at a place for a value. -/
def slotMessage (slot : Slot) (what : Text) : Text := "argument " ++ slot.name ++ ": " ++ what

/-- A problem in words. -/
def message : Problem → Text
  | ambiguous given names =>
    "ambiguous option: " ++ given ++ " could match " ++ Text.join ", " names
  | ignoredValue o value => slotMessage (.option o) ("ignored explicit argument " ++ value.quoted)
  | missingValue o => slotMessage (.option o) "expected one argument"
  | invalidChoice slot value words =>
    slotMessage slot ("invalid choice: " ++ value.quoted ++ " (choose from " ++
      Text.join ", " (words.map Text.quoted) ++ ")")
  | notWhole slot value => slotMessage slot ("invalid int value: " ++ value.quoted)
  | missingOperands operands =>
    "the following arguments are required: " ++ Text.join ", " (operands.map Operand.label)
  | unrecognized words => "unrecognized arguments: " ++ Text.join " " words

/-- What is said of a problem with the line of a command. -/
def report (c : Command) (p : Problem) : Text :=
  c.usage ++ "\n" ++ c.fullName ++ ": error: " ++ p.message ++ "\n"

end Problem

/-- Why the reading of a command line ends before anything is asked for. -/
inductive Stop where
  | help (c : Command)
  | version
  | problem (c : Command) (p : Problem)
deriving Repr, DecidableEq

end ComponentCatalog.CommandLine
