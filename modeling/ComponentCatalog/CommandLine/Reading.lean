import ComponentCatalog.CommandLine.Token
import ComponentCatalog.Number.Numeral

/-!
# Reading a command line

A command takes its options as they come and gives its operands their values in order. The first
operand of a command with commands below it names one of those, which reads all that follows. What
is left over is a problem only when everything was read; the first other problem ends the reading,
and so does an option that asks for help or for the version.
-/

namespace ComponentCatalog.CommandLine

/-! ## Options in one word -/

/-- The options that one word gives, each with the value in the word if there is one. -/
abbrev Cluster := List (Opt × Option Text)

/-- The option of a letter and those in the text behind it. Behind an option that takes a value all
is the value; behind a flag are letters of more options, and nothing else. -/
def Command.cluster (c : Command) (o : Opt) : Text → Except Problem Cluster
  | [] => .ok [(o, none)]
  | x :: r =>
    if o.takesValue then .ok [(o, some (x :: r))]
    else match c.optionOfLetter? x with
      | none => .error (.ignoredValue o (x :: r))
      | some next => do return (o, none) :: (← c.cluster next r)

/-- An option with a value in its word. -/
def valued (o : Opt) (value : Text) : Except Problem Cluster :=
  if o.takesValue then .ok [(o, some value)] else .error (.ignoredValue o value)

/-- The options that a word gives. -/
def Token.cluster (c : Command) (t : Token) : Except Problem Cluster :=
  match t.role with
  | .long o none | .short o none => .ok [(o, none)]
  | .long o (some value) => valued o value
  | .short o (some []) => valued o []
  | .short o (some letters) => c.cluster o letters
  | .operand | .separator | .unknown => .ok []

/-- The option that takes its value from the next word, if the last one does. -/
def Cluster.waiting? (cluster : Cluster) : Option Opt :=
  match cluster.getLast? with
  | some (o, none) => if o.takesValue then some o else none
  | _ => none

/-! ## Values -/

/-- Does a value have its form? -/
def checkForm (slot : Slot) (value : Text) : ValueForm → Except Problem Unit
  | .text => .ok ()
  | .choice words => if words.contains value then .ok () else .error (.invalidChoice slot value words)
  | .whole =>
    match Numeral.whole value with
    | .number _ => .ok ()
    | _ => .error (.notWhole slot value)

/-- What a command has read. -/
structure Progress where
  /-- The options and their values, the last one first. A flag has no value, nor has an option for
  which a separator stands. -/
  options : Cluster := []
  /-- The operands and their values. Where a second separator stands for an operand behind the first
  one, it has no value. -/
  operands : List (Operand × Option Text) := []
  /-- The operands that have no value yet. -/
  pending : List Operand := []
  /-- The words that the command has no use for. -/
  extras : List Text := []
deriving Repr, DecidableEq

namespace Progress

/-- Takes an option with its value. -/
def take (c : Command) (s : Progress) (given : Opt × Option Text) : Except Stop Progress :=
  let (o, value) := given
  let value := value.filter (· != ['-', '-'])
  match o.kind, value with
  | .help, _ => .error (.help c)
  | .version, _ => .error .version
  | .value form, some text => do
    (checkForm (.option o) text form).mapError (.problem c)
    return { s with options := (o, value) :: s.options }
  | _, _ => .ok { s with options := (o, value) :: s.options }

/-- Takes the options of a word; `value` is the next word, for an option that waits for it. -/
def takeCluster (c : Command) (s : Progress) (cluster : Cluster) (value : Option Text) :
    Except Stop Progress :=
  let given := cluster.map fun (o, inWord) => (o, if o.takesValue then inWord.or value else none)
  given.foldlM (take c) s

/-- Gives the next operand its value. -/
def takeOperand (c : Command) (s : Progress) (o : Operand) (rest : List Operand) (value : Option Text) :
    Except Stop Progress := do
  match value with
  | some value => (checkForm (.operand o) value o.form).mapError (.problem c)
  | none => pure ()
  return { s with operands := s.operands ++ [(o, value)], pending := rest }

end Progress

/-! ## The words of a command -/

/-- Reads the words of a command up to the name of a command below it, which is given back with all
that follows. An operand takes the separator in front of it or behind it along. -/
def Command.readTokens (c : Command) (s : Progress) :
    List Token → Except Stop (Progress × Option (List Text))
  | [] => .ok (s, none)
  | t :: rest =>
    match t.role with
    | .operand | .separator =>
      if c.children.isEmpty then
        match s.pending with
        | [] => c.readTokens { s with extras := s.extras ++ [t.text] } rest
        | o :: more =>
          match t.role, rest with
          | .separator, value :: rest => do
            c.readTokens (← s.takeOperand c o more (some value.text)) rest
          | .separator, [] => .ok ({ s with extras := s.extras ++ [t.text] }, none)
          | _, ⟨_, .separator⟩ :: rest => do
            c.readTokens (← s.takeOperand c o more (some t.text)) rest
          | _, rest => do
            let value := if t.text = ['-', '-'] then none else some t.text
            c.readTokens (← s.takeOperand c o more value) rest
      else if t.role = .separator && rest.isEmpty then
        .ok ({ s with extras := s.extras ++ [t.text] }, none)
      else .ok (s, some (t.text :: rest.map Token.text))
    | .unknown => c.readTokens { s with extras := s.extras ++ [t.text] } rest
    | .long .. | .short .. => do
      let cluster ← (t.cluster c).mapError (.problem c)
      match cluster.waiting? with
      | none => c.readTokens (← s.takeCluster c cluster none) rest
      | some o =>
        match rest with
        | ⟨value, .operand⟩ :: rest => c.readTokens (← s.takeCluster c cluster (some value)) rest
        | _ => .error (.problem c (.missingValue o))

/-- What was read from a command line. -/
structure Reading where
  command : Command
  options : Cluster
  operands : List (Operand × Option Text)
  extras : List Text
deriving Repr, DecidableEq

/-- Reads the words of a command. -/
def Command.read (c : Command) (words : List Text) : Except Stop Reading := do
  let tokens ← (c.tokens words).mapError (.problem c)
  let (progress, chosen) ← c.readTokens { pending := c.operands } tokens
  match chosen with
  | none | some [] =>
    if progress.pending.isEmpty then return ⟨c, progress.options, progress.operands, progress.extras⟩
    else throw (.problem c (.missingOperands progress.pending))
  | some (word :: rest) =>
    match h : c.children.find? fun d => d.word == word with
    | none => throw (.problem c (.invalidChoice (.child c) word c.childWords))
    | some d => do
      have : d.height < c.height := Command.height_child (List.mem_of_find?_eq_some h)
      let inner ← d.read rest
      return { inner with
        options := inner.options ++ progress.options
        extras := progress.extras ++ inner.extras }
termination_by c.height

/-- Reads the words behind the name of the program. -/
def readWords (words : List Text) : Except Stop Reading := do
  let reading ← Command.root.read words
  if reading.extras.isEmpty then return reading
  else throw (.problem .root (.unrecognized reading.extras))

end ComponentCatalog.CommandLine
