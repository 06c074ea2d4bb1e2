import ComponentCatalog.CommandLine.Command

/-!
# Usage and help

The usage of a command names its options and operands on one line, or on several where one is too
short. The help adds a line for each option, operand and command below it, with the explanations in
one column.
-/

namespace ComponentCatalog.CommandLine

/-- The number of characters that a line of a usage may have. -/
def lineWidth : Nat := 78

/-- The explanations begin in this column at the latest. -/
def explanationLimit : Nat := 24

/-! ## Usage -/

/-- An option's value as it stands in a usage. -/
def Opt.placeholder (o : Opt) : Text :=
  match o.kind with
  | .value (.choice words) => alternatives words
  | _ => o.word.map fun c => if c = '-' then '_' else c.toUpper

/-- A name of an option, with a place for its value if it takes one. -/
def Opt.form (o : Opt) (name : Text) : Text :=
  if o.takesValue then name ++ " " ++ o.placeholder else name

/-- An option in a usage, by its shortest name. -/
def Opt.usage (o : Opt) : Text := "[" ++ o.form (o.names.headD []) ++ "]"

/-- The words of the commands below a command, as alternatives. -/
def Command.childWords (c : Command) : List Text := c.children.map Command.word

/-- What follows the options in a usage. -/
def Command.operandUsage (c : Command) : List Text :=
  if c.children.isEmpty then c.operands.map Operand.placeholder
  else [alternatives c.childWords, "..."]

/-- Lines that begin with `line` and hold the parts, each line being filled before the next begins
with `indent`. -/
def fillLines (indent line : Text) : List Text → List Text
  | [] => [line]
  | part :: rest =>
    if lineWidth < line.length + 1 + part.length then
      line :: fillLines indent (indent ++ part) rest
    else fillLines indent (line ++ " " ++ part) rest

/-- The usage of a command. Where it needs several lines, what follows the options begins on a new
one. -/
def Command.usage (c : Command) : Text :=
  let lead := "usage: " ++ c.fullName
  let options := c.options.map Opt.usage
  let line := Text.join " " (lead :: options ++ c.operandUsage)
  if line.length ≤ lineWidth then line
  else
    let indent := Text.repeated (lead.length + 1) ' '
    let more := match c.operandUsage with
      | [] => []
      | part :: rest => fillLines indent (indent ++ part) rest
    Text.join "\n" (fillLines indent lead options ++ more)

/-! ## Help -/

/-- An entry of a help text. -/
structure HelpEntry where
  indent : Nat
  header : Text
  explanation? : Option Text
deriving Repr, DecidableEq

/-- The entry in lines, with its explanation in a column: behind the header, or on the next line
where the header is too long. -/
def HelpEntry.text (column : Nat) (e : HelpEntry) : Text :=
  let margin := Text.repeated e.indent ' '
  let room := column - e.indent - 2
  match e.explanation? with
  | none => margin ++ e.header
  | some explanation =>
    if e.header.length ≤ room then margin ++ e.header.padRight room ++ "  " ++ explanation
    else margin ++ e.header ++ "\n" ++ Text.repeated column ' ' ++ explanation

/-- An option with all its names. -/
def Opt.helpEntry (o : Opt) : HelpEntry :=
  ⟨2, Text.join ", " (o.names.map o.form), o.explanation?⟩

/-- The entries of what follows the options. -/
def Command.operandEntries (c : Command) : List HelpEntry :=
  if c.children.isEmpty then c.operands.map fun o => ⟨2, o.placeholder, o.explanation?⟩
  else
    ⟨2, alternatives c.childWords, some c.childrenExplanation⟩ ::
      c.children.map fun d => ⟨4, d.word, some d.summary⟩

/-- A titled part of a help text; without entries there is none. -/
def helpBlock (column : Nat) (title : Text) (entries : List HelpEntry) : List Text :=
  if entries.isEmpty then []
  else [Text.join "\n" ((title ++ ":") :: entries.map (HelpEntry.text column))]

/-- The help of a command. Only that of the program itself says what it does. -/
def Command.help (c : Command) : Text :=
  let options := c.options.map Opt.helpEntry
  let longest := ((c.operandEntries ++ options).map (·.header.length)).foldl max 0
  let column := min (longest + 4) explanationLimit
  let description := if c = .root then [c.summary] else []
  Text.join "\n\n" (c.usage :: description ++
    helpBlock column "positional arguments" c.operandEntries ++ helpBlock column "options" options) ++
      "\n"

end ComponentCatalog.CommandLine
