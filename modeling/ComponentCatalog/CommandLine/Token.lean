import ComponentCatalog.CommandLine.Problem
import ComponentCatalog.Text.Digit

/-!
# The words of a command line

Before a command reads its words, each is seen as an option, an operand, or the separator behind
which all are operands. A word that begins with a dash is an option, unless it is a negative number
or contains a blank and no option fits it. The words of options may be shortened as long as they
stay unambiguous.
-/

namespace ComponentCatalog.CommandLine

/-- What a word is to a command. -/
inductive Role where
  | operand
  | separator
  /-- An option by its word, and the text behind an equals sign. -/
  | long (o : Opt) (value : Option Text)
  /-- An option by its letter, and the text behind the letter or behind an equals sign after it. -/
  | short (o : Opt) (attached : Option Text)
  /-- It looks like an option, but the command has none of that name. -/
  | unknown
deriving Repr, DecidableEq

/-- A word of a command line and what it is to the command. -/
structure Token where
  text : Text
  role : Role
deriving Repr, DecidableEq

/-- A text in front of its first equals sign, and the text behind it if there is one. -/
def splitValue (t : Text) : Text × Option Text :=
  match t.dropWhile (· != '=') with
  | [] => (t, none)
  | _ :: value => (t.takeWhile (· != '='), some value)

/-- What is attached to the letter of an option. -/
def attached? : Text → Option Text
  | [] => none
  | '=' :: r => some r
  | r => some r

/-- Is a word a negative number? It may have a line feed at its end. -/
def isNegativeNumber : Text → Bool
  | '-' :: r =>
    let r := if r.getLast? == some '\n' then r.dropLast else r
    let whole := r.takeWhile isDigit
    match r.drop whole.length with
    | [] => !whole.isEmpty
    | c :: fraction => c == '.' && !fraction.isEmpty && fraction.all isDigit
  | _ => false

namespace Command

/-- The option of a letter. -/
def optionOfLetter? (c : Command) (letter : Char) : Option Opt :=
  c.options.find? fun o => o.letter? == some letter

/-- The options that a word behind two dashes may mean: the one of that very word, or all whose
words it begins. -/
def optionsOfWord (c : Command) (word : Text) : List Opt :=
  match c.options.find? fun o => o.word == word with
  | some o => [o]
  | none => c.options.filter fun o => o.word.startsWith word

/-- A word that begins with a dash and fits no option. -/
def fallback (word : Text) : Role :=
  if isNegativeNumber word || word.contains ' ' then .operand else .unknown

/-- What a word other than the separator is to a command. -/
def role (c : Command) (word : Text) : Except Problem Role :=
  match word with
  | '-' :: '-' :: r =>
    let (name, value) := splitValue r
    match c.optionsOfWord name with
    | [] => .ok (fallback word)
    | [o] => .ok (.long o value)
    | several => .error (.ambiguous word (several.map Opt.longName))
  | '-' :: letter :: r =>
    match c.optionOfLetter? letter with
    | some o => .ok (.short o (attached? r))
    | none => .ok (fallback word)
  | _ => .ok .operand

/-- The words of a line as a command sees them. Behind the first separator all are operands. -/
def tokens (c : Command) : List Text → Except Problem (List Token)
  | [] => .ok []
  | word :: rest =>
    if word = ['-', '-'] then .ok (⟨word, .separator⟩ :: rest.map fun w => ⟨w, .operand⟩)
    else do
      let role ← c.role word
      return ⟨word, role⟩ :: (← c.tokens rest)

end Command

end ComponentCatalog.CommandLine
