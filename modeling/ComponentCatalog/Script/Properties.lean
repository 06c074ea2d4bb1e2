import ComponentCatalog.Script.Brackets
import ComponentCatalog.Script.Declaration
import ComponentCatalog.Text.Reader

/-!
# Declared properties

A component declares its properties as an object, whose entries are `name: Type` or
`name: { … type … default … }`, or as an array of quoted names. Entries are looked for where no
bracket of the object is open.
-/

namespace ComponentCatalog

open Reader

/-- A list in square brackets, brackets included; it holds no other closing bracket. -/
def squareList : Reader Text := do
  lit "["
  let inside ← run (· != ']')
  lit "]"
  return '[' :: inside ++ [']']

/-- A colon with blanks around it. -/
def colon : Reader Unit := blanks *> lit ":" <* blanks

/-- The opening of a list in square brackets behind `word`, and the text inside it. -/
def listAfter (word : Text) (previous : Option Char) : Reader Text := do
  when (beginsWord previous)
  lit word
  colon
  lit "["
  run (· != ']') <* lit "]"

/-- A quoted text that is not empty; any quote ends it. -/
def quotedText : Reader Text := one isQuote *> run1 (!isQuote ·) <* one isQuote

namespace Properties

/-- The opening brace of the properties object. -/
def objectOpening (previous : Option Char) : Reader Unit := do
  when (beginsWord previous)
  lit "props"
  colon
  lit "\x7b"

/-- An identifier that does not begin with a digit or a letter of another script. -/
def typeName : Reader Text := do
  let c ← one fun c => c.isAlpha || c == '_'
  return c :: (← run isWord)

/-- The end of a shorthand entry: blanks up to a comma, the end of a line, or the end of the text.
Where blanks run on to anything else, the entry ends with the last line that they end. -/
def shorthandEnd : Reader Unit := fun t =>
  let blank := t.takeWhile isBlank
  match t.dropWhile isBlank with
  | [] => some ((), [])
  | ',' :: r => some ((), ',' :: r)
  | r =>
    if blank.contains '\n' then
      some ((), '\n' :: (blank.reverse.takeWhile (· != '\n')).reverse ++ r)
    else none

/-- A shorthand entry: a name and its type. -/
def shorthandEntry : Reader (Text × Text) := do
  let name ← word
  colon
  let type ← squareList <|> typeName
  shorthandEnd
  return (name, type)

/-- An entry in braces: a name and the text between its braces. A brace that nothing closes
encloses the rest. -/
def bracedEntry : Reader (Text × Text) := do
  let name ← word
  colon
  lit "\x7b"
  let t ← rest
  let e := enclosed '\x7b' '\x7d' t
  set (e.after.getD [])
  return (name, e.inside)

/-- The type in a definition. -/
def definedType (previous : Option Char) : Reader Text := do
  when (beginsWord previous)
  lit "type"
  colon
  squareList <|> word

/-- Can this character be part of a default value? -/
def isDefaultChar (c : Char) : Bool := c != ',' && c != '\x7d' && c != '\n'

/-- The default in a definition: what stands on the line up to a comma or a brace. Blanks with
nothing behind them are an empty default, unless they are line ends only. -/
def definedDefault (previous : Option Char) : Reader Text := do
  when (beginsWord previous)
  lit "default"
  blanks
  lit ":"
  let blank ← run isBlank
  let value ← run isDefaultChar
  when (!value.isEmpty || blank.any (· != '\n'))
  return value.trim

/-- A property from its definition in braces. -/
def ofDefinition (name definition : Text) : Property where
  name := name
  type := ((first? definedType definition).map (·.1)).getD "unknown"
  default := (first? definedDefault definition).map (·.1)

/-- An entry of the properties object. -/
def entry : Reader Property :=
  (fun (name, definition) => ofDefinition name definition) <$> bracedEntry <|>
    (fun (name, type) => { name := name, type := type }) <$> shorthandEntry

/-- The change of depth by a character. -/
def depthChange (c : Char) : Int :=
  if c = '\x7b' || c = '[' || c = '(' then 1
  else if c = '\x7d' || c = ']' || c = ')' then -1
  else 0

/-- The entries of an object's text. They are read at depth zero and at the beginning of a word;
the first `skip` characters belong to the entry read last. -/
def entriesFrom (previous : Option Char) (depth : Int) (skip : Nat) : Text → List Property
  | [] => []
  | c :: r =>
    match skip with
    | n + 1 => entriesFrom (some c) depth n r
    | 0 =>
      match if depth = 0 && beginsWord previous then entry (c :: r) else none with
      | some (p, left) => p :: entriesFrom (some c) depth (r.length - left.length) r
      | none => entriesFrom (some c) (depth + depthChange c) 0 r

/-- The names of a properties array. -/
def ofArray (t : Text) : List Property :=
  (occurrences (fun _ => quotedText) t).map fun name => { name }

end Properties

/-- The properties that a component declares, in order of declaration. -/
def properties (t : Text) : List Property :=
  match first? Properties.objectOpening t with
  | some (_, left) => Properties.entriesFrom none 0 0 (enclosed '\x7b' '\x7d' left).inside
  | none =>
    match first? (listAfter "props") t with
    | some (names, _) => Properties.ofArray names
    | none => []

end ComponentCatalog
