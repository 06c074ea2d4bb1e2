import ComponentCatalog.Script.Properties

/-!
# Imports and exports of a script
-/

namespace ComponentCatalog

open Reader

/-- The characters that cannot stand between `import` and `from`. -/
def endsImport (c : Char) : Bool := c == ';' || isQuote c

/-- A quoted module name behind `from`. -/
def fromModule : Reader Text := keyword "from" *> quotedText

/-- The module name behind the first `from` that begins a word, before anything that ends the
statement. -/
def importSource (previous : Option Char) : Text → Option (Text × Text)
  | [] => none
  | c :: r =>
    (if beginsWord previous then fromModule (c :: r) else none).or
      (if endsImport c then none else importSource (some c) r)

/-- An import statement: the name of its module. -/
def importStatement (previous : Option Char) : Reader Text := do
  when (beginsWord previous)
  keyword "import"
  importSource (some ' ')

/-- The modules that a script imports from. -/
def imports (t : Text) : List Text := occurrences importStatement t

/-- A list of names that are exported together. -/
def exportList (previous : Option Char) : Reader (List Text) := do
  when (beginsWord previous)
  lit "export"
  blanks
  lit "\x7b"
  let names ← run (· != '\x7d')
  lit "\x7d"
  return (names.pieces ',').map Text.trim |>.filter (!·.isEmpty)

/-- The word `function`, with a star for a generator. -/
def functionWord : Reader Unit := do
  lit "function"
  blanks
  discard (opt (lit "*"))
  blanks

/-- What `r` reads, behind the word `async` if that helps. -/
def maybeAsync {α : Type} (r : Reader α) : Reader α := keyword "async" *> r <|> r

/-- The name of the default export. -/
def defaultExport (previous : Option Char) : Reader Text := do
  when (beginsWord previous)
  keyword "export"
  keyword "default"
  maybeAsync (functionWord *> word <|> keyword "class" *> word <|> word)

/-- The name of something that is exported where it is declared. -/
def directExport (previous : Option Char) : Reader Text := do
  when (beginsWord previous)
  keyword "export"
  maybeAsync <|
    (keyword "const" <|> keyword "let" <|> keyword "var" <|> keyword "class" <|> functionWord) *> word

/-- What a script exports: the lists of names, then the default export, then what is exported where
it is declared. -/
def exports (t : Text) : List Text :=
  (occurrences exportList t).flatten ++
    ((first? defaultExport t).map fun (name, _) => "default: " ++ name).toList ++
    occurrences directExport t

end ComponentCatalog
