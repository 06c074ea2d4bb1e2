import ComponentCatalog.Script.Modules

/-!
# Functions of a script
-/

namespace ComponentCatalog

open Reader

namespace Functions

/-- The word `export` at the beginning of a word, with `default` behind it or not. -/
def exportWords (previous : Option Char) : Reader Unit := do
  when (beginsWord previous)
  keyword "export"
  discard (opt (keyword "default"))

/-- A declared function from `async` or `function` on, up to its opening parenthesis. -/
def declaredName (previous : Option Char) : Reader Text := do
  match ← opt (keyword "async") with
  | some _ => pure ()
  | none => when (beginsWord previous)
  functionWord
  word <* blanks <* lit "("

/-- A declared function. -/
def declared (previous : Option Char) : Reader FunctionDecl :=
  (do
    exportWords previous
    let name ← declaredName (some ' ')
    return { name, kind := .declared, exported := true }) <|>
  do
    let name ← declaredName previous
    return { name, kind := .declared, exported := false }

/-- The parameters of an arrow function, up to its arrow. -/
def parameters : Reader Unit := do
  (lit "(" *> discard (run (· != ')')) <* lit ")") <|> discard word
  blanks
  lit "=>"

/-- A variable that is assigned an arrow function. -/
def assignment : Reader Text := do
  keyword "const" <|> keyword "let" <|> keyword "var"
  let name ← word
  blanks
  lit "="
  blanks
  maybeAsync parameters
  return name

/-- An arrow function. -/
def arrow (previous : Option Char) : Reader FunctionDecl := do
  when (beginsWord previous)
  (do
    keyword "export"
    let name ← assignment
    return { name, kind := .arrow, exported := true }) <|>
  do
    let name ← assignment
    return { name, kind := .arrow, exported := false }

end Functions

/-- The functions of a script: the declared ones, then the arrow functions. -/
def functions (t : Text) : List FunctionDecl :=
  occurrences Functions.declared t ++ occurrences Functions.arrow t

end ComponentCatalog
