import ComponentCatalog.Text.Basic

/-!
# Matching brackets

The bracket that closes another one is found by counting brackets of that kind. Quoted texts and
comments are skipped: a quoted text ends at the same quote unless a backslash escapes it, a line
comment ends with its line, a block comment at its end mark.
-/

namespace ComponentCatalog

/-- What a character of a script belongs to. -/
inductive Lexical where
  | plain
  | quoted (quote : Char)
  | lineComment
  | blockComment
deriving Repr, DecidableEq

/-- The characters that begin and end a quoted text. -/
def isQuote (c : Char) : Bool := c == '\'' || c == '"' || c == '\x60'

/-- The text up to the bracket that closes an open one, and what follows that bracket if there is
one. -/
structure Enclosed where
  inside : Text
  after : Option Text
deriving Repr, DecidableEq

/-- `t` in front of the text inside. -/
def Enclosed.prepend (t : Text) (e : Enclosed) : Enclosed := { e with inside := t ++ e.inside }

/-- The text that an open bracket encloses, `depth` more of its kind being open. -/
def enclosedFrom (opener closer : Char) (state : Lexical) (depth : Nat) : Text → Enclosed
  | [] => ⟨[], none⟩
  | [c] =>
    if state = .plain && c = closer && depth = 0 then ⟨[], some []⟩ else ⟨[c], none⟩
  | c :: d :: r =>
    let next (state : Lexical) (depth : Nat) : Enclosed :=
      (enclosedFrom opener closer state depth (d :: r)).prepend [c]
    let skip (state : Lexical) : Enclosed :=
      (enclosedFrom opener closer state depth r).prepend [c, d]
    match state with
    | .quoted quote =>
      if c = '\\' then skip (.quoted quote)
      else next (if c = quote then .plain else .quoted quote) depth
    | .lineComment => next (if c = '\n' then .plain else .lineComment) depth
    | .blockComment => if c = '*' && d = '/' then skip .plain else next .blockComment depth
    | .plain =>
      if c = '/' && d = '/' then skip .lineComment
      else if c = '/' && d = '*' then skip .blockComment
      else if isQuote c then next (.quoted c) depth
      else if c = opener then next .plain (depth + 1)
      else if c = closer then
        if depth = 0 then ⟨[], some (d :: r)⟩ else next .plain (depth - 1)
      else next .plain depth

/-- The text between an open bracket, behind which `t` stands, and the one that closes it. -/
def enclosed (opener closer : Char) (t : Text) : Enclosed :=
  enclosedFrom opener closer .plain 0 t

end ComponentCatalog
