/-!
# Text

All text of the catalogue is a list of code points. Here stand the operations that look at single
characters or compare whole texts; none of them depends on a character table.
-/

namespace ComponentCatalog

/-- A text is the list of its code points, none of which is a surrogate. -/
abbrev Text := List Char

instance : Coe String Text := ⟨String.toList⟩

namespace Text

/-- Does `t` begin with `p`? -/
def startsWith (t p : Text) : Bool := p.isPrefixOf t

/-- Does `t` end with `s`? -/
def endsWith (t s : Text) : Bool := s.isSuffixOf t

/-- Does `part` occur somewhere in `t`? -/
def includes (part : Text) : Text → Bool
  | [] => part.isEmpty
  | c :: r => part.isPrefixOf (c :: r) || includes part r

/-- `t` without `p` in front, if it begins with `p`. -/
def after? (p t : Text) : Option Text :=
  if p.isPrefixOf t then some (t.drop p.length) else none

/-- The pieces of `t` between the separators; there is always at least one. -/
def pieces (sep : Char) : Text → List Text
  | [] => [[]]
  | c :: r =>
    if c = sep then [] :: pieces sep r
    else match pieces sep r with
      | [] => [[c]]
      | p :: ps => (c :: p) :: ps

/-- The pieces with `sep` between neighbours. -/
def join (sep : Text) : List Text → Text
  | [] => []
  | [t] => t
  | t :: u :: r => t ++ sep ++ join sep (u :: r)

/-- `t` without the characters of class `p` at its end. -/
def dropEndWhile (p : Char → Bool) (t : Text) : Text := (t.reverse.dropWhile p).reverse

/-- `t` without the characters of class `p` at both ends. -/
def dropEndsWhile (p : Char → Bool) (t : Text) : Text := dropEndWhile p (t.dropWhile p)

/-- Every character of `t` that is `c` is written as `w`. -/
def expand (c : Char) (w : Text) (t : Text) : Text :=
  t.flatMap fun x => if x = c then w else [x]

/-- `n` in decimal digits. -/
def ofNat (n : Nat) : Text := Nat.toDigits 10 n

/-- `n` in decimal digits, with a minus sign if it is negative. -/
def ofInt : Int → Text
  | .ofNat n => ofNat n
  | .negSucc n => '-' :: ofNat (n + 1)

/-- `n` copies of `c`. -/
def repeated (n : Nat) (c : Char) : Text := List.replicate n c

/-- `t` filled up with blanks on its right to `width` characters. -/
def padRight (width : Nat) (t : Text) : Text := t ++ repeated (width - t.length) ' '

/-- `t` filled up with blanks on its left to `width` characters. -/
def padLeft (width : Nat) (t : Text) : Text := repeated (width - t.length) ' ' ++ t

/-- The order by code points, a proper beginning coming first. -/
def le (s t : Text) : Bool := !(t.lex s (fun a b => decide (a.val < b.val)))

end Text

end ComponentCatalog
