import ComponentCatalog.Number.Double
import ComponentCatalog.Text.Blank
import ComponentCatalog.Text.Digit

/-!
# Numbers written by people

Settings and arguments hold whole numbers and decimals as text: with blanks around them, digits of
any script, and single underscores between digits.
-/

namespace ComponentCatalog

namespace Numeral

/-- Digits of all scripts become ASCII digits and blank characters above the ASCII range spaces; any
other character above that range is no part of a number. -/
def plainChar (c : Char) : Char :=
  if c.toNat < 127 then c
  else if isBlank c then ' '
  else match digitValue? c with
    | some d => Char.ofNat (48 + d)
    | none => '?'

/-- The blanks that may surround a number. -/
def isMargin (c : Char) : Bool := c == ' ' || (9 ≤ c.toNat && c.toNat ≤ 13)

/-- A text as a number is read from it. -/
def plain (t : Text) : Text := Text.dropEndsWhile isMargin (t.map plainChar)

/-- The sign in front of a number: is it negative, and what follows? -/
def sign : Text → Bool × Text
  | '-' :: r => (true, r)
  | '+' :: r => (false, r)
  | t => (false, t)

/-- Does an underscore stand only between two digits? -/
def underscoresBetweenDigits (previousIsDigit : Bool) : Text → Bool
  | [] => true
  | c :: r =>
    if c = '_' then
      previousIsDigit && (match r with | d :: _ => d.isDigit | [] => false) &&
        underscoresBetweenDigits false r
    else underscoresBetweenDigits c.isDigit r

/-- The value of decimal digits. -/
def value (digits : Text) : Nat := digits.foldl (fun n c => 10 * n + (c.toNat - 48)) 0

/-- The number of digits that a whole number may have. -/
def digitLimit : Nat := 4300

/-- What is said of a whole number with too many digits. -/
def tooLongMessage (digits : Nat) : Text :=
  "Exceeds the limit (" ++ Text.ofNat digitLimit ++
    " digits) for integer string conversion: value has " ++ Text.ofNat digits ++
    " digits; use sys.set_int_max_str_digits() to increase the limit"

/-- A reading of a whole number. -/
inductive Whole where
  | number (n : Int)
  /-- It begins with more digits than the limit. -/
  | tooLong (digits : Nat)
  | notWhole
deriving Repr, DecidableEq

/-- Is `c` a digit or an underscore? -/
def isDigitOrUnderscore (c : Char) : Bool := c.isDigit || c == '_'

/-- The whole number that a text holds. The digits at its beginning are counted before what follows
them is looked at. -/
def whole (t : Text) : Whole :=
  let (negative, body) := sign (plain t)
  let run := body.takeWhile isDigitOrUnderscore
  let digits := run.filter (· != '_')
  if digits.isEmpty || !underscoresBetweenDigits false run then .notWhole
  else if digitLimit < digits.length then .tooLong digits.length
  else if run.length < body.length then .notWhole
  else .number (if negative then -(value digits : Int) else value digits)

/-- `c` as a small ASCII letter. -/
def small (c : Char) : Char := c.toLower

/-- The decimal `digits . fraction e exponent` in a text without underscores. -/
def decimal? (negative : Bool) (t : Text) : Option Double :=
  let digits := t.takeWhile Char.isDigit
  let left := t.dropWhile Char.isDigit
  let (fraction, left) := match left with
    | '.' :: r => (r.takeWhile Char.isDigit, r.dropWhile Char.isDigit)
    | r => ([], r)
  if digits.isEmpty && fraction.isEmpty then none
  else
    let mantissa := value (digits ++ fraction)
    let places : Int := fraction.length
    match left with
    | [] => some (Double.ofDecimal negative mantissa (-places))
    | e :: r =>
      if small e != 'e' then none
      else
        let (down, body) := sign r
        if body.isEmpty || !body.all Char.isDigit then none
        else
          let exponent : Int := if down then -(value body : Int) else value body
          some (Double.ofDecimal negative mantissa (exponent - places))

/-- The double nearest to the decimal that a text holds; infinities and what is not a number are
written as words. -/
def double? (t : Text) : Option Double :=
  let t := plain t
  if !underscoresBetweenDigits false t then none
  else
    let (negative, body) := sign (t.filter (· != '_'))
    let word := body.map small
    if word = "inf" || word = "infinity" then some (Double.infinity negative)
    else if word = "nan" then some { Double.nan with negative }
    else decimal? negative body

end Numeral

end ComponentCatalog
