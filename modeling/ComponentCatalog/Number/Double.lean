import ComponentCatalog.Text.Basic

/-!
# Double precision numbers

A double is a sign and the 63 bits below it. Numbers in this form are compared by their bits alone,
and every result of a calculation is the double nearest to an exact quotient, so nothing here
depends on machine arithmetic.
-/

namespace ComponentCatalog

/-- A double: its sign and the other 63 bits as a number. -/
structure Double where
  negative : Bool
  magnitude : Nat
deriving Repr, DecidableEq

namespace Double

/-- The unit of the exponent field. -/
def exponentUnit : Nat := Nat.pow 2 52

/-- The magnitude of infinity. -/
def infiniteMagnitude : Nat := 2047 * exponentUnit

/-- Positive zero. -/
def zero : Double := ⟨false, 0⟩

/-- The number one. -/
def one : Double := ⟨false, 1023 * exponentUnit⟩

/-- Infinity of either sign. -/
def infinity (negative : Bool) : Double := ⟨negative, infiniteMagnitude⟩

/-- The number that is none. -/
def nan : Double := ⟨false, infiniteMagnitude + exponentUnit / 2⟩

/-- Is it no number at all? -/
def isNaN (x : Double) : Bool := infiniteMagnitude < x.magnitude

/-- Is it one of the infinities? -/
def isInfinite (x : Double) : Bool := x.magnitude == infiniteMagnitude

/-- The place of a double in the order of all doubles that are numbers; both zeros share one. -/
def order (x : Double) : Int := if x.negative then -x.magnitude else x.magnitude

/-- The order of doubles. What is not a number is neither below nor above any double. -/
def lt (x y : Double) : Bool := !x.isNaN && !y.isNaN && decide (x.order < y.order)

/-- The exact value `m * 2 ^ e` of a finite double without its sign. -/
def parts (x : Double) : Nat × Int :=
  let exponent := x.magnitude / exponentUnit
  let fraction := x.magnitude % exponentUnit
  if exponent = 0 then (fraction, -1074) else (exponentUnit + fraction, exponent - 1075)

/-- `num / den` rounded to a whole number, a half going to the even neighbour. -/
def roundHalfEven (num den : Nat) : Nat :=
  let q := num / den
  let twice := 2 * (num % den)
  if twice < den || (twice == den && q % 2 == 0) then q else q + 1

/-- `num / (den * 2 ^ e)` as a numerator and a denominator. -/
def scaled (num den : Nat) : Int → Nat × Nat
  | .ofNat e => (num, den * Nat.pow 2 e)
  | .negSucc e => (num * Nat.pow 2 (e + 1), den)

/-- The exponent of the last bit that the double nearest to `num / den` can have. -/
def lastBit (num den : Nat) : Int :=
  let e : Int := (num.log2 : Int) - den.log2 - 53
  let (n, d) := scaled num den e
  max (if n / d < Nat.pow 2 53 then e else e + 1) (-1074)

/-- The double nearest to `num / den`, a half going to the even neighbour. -/
def ofRatio (negative : Bool) (num den : Nat) : Double :=
  if num = 0 || den = 0 then ⟨negative, 0⟩
  else
    let e := lastBit num den
    let (n, d) := scaled num den e
    ⟨negative, min ((e + 1074).toNat * exponentUnit + roundHalfEven n d) infiniteMagnitude⟩

/-- The double nearest to `digits * 10 ^ exponent`. Beyond 400 places the answer is known without
the power: infinity or zero. -/
def ofDecimal (negative : Bool) (digits : Nat) (exponent : Int) : Double :=
  let places : Int := (Nat.toDigits 10 digits).length + exponent
  if digits = 0 then ⟨negative, 0⟩
  else if 400 < places then infinity negative
  else if places < -400 then ⟨negative, 0⟩
  else match exponent with
    | .ofNat e => ofRatio negative (digits * Nat.pow 10 e) 1
    | .negSucc e => ofRatio negative digits (Nat.pow 10 (e + 1))

end Double

end ComponentCatalog
