import ComponentCatalog.Number.Double

/-!
# The shortest decimal of a double

The text of a finite double is the decimal with the fewest digits that reads back as it, and the
nearest one if several have so few. It is written positionally from `10 ^ -4` up to `10 ^ 16`, with
at least one digit behind the point, and with an exponent of at least two digits elsewhere.
-/

namespace ComponentCatalog

/-- `digits * 10 ^ exponent`. -/
structure Decimal where
  digits : Nat
  exponent : Int
deriving Repr, DecidableEq

/-- The power of ten at which a positive quotient has its first digit. -/
def firstPlace (num den : Nat) : Int :=
  if den ≤ num then ((Nat.toDigits 10 (num / den)).length : Int) - 1
  else -((Nat.toDigits 10 ((den + num - 1) / num - 1)).length : Int)

/-- `num / den` in units of `10 ^ place`, as a numerator and a denominator. -/
def inPlaces (num den : Nat) : Int → Nat × Nat
  | .ofNat p => (num, den * Nat.pow 10 p)
  | .negSucc p => (num * Nat.pow 10 (p + 1), den)

/-- The numbers that round to a double, in quarters of the unit of its last bit. -/
structure Surroundings where
  low : Nat
  value : Nat
  high : Nat
  /-- Do the two ends round to the double, too? -/
  closed : Bool
  /-- The exponent of the quarter. -/
  exponent : Int

/-- The surroundings of a finite double other than zero. Below a power of two the neighbours stand
twice as close. -/
def Double.surroundings (x : Double) : Surroundings :=
  let (m, e) := x.parts
  let close := m == exponentUnit && -1074 < e
  ⟨4 * m - (if close then 1 else 2), 4 * m, 4 * m + 2, m % 2 == 0, e - 2⟩

/-- Does `n` units of `10 ^ place` lie in the surroundings? -/
def Surroundings.covers (s : Surroundings) (place : Int) (n : Nat) : Bool :=
  let (a, den) := Double.scaled 1 1 (-s.exponent)
  let (num, d) := inPlaces a den place
  let point := n * d
  if s.closed then s.low * num ≤ point && point ≤ s.high * num
  else s.low * num < point && point < s.high * num

/-- The neighbour of the value on the grid of `10 ^ place` that lies in the surroundings, the nearer
one if both do; of two equally near ones the even one. -/
def Surroundings.onGrid? (s : Surroundings) (place : Int) : Option Nat :=
  let (a, den) := Double.scaled 1 1 (-s.exponent)
  let (num, d) := inPlaces (s.value * a) den place
  let below := num / d
  let twice := 2 * (num % d)
  match s.covers place below, s.covers place (below + 1) with
  | true, true =>
    some (if twice < d || (twice == d && below % 2 == 0) then below else below + 1)
  | true, false => some below
  | false, true => some (below + 1)
  | false, false => none

/-- The first grid with a point in the surroundings, from one digit to `count` more. -/
def Surroundings.shortestFrom (s : Surroundings) (place : Int) : Nat → Decimal
  | 0 => ⟨(s.onGrid? place).getD 0, place⟩
  | count + 1 =>
    match s.onGrid? place with
    | some n => ⟨n, place⟩
    | none => s.shortestFrom (place - 1) count

/-- The shortest decimal of a finite double without its sign. -/
def Double.shortest (x : Double) : Decimal :=
  if x.magnitude = 0 then ⟨0, 0⟩
  else
    let s := x.surroundings
    let (num, den) := Double.scaled s.value 1 (-s.exponent)
    s.shortestFrom (firstPlace num den) 17

/-- A whole number of at least two digits with its sign. -/
def exponentText (e : Int) : Text :=
  let digits := Text.ofNat e.natAbs
  (if e < 0 then '-' else '+') :: Text.repeated (2 - digits.length) '0' ++ digits

/-- A decimal in positional notation or with an exponent. -/
def Decimal.text (x : Decimal) : Text :=
  let digits := Text.ofNat x.digits
  let kept := Text.dropEndWhile (· == '0') digits
  let kept := if kept.isEmpty then ['0'] else kept
  let point : Int := digits.length + x.exponent
  if -4 < point && point ≤ 16 then
    if point ≤ 0 then "0." ++ Text.repeated (-point).toNat '0' ++ kept
    else
      let whole := point.toNat
      let filled := kept ++ Text.repeated (whole - kept.length) '0'
      let fraction := filled.drop whole
      filled.take whole ++ "." ++ (if fraction.isEmpty then ['0'] else fraction)
  else
    let fraction := kept.drop 1
    kept.take 1 ++ (if fraction.isEmpty then [] else '.' :: fraction) ++
      "e" ++ exponentText (point - 1)

/-- The text of a double; what is no finite number is written with the given words. -/
def Double.text (nan infinity : Text) (x : Double) : Text :=
  if x.isNaN then nan
  else
    let sign : Text := if x.negative then "-" else ""
    sign ++ (if x.isInfinite then infinity else x.shortest.text)

end ComponentCatalog
