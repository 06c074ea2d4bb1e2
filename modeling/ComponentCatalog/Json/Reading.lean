import ComponentCatalog.Json.Basic
import ComponentCatalog.Number.Numeral

/-!
# Reading JSON

A text is one value with blanks around it, or it is refused with the reason and the place. Beyond
the standard the words `NaN`, `Infinity` and `-Infinity` are numbers. A name that comes twice in an
object keeps its first place and its last value. Whole numbers have a limit of digits, and arrays and
objects a limit of levels.
-/

namespace ComponentCatalog.Json

/-- Why a text is no JSON value. -/
inductive Reason where
  | byteOrderMark
  | value
  | propertyName
  | colon
  | comma
  | extraData
  | controlCharacter
  | unterminatedString
  | escape
  | unitEscape
deriving Repr, DecidableEq

/-- The reason in words. -/
def Reason.message : Reason → Text
  | .byteOrderMark => "Unexpected UTF-8 BOM (decode using utf-8-sig)"
  | .value => "Expecting value"
  | .propertyName => "Expecting property name enclosed in double quotes"
  | .colon => "Expecting ':' delimiter"
  | .comma => "Expecting ',' delimiter"
  | .extraData => "Extra data"
  | .controlCharacter => "Invalid control character at"
  | .unterminatedString => "Unterminated string starting at"
  | .escape => "Invalid \\escape"
  | .unitEscape => "Invalid \\uXXXX escape"

/-- The values that hold others. -/
inductive Container where
  | array
  | object
deriving Repr, DecidableEq

/-- What a text has too much of: digits of a whole number, or values that stand in each other. -/
inductive Excess where
  | digits (n : Nat)
  | levels (innermost : Container)
deriving Repr, DecidableEq

/-- An excess in words. -/
def Excess.message : Excess → Text
  | .digits n => Numeral.tooLongMessage n
  | .levels .array => "maximum recursion depth exceeded while decoding a JSON array from a unicode string"
  | .levels .object => "maximum recursion depth exceeded while decoding a JSON object from a unicode string"

/-- So many arrays and objects may stand in each other. -/
def levelLimit : Nat := 980

/-- A text that was refused: the reason, and what is left of the text at the place of the fault, or
what it has too much of. -/
inductive Fault where
  | malformed (reason : Reason) (left : Text)
  | excess (e : Excess)
deriving Repr, DecidableEq

/-- Blanks between tokens. -/
def isSpace (c : Char) : Bool := c == ' ' || c == '\t' || c == '\n' || c == '\r'

/-- What is left behind the blanks. -/
def skipSpace (t : Text) : Text := t.dropWhile isSpace

/-- The number of four hexadecimal digits at the front. -/
def hex4? (t : Text) : Option (Nat × Text) :=
  let digit? (c : Char) : Option Nat :=
    if c.isDigit then some (c.toNat - 48)
    else if 'a' ≤ c && c ≤ 'f' then some (c.toNat - 87)
    else if 'A' ≤ c && c ≤ 'F' then some (c.toNat - 55)
    else none
  match t with
  | a :: b :: c :: d :: r => do
    let a ← digit? a
    let b ← digit? b
    let c ← digit? c
    let d ← digit? d
    return (a * 4096 + b * 256 + c * 16 + d, r)
  | _ => none

/-- The character of a single letter escape. -/
def letterEscape? : Char → Option Char
  | '"' => some '"'
  | '\\' => some '\\'
  | '/' => some '/'
  | 'b' => some '\x08'
  | 'f' => some '\x0c'
  | 'n' => some '\n'
  | 'r' => some '\r'
  | 't' => some '\t'
  | _ => none

/-- A code unit as a character; half a surrogate pair is none. -/
def unitChar (n : Nat) : Char := if 0xd800 ≤ n && n < 0xe000 then '\uFFFD' else Char.ofNat n

/-- The escape behind `\u`, given what is left from the `u` on. Digits that end the text are no
escape, as the quote is missing. -/
def unitEscape? (fromU : Text) : Except Fault (Char × Text) :=
  match hex4? (fromU.drop 1) with
  | none | some (_, []) => .error (.malformed .unitEscape fromU)
  | some (high, left) =>
    match left with
    | '\\' :: 'u' :: second =>
      if 0xd800 ≤ high && high < 0xdc00 && 4 < second.length then
        match hex4? second with
        | none => .error (.malformed .unitEscape ('u' :: second))
        | some (low, rest) =>
          if 0xdc00 ≤ low && low < 0xe000 then
            .ok (Char.ofNat (0x10000 + (high - 0xd800) * 0x400 + (low - 0xdc00)), rest)
          else .ok (unitChar high, left)
      else .ok (unitChar high, left)
    | _ => .ok (unitChar high, left)

/-- The characters of a string up to its closing quote; `start` is the text from its opening quote
on. The first `skip` characters belong to an escape that was read already. -/
def stringFrom (start : Text) (skip : Nat) : Text → Except Fault (Text × Text)
  | [] => .error (.malformed .unterminatedString start)
  | c :: r =>
    match skip with
    | n + 1 => stringFrom start n r
    | 0 =>
      if c = '"' then .ok ([], r)
      else if c = '\\' then
        match r with
        | [] => .error (.malformed .unterminatedString start)
        | e :: r' =>
          if e = 'u' then do
            let (x, left) ← unitEscape? (e :: r')
            let (t, left) ← stringFrom start (r.length - left.length) r
            return (x :: t, left)
          else match letterEscape? e with
            | none => .error (.malformed .escape (c :: r))
            | some x => do
              let (t, left) ← stringFrom start 1 r
              return (x :: t, left)
      else if c.toNat < 32 then .error (.malformed .controlCharacter (c :: r))
      else do
        let (t, left) ← stringFrom start 0 r
        return (c :: t, left)

/-- The digits of a fraction behind its point, if there are any. -/
def fraction (t : Text) : Text × Text :=
  match t with
  | '.' :: r =>
    if (r.takeWhile Char.isDigit).isEmpty then ([], t)
    else (r.takeWhile Char.isDigit, r.dropWhile Char.isDigit)
  | _ => ([], t)

/-- The digits of an exponent with its sign, if there are any. -/
def exponent? (t : Text) : Option (Bool × Text × Text) :=
  match t with
  | e :: r =>
    let (down, digits) := Numeral.sign r
    if (e = 'e' || e = 'E') && !(digits.takeWhile Char.isDigit).isEmpty then
      some (down, digits.takeWhile Char.isDigit, digits.dropWhile Char.isDigit)
    else none
  | [] => none

/-- A number at the front of a text. -/
def number (t : Text) : Except Fault (Json × Text) :=
  let (negative, body) := match t with
    | '-' :: r => (true, r)
    | r => (false, r)
  let whole := match body with
    | '0' :: _ => ['0']
    | r => r.takeWhile Char.isDigit
  if whole.isEmpty then .error (.malformed .value t)
  else
    let left := body.drop whole.length
    let (places, left) := fraction left
    match exponent? left with
    | some (down, digits, left) =>
      let e : Int := if down then -(Numeral.value digits : Int) else Numeral.value digits
      .ok (real (Double.ofDecimal negative (Numeral.value (whole ++ places)) (e - places.length)), left)
    | none =>
      if !places.isEmpty then
        .ok (real (Double.ofDecimal negative (Numeral.value (whole ++ places)) (-places.length)), left)
      else if Numeral.digitLimit < whole.length then .error (.excess (.digits whole.length))
      else .ok (int (if negative then -(Numeral.value whole : Int) else Numeral.value whole), left)

/-- The words that are values. -/
def words : List (Text × Json) :=
  [("null", null), ("true", bool true), ("false", bool false), ("NaN", real Double.nan),
    ("Infinity", real (Double.infinity false)), ("-Infinity", real (Double.infinity true))]

/-- A value without parts: a word or a number. -/
def scalar (t : Text) : Except Fault (Json × Text) :=
  match words.find? fun word => word.1.isPrefixOf t with
  | some word => .ok (word.2, t.drop word.1.length)
  | none => number t

mutual

/-- The value at the front of a text. `fuel` bounds twice the characters that are left, `levels` the
arrays and objects that may still stand in each other. -/
def value (fuel levels : Nat) (t : Text) : Except Fault (Json × Text) :=
  match fuel, levels, t with
  | _ + 1, _, '"' :: r => do
    let (s, left) ← stringFrom ('"' :: r) 0 r
    return (str s, left)
  | _ + 1, 0, '[' :: _ => .error (.excess (.levels .array))
  | _ + 1, 0, '\x7b' :: _ => .error (.excess (.levels .object))
  | fuel + 1, levels + 1, '[' :: r =>
    match skipSpace r with
    | ']' :: left => .ok (arr [], left)
    | left => do
      let (elements, left) ← elementsFrom fuel levels left
      return (arr elements, left)
  | fuel + 1, levels + 1, '\x7b' :: r =>
    match skipSpace r with
    | '\x7d' :: left => .ok (obj [], left)
    | left => do
      let (fields, left) ← fieldsFrom fuel levels [] left
      return (obj fields, left)
  | _, _, t => scalar t

/-- The elements of an array up to its closing bracket. -/
def elementsFrom (fuel levels : Nat) (t : Text) : Except Fault (List Json × Text) :=
  match fuel with
  | 0 => .error (.malformed .value t)
  | fuel + 1 => do
    let (v, left) ← value fuel levels t
    match skipSpace left with
    | ']' :: left => return ([v], left)
    | ',' :: left =>
      let (vs, left) ← elementsFrom fuel levels (skipSpace left)
      return (v :: vs, left)
    | left => .error (.malformed .comma left)

/-- The fields of an object up to its closing brace, added to those before. -/
def fieldsFrom (fuel levels : Nat) (before : List (Text × Json)) (t : Text) :
    Except Fault (List (Text × Json) × Text) :=
  match fuel, t with
  | fuel + 1, '"' :: r => do
    let (name, left) ← stringFrom ('"' :: r) 0 r
    match skipSpace left with
    | ':' :: left =>
      let (v, left) ← value fuel levels (skipSpace left)
      let fields := setField name v before
      match skipSpace left with
      | '\x7d' :: left => return (fields, left)
      | ',' :: left => fieldsFrom fuel levels fields (skipSpace left)
      | left => .error (.malformed .comma left)
    | left => .error (.malformed .colon left)
  | _, t => .error (.malformed .propertyName t)

end

/-- The value that a text holds. -/
def read (t : Text) : Except Fault Json :=
  if t.head? = some '\uFEFF' then .error (.malformed .byteOrderMark t)
  else do
    let (v, left) ← value (2 * t.length + 1) levelLimit (skipSpace t)
    match skipSpace left with
    | [] => return v
    | left => .error (.malformed .extraData left)

/-- A place in a text: line and column, both from one, and the characters before it. -/
structure Place where
  line : Nat
  column : Nat
  offset : Nat
deriving Repr, DecidableEq

/-- The place in `t` at which `left` is left. -/
def Place.of (t left : Text) : Place :=
  let before := t.take (t.length - left.length)
  ⟨before.count '\n' + 1, (before.reverse.takeWhile (· != '\n')).length + 1, before.length⟩

/-- A fault of the text `t` in words. -/
def Fault.message (t : Text) : Fault → Text
  | .malformed reason left =>
    let place := Place.of t left
    reason.message ++ ": line " ++ Text.ofNat place.line ++ " column " ++ Text.ofNat place.column ++
      " (char " ++ Text.ofNat place.offset ++ ")"
  | .excess e => e.message

end ComponentCatalog.Json
