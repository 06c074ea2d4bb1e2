import ComponentCatalog.Text.Basic

/-!
# Text as bytes

Text is stored in UTF-8. A byte sequence that is no text is either refused, with the place and the
reason, or every longest beginning of a character that goes wrong is read as one replacement
character.
-/

namespace ComponentCatalog.Utf8

/-- Why bytes are no text. -/
inductive Reason where
  | invalidStart
  | invalidContinuation
  | unexpectedEnd
deriving Repr, DecidableEq

/-- What the front of a byte sequence holds: a character and the number of bytes behind its first
one, or a fault and the same number for the bytes that it covers. -/
inductive Front where
  | char (c : Char) (more : Nat)
  | fault (reason : Reason) (more : Nat)

/-- How many bytes follow a first byte, the bits it carries, and the range of the second byte that
keeps out overlong forms, surrogates and numbers above the last code point. -/
def header? (b : UInt8) : Option (Nat × Nat × UInt8 × UInt8) :=
  if b < 0xc2 then none
  else if b < 0xe0 then some (1, b.toNat - 0xc0, 0x80, 0xbf)
  else if b = 0xe0 then some (2, 0, 0xa0, 0xbf)
  else if b = 0xed then some (2, 0xd, 0x80, 0x9f)
  else if b < 0xf0 then some (2, b.toNat - 0xe0, 0x80, 0xbf)
  else if b = 0xf0 then some (3, 0, 0x90, 0xbf)
  else if b < 0xf4 then some (3, b.toNat - 0xf0, 0x80, 0xbf)
  else if b = 0xf4 then some (3, 4, 0x80, 0x8f)
  else none

/-- The `more` bytes that a character still needs, the next of them between `low` and `high`; `read`
bytes and the bits in `value` are there already. -/
def continuation (read value : Nat) (low high : UInt8) : Nat → List UInt8 → Front
  | 0, _ => .char (Char.ofNat value) read
  | _ + 1, [] => .fault .unexpectedEnd read
  | more + 1, b :: bytes =>
    if low ≤ b && b ≤ high then
      continuation (read + 1) (value * 64 + (b.toNat - 0x80)) 0x80 0xbf more bytes
    else .fault .invalidContinuation read

/-- The front of the byte sequence `b :: bytes`. -/
def front (b : UInt8) (bytes : List UInt8) : Front :=
  if b < 0x80 then .char (Char.ofNat b.toNat) 0
  else match header? b with
    | none => .fault .invalidStart 0
    | some (more, value, low, high) => continuation 0 value low high more bytes

/-- The text of a byte sequence, `skip` bytes of which were read already. -/
def decodeFrom (skip : Nat) : List UInt8 → Text
  | [] => []
  | b :: bytes =>
    match skip with
    | n + 1 => decodeFrom n bytes
    | 0 =>
      match front b bytes with
      | .char c more => c :: decodeFrom more bytes
      | .fault _ more => '\uFFFD' :: decodeFrom more bytes

/-- The text of a byte sequence, with a replacement character for each fault. -/
def decode (bytes : List UInt8) : Text := decodeFrom 0 bytes

/-- Where a byte sequence first fails to be text. -/
structure Fault where
  /-- How many bytes stand before the faulty ones. -/
  position : Nat
  /-- The faulty bytes. -/
  bytes : List UInt8
  reason : Reason
deriving Repr, DecidableEq

/-- The text in front of the first fault, and that fault; `position` bytes stand before, `skip` bytes
were read already. -/
def decodeStrictFrom (position skip : Nat) : List UInt8 → Text × Option Fault
  | [] => ([], none)
  | b :: bytes =>
    match skip with
    | n + 1 => decodeStrictFrom (position + 1) n bytes
    | 0 =>
      match front b bytes with
      | .char c more =>
        let (t, fault?) := decodeStrictFrom (position + 1) more bytes
        (c :: t, fault?)
      | .fault reason more => ([], some ⟨position, (b :: bytes).take (more + 1), reason⟩)

/-- The longest text in front of a byte sequence and the fault that ends it, if there is one. -/
def decodeStrict (bytes : List UInt8) : Text × Option Fault := decodeStrictFrom 0 0 bytes

/-! ## Blocks

Bytes may be decoded block by block. A character that a block cuts is decoded with the next block. -/

/-- Is a fault that bytes end with one that more bytes may mend? A surrogate cut in two counts as
such until the last block was seen. -/
def Fault.isUnfinished (f : Fault) (fromFault : List UInt8) : Bool :=
  f.reason == .unexpectedEnd || match fromFault with
    | [a, b] => a == 0xed && 0xa0 ≤ b && b ≤ 0xbf
    | _ => false

/-- The blocks of `size` bytes in a byte sequence; the last one may be shorter, and none is empty. -/
def blocks (size : Nat) (bytes : List UInt8) : List (List UInt8) :=
  match bytes with
  | [] => []
  | b :: rest => (b :: rest.take (size - 1)) :: blocks size (rest.drop (size - 1))
termination_by bytes.length
decreasing_by simp only [List.length_drop, List.length_cons]; omega

/-- The text of the blocks in front of the first one with a fault, and that fault with its place in
what is decoded together: the block, and the bytes `left` of the one before. -/
def decodeBlocks (left : List UInt8) : List (List UInt8) → Text × Option Fault
  | [] => decodeStrict left
  | block :: rest =>
    let bytes := left ++ block
    match decodeStrict bytes with
    | (t, none) =>
      let (more, fault?) := decodeBlocks [] rest
      (t ++ more, fault?)
    | (t, some f) =>
      let left := bytes.drop f.position
      if f.isUnfinished left then
        let (more, fault?) := decodeBlocks left rest
        (t ++ more, fault?)
      else ([], some f)

/-! ## Encoding -/

/-- The bytes of a character. -/
def encodeChar (c : Char) : List UInt8 :=
  let n := c.toNat
  let tail (shift : Nat) : UInt8 := UInt8.ofNat (0x80 + n / Nat.pow 64 shift % 64)
  if n < 0x80 then [UInt8.ofNat n]
  else if n < 0x800 then [UInt8.ofNat (0xc0 + n / 64), tail 0]
  else if n < 0x10000 then [UInt8.ofNat (0xe0 + n / 4096), tail 1, tail 0]
  else [UInt8.ofNat (0xf0 + n / 262144), tail 2, tail 1, tail 0]

/-- The bytes of a text. -/
def encode (t : Text) : List UInt8 := t.flatMap encodeChar

end ComponentCatalog.Utf8
