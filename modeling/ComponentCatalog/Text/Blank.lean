import ComponentCatalog.Text.CharRange

/-!
# Blank characters
-/

namespace ComponentCatalog

/-- The blank characters, separators of lines and of records included. -/
def blankRanges : List (Nat × Nat) :=
  [(0x9, 0xd), (0x1c, 0x20), (0x85, 0x85), (0xa0, 0xa0), (0x1680, 0x1680), (0x2000, 0x200a),
    (0x2028, 0x2029), (0x202f, 0x202f), (0x205f, 0x205f), (0x3000, 0x3000)]

/-- Blank characters are skipped between tokens and trimmed from both ends of a text. -/
def isBlank (c : Char) : Bool := inRanges c.toNat blankRanges

/-- `t` without the blank characters at both ends. -/
def Text.trim (t : Text) : Text := Text.dropEndsWhile isBlank t

/-- `t` without the blank characters at its end. -/
def Text.trimRight (t : Text) : Text := Text.dropEndWhile isBlank t

end ComponentCatalog
