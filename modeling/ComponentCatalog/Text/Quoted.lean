import ComponentCatalog.Text.Visible

/-!
# Quoted texts

A quoted text stands between apostrophes, or between double quotes if it holds an apostrophe and no
double quote. Inside, the quote and the backslash are escaped, and so is every character that is
not shown as it is.
-/

namespace ComponentCatalog

/-- `n` in hexadecimal digits, filled up with zeros to `width`. -/
def Text.hex (width n : Nat) : Text :=
  let digits := Nat.toDigits 16 n
  Text.repeated (width - digits.length) '0' ++ digits

namespace Text

/-- One character inside of a quoted text. -/
def quotedChar (quote c : Char) : Text :=
  if c = quote || c = '\\' then ['\\', c]
  else if c = '\n' then "\\n"
  else if c = '\r' then "\\r"
  else if c = '\t' then "\\t"
  else if isVisible c then [c]
  else if c.toNat < 0x100 then "\\x" ++ hex 2 c.toNat
  else if c.toNat < 0x10000 then "\\u" ++ hex 4 c.toNat
  else "\\U" ++ hex 8 c.toNat

/-- The quote that a text is written in. -/
def quoteFor (t : Text) : Char :=
  if t.contains '\'' && !t.contains '"' then '"' else '\''

/-- A text with its quotes. -/
def quoted (t : Text) : Text :=
  let quote := quoteFor t
  quote :: t.flatMap (quotedChar quote) ++ [quote]

end Text

end ComponentCatalog
