import ComponentCatalog.Text.CaseTable

/-!
# Letter case

Small, capital and folded forms of a text. Only the small form looks at a letter's neighbours: a
capital sigma that ends a word becomes a final sigma.
-/

namespace ComponentCatalog

/-- The replacement of a character by two tables, one of texts and one of shifts. -/
def replaced (texts : List (Nat × List Nat)) (shifts : List ShiftRun) (c : Char) : Text :=
  match replacement? c.toNat texts with
  | some codes => codes.map Char.ofNat
  | none => [Char.ofNat (shifted c.toNat shifts)]

/-- The small form of one character, outside of any word. -/
def smallForm (c : Char) : Text :=
  if c.toNat < 128 then [c.toLower] else replaced smallTexts smallShifts c

/-- The capital form of one character. -/
def capitalForm (c : Char) : Text :=
  if c.toNat < 128 then [c.toUpper] else replaced capitalTexts capitalShifts c

/-- The folded form of one character, equal for all its case variants. -/
def foldedForm (c : Char) : Text :=
  if c.toNat < 128 then [c.toLower] else replaced foldTexts foldShifts c

/-- Letters that have a case. -/
def isCased (c : Char) : Bool := inRanges c.toNat casedRanges

/-- Marks that do not interrupt a word. -/
def isCaseIgnorable (c : Char) : Bool := inRanges c.toNat caseIgnorableRanges

namespace Text

/-- Does the next character that is not a mark have a case? -/
def continuesWord : Text → Bool
  | [] => false
  | c :: r => if isCaseIgnorable c then continuesWord r else isCased c

/-- The small form of a text that stands behind a cased letter (`inWord`) or not. -/
def lowerAfter (inWord : Bool) : Text → Text
  | [] => []
  | c :: r =>
    if c = 'Σ' then (if inWord && !continuesWord r then 'ς' else 'σ') :: lowerAfter true r
    else smallForm c ++ lowerAfter (if isCaseIgnorable c then inWord else isCased c) r

/-- The small form of a text. -/
def lower (t : Text) : Text := lowerAfter false t

/-- The folded form of a text: texts that differ only in case have the same. -/
def fold (t : Text) : Text := t.flatMap foldedForm

/-- `t` with its first character in capital form. -/
def capitalized : Text → Text
  | [] => []
  | c :: r => capitalForm c ++ r

end Text

end ComponentCatalog
