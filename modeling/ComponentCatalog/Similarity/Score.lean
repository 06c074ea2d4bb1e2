import ComponentCatalog.Number.Double
import ComponentCatalog.Similarity.Distance
import ComponentCatalog.Text.LetterCase

/-!
# Similarity of names

Two names are as similar as the part of the longer one that needs no edit, regardless of case.
-/

namespace ComponentCatalog

/-- A similarity as an exact quotient: the characters that need no edit, of all. -/
structure Score where
  kept : Nat
  total : Nat
deriving Repr, DecidableEq

/-- The double nearest to a score. Where there is nothing to edit, all agrees. -/
def Score.toDouble (s : Score) : Double :=
  if s.total = 0 then Double.one else Double.ofRatio false s.kept s.total

/-- The score of two names. -/
def score (a b : Text) : Score :=
  let a := a.lower
  let b := b.lower
  let total := max a.length b.length
  ⟨total - distance a b, total⟩

/-- The similarity of two names, from 0 to 1. -/
def similarity (a b : Text) : Double := (score a b).toDouble

end ComponentCatalog
