import ComponentCatalog.Text.Basic

/-!
# Edit distance

The least number of insertions, deletions and replacements of single characters between two texts,
calculated row by row: the row of `b` holds the distances of all endings of `a` to `b`.
-/

namespace ComponentCatalog.Distance

/-- The row of the empty text: an ending of length `n` is `n` deletions away. -/
def emptyRow : Text → List Nat
  | [] => [0]
  | _ :: a => (a.length + 1) :: emptyRow a

/-- The row of `c :: b` from the row of `b`. -/
def nextRow (c : Char) : Text → List Nat → List Nat
  | x :: a, here :: below =>
    let row := nextRow c a below
    let both := below.headD 0
    (if x = c then both else 1 + min both (min here (row.headD 0))) :: row
  | _, row => [row.headD 0 + 1]

/-- The distances of all endings of `a` to `b`, the longest ending first. -/
def row (a : Text) : Text → List Nat
  | [] => emptyRow a
  | c :: b => nextRow c a (row a b)

end ComponentCatalog.Distance

namespace ComponentCatalog

/-- The edit distance of two texts. -/
def distance (a b : Text) : Nat := (Distance.row a b).headD 0

end ComponentCatalog
