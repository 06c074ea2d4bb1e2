import ComponentCatalog.Text.Basic

/-!
# Classes of characters as ranges of code points
-/

namespace ComponentCatalog

/-- Is `n` in one of the closed ranges? The ranges stand in ascending order, so the search stops at
the first one that begins above `n`. -/
def inRanges (n : Nat) : List (Nat × Nat) → Bool
  | [] => false
  | (first, last) :: rest => if n < first then false else n ≤ last || inRanges n rest

/-- A run of code points, `step` apart, that all move by the same distance. -/
structure ShiftRun where
  first : Nat
  last : Nat
  step : Nat
  shift : Int

/-- Where the runs, in ascending order, move the code point `n`; elsewhere it stays. -/
def shifted (n : Nat) : List ShiftRun → Nat
  | [] => n
  | run :: rest =>
    if n < run.first then n
    else if n ≤ run.last && (n - run.first) % run.step == 0 then (n + run.shift).toNat
    else shifted n rest

/-- The entry for `n` in a table of code points and their replacement texts. -/
def replacement? (n : Nat) (table : List (Nat × List Nat)) : Option (List Nat) :=
  (table.find? fun entry => entry.1 == n).map (·.2)

end ComponentCatalog
