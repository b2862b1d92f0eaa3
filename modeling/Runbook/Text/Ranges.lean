/-!
# Sorted ranges of character numbers

A set of characters is kept as an array of closed ranges `(first, last)` in rising order without
overlap. `Ranges.contains` looks a number up by halving.
-/

set_option autoImplicit false

namespace Runbook.Text.Ranges

/-- Looks for a range that holds `n` among the ranges at positions `lo ≤ i < hi`. -/
def search (table : Array (Nat × Nat)) (n lo hi : Nat) : Bool :=
  if _h : lo < hi then
    let mid := (lo + hi) / 2
    match table[mid]? with
    | none => false
    | some (first, last) =>
      if n < first then search table n lo mid
      else if last < n then search table n (mid + 1) hi
      else true
  else false
termination_by hi - lo

/-- Whether `n` lies in one of the ranges. -/
def contains (table : Array (Nat × Nat)) (n : Nat) : Bool := search table n 0 table.size

end Runbook.Text.Ranges
