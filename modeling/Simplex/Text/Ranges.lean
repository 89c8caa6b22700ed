/-!
# Sets of characters

A set of characters given by its maximal intervals of code points.
-/

namespace Simplex.Text

/-- Intervals of code points, both ends included. -/
abbrev CharRanges := List (Nat × Nat)

/-- Whether a character lies in one of the intervals. -/
def CharRanges.contains (ranges : CharRanges) (char : Char) : Bool :=
  ranges.any fun range => decide (range.1 ≤ char.toNat ∧ char.toNat ≤ range.2)

end Simplex.Text
