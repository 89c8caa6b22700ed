import Simplex.Scalar

/-!
# Selection by a running best

Two ways of picking the smallest of a list of values. They agree on ordered
finite values and differ where values are infinite or unordered: one starts from
infinity and may pick nothing, the other starts from the first value and lets an
unordered value win.
-/

namespace Simplex.Selection

variable {α ι : Type} [Scalar α]

/-- One step of a scan: a labelled value replaces the best one so far exactly
when it is strictly smaller. -/
def better (best : Option (ι × α)) (next : ι × α) : Option (ι × α) :=
  if Scalar.Improves next.2 (best.map Prod.snd) then some next else best

/-- The label of the first smallest value of a scan that starts from infinity.
Infinite and unordered values are never picked. -/
def firstLeast? (values : List (ι × α)) : Option ι :=
  (values.foldl better none).map Prod.fst

/-- The smaller of two labelled values, the earlier one on ties. -/
def smaller (best next : ι × α) : ι × α :=
  if next.2 < best.2 then next else best

/-- The position of the first smallest value; an unordered value counts as
smaller than any other, and the first such value wins. -/
def leastIndex? (values : List α) : Option Nat :=
  match values.findIdx? (fun value => decide (Scalar.Unordered value)) with
  | some index => some index
  | none =>
    match values.zipIdx.map Prod.swap with
    | [] => none
    | first :: rest => some (rest.foldl smaller first).1

/-- There is an index unless there are no values. -/
theorem leastIndex?_ne_none {values : List α} (nonempty : values ≠ []) :
    leastIndex? values ≠ none := by
  rw [leastIndex?]
  split
  · simp
  · cases values with
    | nil => exact absurd rfl nonempty
    | cons first rest => simp

end Simplex.Selection
