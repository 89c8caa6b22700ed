import Simplex.Selection
import Simplex.Table.Basic

/-!
# Choosing the pivot

Which column enters the basis and which row it replaces. A column may enter when
its objective entry is below minus the tolerance; the leaving row is the first
one with the least ratio of right-hand side to positive column entry.
-/

namespace Simplex

/-- How the entering column is chosen. -/
inductive PivotRule where
  /-- The most negative objective entry, the first one on ties. -/
  | dantzig
  /-- The first negative objective entry. -/
  | bland
  deriving DecidableEq, Repr

namespace Table

variable {α : Type} [Scalar α]

/-- Whether raising a variable with the given objective entry improves the
objective by more than the tolerance. -/
def improving (tolerance cost : α) : Bool := decide (cost < -tolerance)

/-- Whether some candidate column improves the objective. -/
def canImprove (table : Table α) (candidates : Nat) (tolerance : α) : Bool :=
  (table.candidateCosts candidates).any (improving tolerance)

/-- The column that enters the basis, if some candidate improves the objective.
Dantzig's rule looks for the least entry among all candidates, also those that do
not improve, so that an unordered entry is seen. -/
def entering? (table : Table α) (candidates : Nat) (rule : PivotRule) (tolerance : α) :
    Option Nat :=
  let costs := table.candidateCosts candidates
  match rule with
  | .bland => costs.findIdx? (improving tolerance)
  | .dantzig =>
    if costs.any (improving tolerance) then Selection.leastIndex? costs else none

/-- A column enters exactly when some candidate improves the objective. -/
theorem isSome_entering? {table : Table α} {candidates : Nat} {rule : PivotRule}
    {tolerance : α} :
    (table.entering? candidates rule tolerance).isSome =
      table.canImprove candidates tolerance := by
  cases rule with
  | bland => simp [entering?, canImprove]
  | dantzig =>
    simp only [entering?, canImprove]
    split
    case isTrue improvable =>
      rw [improvable, Option.isSome_iff_ne_none]
      obtain ⟨value, member, -⟩ := List.any_eq_true.1 improvable
      exact Selection.leastIndex?_ne_none (List.ne_nil_of_mem member)
    case isFalse optimal => exact (Bool.eq_false_iff.2 optimal).symm

/-- The rows that bound a growing variable, each with the ratio at which it
does: those with a positive entry in the variable's column. -/
def ratios (table : Table α) (column : Nat) : List (Nat × α) :=
  (List.range table.height).filterMap fun row =>
    let entry := table.entry row column
    if 0 < entry then some (row, table.rhs row / entry) else none

/-- The row that leaves the basis: the first with the least ratio. There is none
when no ratio lies below infinity. -/
def leaving? (table : Table α) (column : Nat) : Option Nat :=
  Selection.firstLeast? (table.ratios column)

end Table

end Simplex
