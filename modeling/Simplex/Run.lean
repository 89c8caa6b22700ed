import Simplex.Table.Choice
import Simplex.Table.Pivot
import Simplex.Tableau.Basic

/-!
# Runs of the simplex method

A run pivots a tableau until no candidate improves the objective. The table
before the first pivot and after every pivot is recorded, and what was recorded
is kept on every way in which a run can end.
-/

namespace Simplex

/-- What governs a run. -/
structure Options (α : Type) where
  /-- The greatest number of pivots; a negative limit allows none. -/
  maxIterations : Int
  /-- How far below zero an objective entry has to lie to count as negative. -/
  tolerance : α
  rule : PivotRule
  deriving DecidableEq, Repr

/-- The options used where none are given. -/
def Options.default {α : Type} [Scalar α] : Options α where
  maxIterations := 10000
  tolerance := Scalar.ofDecimal (.power (-9))
  rule := .dantzig

/-- A description of one pivot: its position, and the names of the variables
that enter and leave the basis. -/
structure PivotInfo where
  row : Int
  column : Int
  entering : String
  leaving : String
  deriving DecidableEq, Repr

/-- A recorded table, with the pivot that led to it. -/
structure Step (α : Type) where
  table : Table α
  pivot : Option PivotInfo
  deriving DecidableEq, Repr

/-- Why a run ended without an optimal tableau. -/
inductive RunError where
  /-- No row bounds the variable of the entering column. -/
  | unbounded (column : Nat)
  /-- The objective can still be improved after the permitted number of pivots. -/
  | iterationLimit (pivots : Nat)
  /-- The list of basic variables has no name for the pivot row. -/
  | unlabelledRow (row : Nat)
  deriving DecidableEq, Repr

/-- What a run recorded and how it ended. -/
structure Run (α : Type) where
  steps : List (Step α)
  outcome : Except RunError (Tableau α)

/-- The run with one more step recorded in front. -/
def Run.prepend {α : Type} (step : Step α) (run : Run α) : Run α :=
  { run with steps := step :: run.steps }

namespace Tableau

variable {α : Type} [Scalar α]

/-- Whether some candidate improves the objective. -/
def canImprove (tableau : Tableau α) (tolerance : α) : Bool :=
  tableau.table.canImprove tableau.candidates tolerance

/-- The column that enters the basis next. -/
def entering? (tableau : Tableau α) (rule : PivotRule) (tolerance : α) : Option Nat :=
  tableau.table.entering? tableau.candidates rule tolerance

theorem isSome_entering? {tableau : Tableau α} {rule : PivotRule} {tolerance : α} :
    (tableau.entering? rule tolerance).isSome = tableau.canImprove tolerance :=
  Table.isSome_entering?

/-- The column that enters the basis of a tableau whose objective can be improved. -/
def entering (tableau : Tableau α) (rule : PivotRule) (tolerance : α)
    (improvable : tableau.canImprove tolerance = true) : Nat :=
  (tableau.entering? rule tolerance).get (isSome_entering?.trans improvable)

theorem entering?_eq_some {tableau : Tableau α} {rule : PivotRule} {tolerance : α}
    (improvable : tableau.canImprove tolerance = true) :
    tableau.entering? rule tolerance = some (tableau.entering rule tolerance improvable) :=
  (Option.some_get _).symm

theorem entering?_eq_none {tableau : Tableau α} {rule : PivotRule} {tolerance : α}
    (optimal : ¬ tableau.canImprove tolerance = true) :
    tableau.entering? rule tolerance = none := by
  rwa [← Option.not_isSome_iff_eq_none, isSome_entering?]

/-- The description of the pivot at a position, if both its column and its row are
labelled. -/
def pivotInfo? (tableau : Tableau α) (row column : Nat) : Option PivotInfo :=
  match tableau.columns[column]?, tableau.basis[row]? with
  | some entering, some leaving => some ⟨row, column, entering, leaving⟩
  | _, _ => none

/-- The tableau after a pivot, with the entering variable basic in the pivot row. -/
def exchange (tableau : Tableau α) (row column : Nat) (entering : String) : Tableau α :=
  { tableau with
    table := tableau.table.pivot row column
    basis := tableau.basis.set row entering }

/-- Pivot while the objective can be improved, at most `remaining` times, recording the
table after each pivot. -/
def pivots (options : Options α) (remaining : Nat) (tableau : Tableau α) : Run α :=
  if improvable : tableau.canImprove options.tolerance then
    match remaining with
    | 0 => ⟨[], .error (.iterationLimit options.maxIterations.toNat)⟩
    | remaining + 1 =>
      let column := tableau.entering options.rule options.tolerance improvable
      match tableau.table.leaving? column with
      | none => ⟨[], .error (.unbounded column)⟩
      | some row =>
        match tableau.pivotInfo? row column with
        | none => ⟨[], .error (.unlabelledRow row)⟩
        | some info =>
          let next := tableau.exchange row column info.entering
          (pivots options remaining next).prepend ⟨next.table, some info⟩
  else ⟨[], .ok tableau⟩

/-- There is a column to enter exactly when the objective can be improved, so looking for
that column decides whether a further pivot is made. -/
theorem pivots_eq (options : Options α) (remaining : Nat) (tableau : Tableau α) :
    tableau.pivots options remaining =
      match tableau.entering? options.rule options.tolerance with
      | none => ⟨[], .ok tableau⟩
      | some column =>
        match remaining with
        | 0 => ⟨[], .error (.iterationLimit options.maxIterations.toNat)⟩
        | remaining + 1 =>
          match tableau.table.leaving? column with
          | none => ⟨[], .error (.unbounded column)⟩
          | some row =>
            match tableau.pivotInfo? row column with
            | none => ⟨[], .error (.unlabelledRow row)⟩
            | some info =>
              let next := tableau.exchange row column info.entering
              (next.pivots options remaining).prepend ⟨next.table, some info⟩ := by
  rw [pivots.eq_def]
  by_cases improvable : tableau.canImprove options.tolerance = true
  · rw [dif_pos improvable, entering?_eq_some improvable]
  · rw [dif_neg improvable, entering?_eq_none improvable]

/-- Record the tableau and pivot it until it is optimal or the options forbid it. -/
def run (options : Options α) (tableau : Tableau α) : Run α :=
  (tableau.pivots options options.maxIterations.toNat).prepend ⟨tableau.table, none⟩

end Tableau

end Simplex
