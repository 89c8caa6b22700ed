import Simplex.Selection
import Simplex.Table.Basic

/-!
# Recognising basic columns

A column is taken for the basic column of a row by its shape: within a
tolerance it is the unit vector of that row over the constraint rows. When
several columns have the shape, a structural one with a vanishing objective
entry wins outright, and otherwise the one with the least objective entry in
magnitude.
-/

namespace Simplex.Table

variable {α : Type} [Scalar α]

/-- The value is not seen to differ from zero by the tolerance or more. An
unordered value is not seen to differ from anything. -/
def Negligible (tolerance value : α) : Prop := ¬ tolerance ≤ Scalar.magnitude value

instance (tolerance value : α) : Decidable (Negligible tolerance value) :=
  inferInstanceAs (Decidable (¬ tolerance ≤ Scalar.magnitude value))

/-- The column is the unit vector of the row, within the tolerance and over the
constraint rows only. -/
def IsUnitColumn (table : Table α) (tolerance : α) (row column : Nat) : Prop :=
  Negligible tolerance (table.entry row column - 1) ∧
    ∀ other < table.height, other ≠ row → Negligible tolerance (table.entry other column)

instance (table : Table α) (tolerance : α) (row column : Nat) :
    Decidable (table.IsUnitColumn tolerance row column) :=
  inferInstanceAs (Decidable (_ ∧ _))

/-- Scan columns for the one that is taken as basic in a row, from the cheapest unit
column met before. A structural unit column with a vanishing objective entry ends the
scan. -/
def scanUnits? (table : Table α) (tolerance : α) (structural row : Nat) :
    Option (Nat × α) → List Nat → Option Nat
  | cheapest, [] => cheapest.map Prod.fst
  | cheapest, column :: rest =>
    if table.IsUnitColumn tolerance row column then
      let cost := Scalar.magnitude (table.cost column)
      if column < structural ∧ cost < tolerance then some column
      else
        table.scanUnits? tolerance structural row
          (Selection.better cheapest (column, cost)) rest
    else table.scanUnits? tolerance structural row cheapest rest

/-- The column taken as basic in a row, by a scan of the first `columns` ones. -/
def basicColumn? (table : Table α) (tolerance : α) (columns structural row : Nat) :
    Option Nat :=
  table.scanUnits? tolerance structural row none (List.range columns)

/-- The unit columns of a row among the first `columns` ones, in order. -/
def unitColumns (table : Table α) (tolerance : α) (columns row : Nat) : List Nat :=
  (List.range columns).filter fun column =>
    decide (table.IsUnitColumn tolerance row column)

/-- What ends a scan overrides what was cheapest before it. -/
theorem scanUnits?_eq (table : Table α) (tolerance : α) (structural row : Nat)
    (cheapest : Option (Nat × α)) (columns : List Nat) :
    table.scanUnits? tolerance structural row cheapest columns =
      let units := columns.filter fun column =>
        decide (table.IsUnitColumn tolerance row column)
      match units.find? fun column =>
          decide (column < structural ∧ Scalar.magnitude (table.cost column) < tolerance) with
      | some column => some column
      | none =>
        ((units.map fun column => (column, Scalar.magnitude (table.cost column))).foldl
          Selection.better cheapest).map Prod.fst := by
  induction columns generalizing cheapest with
  | nil => rfl
  | cons column rest ih =>
    simp only [scanUnits?, List.filter_cons, decide_eq_true_eq]
    by_cases unit : table.IsUnitColumn tolerance row column
    · rw [if_pos unit, if_pos unit, List.find?_cons]
      by_cases free : column < structural ∧ Scalar.magnitude (table.cost column) < tolerance
      · rw [if_pos free, decide_eq_true free]
      · rw [if_neg free, decide_eq_false free, ih]
        rfl
    · rw [if_neg unit, if_neg unit, ih]

/-- The scan takes the first structural unit column with a vanishing objective entry,
and otherwise the first unit column with the least one. -/
theorem basicColumn?_eq (table : Table α) (tolerance : α) (columns structural row : Nat) :
    table.basicColumn? tolerance columns structural row =
      match (table.unitColumns tolerance columns row).find? fun column =>
          decide (column < structural ∧ Scalar.magnitude (table.cost column) < tolerance) with
      | some column => some column
      | none =>
        Selection.firstLeast? ((table.unitColumns tolerance columns row).map fun column =>
          (column, Scalar.magnitude (table.cost column))) :=
  table.scanUnits?_eq tolerance structural row none (List.range columns)

/-- The constraint rows that have a basic column, each with that column. -/
def basicColumns (table : Table α) (tolerance : α) (columns structural : Nat) :
    List (Nat × Nat) :=
  (List.range table.height).filterMap fun row =>
    (table.basicColumn? tolerance columns structural row).map (row, ·)

/-- The tolerance used where none is given, `10 ^ (-8)`. -/
def unitTolerance : α := Scalar.ofDecimal (.power (-8))

end Simplex.Table
