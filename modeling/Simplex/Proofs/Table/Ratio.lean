import Simplex.Proofs.Table.Choice

/-!
# The minimum ratio

What a chosen pivot does to the right-hand sides in exact arithmetic. The pivot row takes over
the least ratio, so no constraint row falls below zero, and the objective row rises by the
ratio times the entering column's objective entry: not at all when the pivot row is at zero.
-/

namespace Simplex.Table

/-- No constraint row has a negative right-hand side. -/
def RhsNonnegative (table : Table Rat) : Prop := ∀ row < table.height, 0 ≤ table.rhs row

variable {table : Table Rat} {height width row column : Nat}

/-- The right-hand sides after a pivot. -/
theorem Sized.rhs_pivot (sized : table.Sized height width) (inside : row ≤ height)
    (other : Nat) :
    (table.pivot row column).rhs other =
      if other = row then table.rhs row / table.entry row column
      else table.rhs other - table.entry other column *
        (table.rhs row / table.entry row column) := by
  have pivoted := sized.pivot column inside
  simp only [rhs, rhsColumn, pivoted.width_eq, sized.width_eq]
  exact sized.entry_pivot column inside other (width - 1)

/-- The ratio of the leaving row is not negative. -/
theorem RhsNonnegative.ratio_nonneg (feasible : table.RhsNonnegative)
    (leaving : table.leaving? column = some row) :
    0 ≤ table.rhs row / table.entry row column := by
  obtain ⟨inside, positive⟩ := pos_of_leaving? leaving
  exact div_nonneg (feasible row inside) positive.le

/-- The minimum ratio keeps the right-hand sides non-negative. -/
theorem RhsNonnegative.pivot (feasible : table.RhsNonnegative)
    (sized : table.Sized height width) (leaving : table.leaving? column = some row) :
    (table.pivot row column).RhsNonnegative := by
  obtain ⟨inside, -, least⟩ := ratio_le_of_leaving? leaving
  have bound : row ≤ height := sized.height_eq ▸ inside.le
  have ratio := feasible.ratio_nonneg leaving
  intro other otherInside
  rw [height_pivot] at otherInside
  rw [sized.rhs_pivot bound]
  split_ifs with same
  · exact ratio
  · have old := feasible other otherInside
    rcases le_or_gt (table.entry other column) 0 with lowered | raised
    · have shift := mul_nonneg (neg_nonneg.2 lowered) ratio
      linarith
    · have limit := least other otherInside raised
      rw [le_div_iff₀ raised] at limit
      linarith

/-- The objective row's right-hand side changes by the ratio of the pivot row times the
objective entry of the entering column. -/
theorem Sized.rhs_pivot_objective (sized : table.Sized height width)
    (inside : row < table.height) :
    (table.pivot row column).rhs table.height =
      table.rhs table.height - table.cost column * (table.rhs row / table.entry row column) := by
  rw [sized.rhs_pivot (sized.height_eq ▸ inside.le), if_neg inside.ne']
  rfl

/-- The objective row's right-hand side never falls, and rises exactly when that of the pivot
row is positive. -/
theorem RhsNonnegative.rises (feasible : table.RhsNonnegative)
    (sized : table.Sized height width) (leaving : table.leaving? column = some row)
    (improving : table.cost column < 0) :
    table.rhs table.height ≤ (table.pivot row column).rhs table.height ∧
      (table.rhs table.height < (table.pivot row column).rhs table.height ↔
        0 < table.rhs row) := by
  obtain ⟨inside, positive⟩ := pos_of_leaving? leaving
  have ratio := feasible.ratio_nonneg leaving
  rw [sized.rhs_pivot_objective inside]
  constructor
  · have gain := mul_nonneg (neg_nonneg.2 improving.le) ratio
    linarith
  · calc table.rhs table.height <
          table.rhs table.height - table.cost column * (table.rhs row / table.entry row column)
        ↔ 0 < -table.cost column * (table.rhs row / table.entry row column) := by
          rw [neg_mul]
          constructor <;> intro <;> linarith
      _ ↔ 0 < table.rhs row / table.entry row column :=
          mul_pos_iff_of_pos_left (neg_pos.2 improving)
      _ ↔ 0 < table.rhs row := div_pos_iff_of_pos_right positive

end Simplex.Table
