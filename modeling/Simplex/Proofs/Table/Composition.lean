import Simplex.Proofs.Table.Pivoted

/-!
# How pivots compose

Of two pivots on one row only the second one counts (`Sized.pivot_pivot_row`), and a pivot on a
column that is the unit vector of its row changes nothing (`Sized.pivot_eq_self`). Repeating a
pivot and undoing it by the unit column that the row had before are cases of these two. Pivots on
different rows can be exchanged wherever all of their entries allow it (`Sized.pivot_comm`).
-/

namespace Simplex.Table

variable {table : Table Rat} {height width row column source other otherColumn : Nat}

/-- A rectangular table with a row is sized by its height and its width. -/
theorem Rectangular.sized (rectangular : table.Rectangular) (nonempty : 0 < table.rows.length) :
    table.Sized table.height table.width where
  count := (Nat.sub_add_cancel nonempty).symm
  length := rectangular

/-- The pivot column is the unit vector of the pivot row over all rows. -/
theorem Sized.hasUnit_pivot (sized : table.Sized height width) (inside : row ≤ height)
    (nonzero : table.entry row column ≠ 0) : (table.pivot row column).HasUnit row column :=
  fun index _ => sized.entry_pivot_column inside nonzero index

/-- A pivot on a unit column of its row changes nothing. -/
theorem Sized.pivot_eq_self (sized : table.Sized height width) (inside : row ≤ height)
    (unit : table.HasUnit row source) : table.pivot row source = table := by
  refine (sized.pivot source inside).ext sized fun index bound place _ => ?_
  have own := unit row (inside.trans_eq sized.height_eq.symm)
  have entry := unit index (bound.trans_eq sized.height_eq.symm)
  rw [if_pos rfl] at own
  rw [sized.entry_pivot source inside, own, entry, div_one]
  split_ifs with same
  · rw [same]
  · rw [zero_mul, sub_zero]

/-- Of two pivots on one row the second one undoes the first. -/
theorem Sized.pivot_pivot_row (sized : table.Sized height width) (inside : row ≤ height)
    (nonzero : table.entry row column ≠ 0) (sourceNonzero : table.entry row source ≠ 0) :
    (table.pivot row column).pivot row source = table.pivot row source := by
  have pivoted := sized.pivot column inside
  refine (pivoted.pivot source inside).ext (sized.pivot source inside) fun index _ place _ => ?_
  rw [pivoted.entry_pivot source inside, sized.entry_pivot source inside]
  simp only [sized.entry_pivot column inside, if_true]
  split_ifs with same
  · exact div_div_div_cancel_right₀ nonzero _ _
  · field_simp
    ring

/-- Pivots on different rows can be exchanged. Of the four entries that are pivoted on, two belong
to the table itself and two to a table after one of the pivots; where three of them are non-zero,
the fourth is so too. -/
theorem Sized.pivot_comm (sized : table.Sized height width) (inside : row ≤ height)
    (otherInside : other ≤ height) (different : other ≠ row)
    (nonzero : table.entry row column ≠ 0) (otherNonzero : table.entry other otherColumn ≠ 0)
    (afterNonzero : (table.pivot row column).entry other otherColumn ≠ 0) :
    (table.pivot row column).pivot other otherColumn =
      (table.pivot other otherColumn).pivot row column := by
  have first := sized.pivot column inside
  have second := sized.pivot otherColumn otherInside
  refine (first.pivot otherColumn otherInside).ext (second.pivot column inside)
    fun index _ place _ => ?_
  rw [sized.entry_pivot column inside, if_neg different] at afterNonzero
  rw [first.entry_pivot otherColumn otherInside, second.entry_pivot column inside]
  simp only [sized.entry_pivot column inside, sized.entry_pivot otherColumn otherInside,
    if_neg different, if_neg different.symm]
  -- After either pivot the other one divides by the determinant of the four entries.
  obtain ⟨determinant, equal⟩ : ∃ determinant, determinant =
      table.entry row column * table.entry other otherColumn -
        table.entry row otherColumn * table.entry other column := ⟨_, rfl⟩
  have after : table.entry other otherColumn -
      table.entry other column * (table.entry row otherColumn / table.entry row column) =
        determinant / table.entry row column := by
    rw [equal]
    field_simp
  have before : table.entry row column -
      table.entry row otherColumn * (table.entry other column / table.entry other otherColumn) =
        determinant / table.entry other otherColumn := by
    rw [equal]
    field_simp
  rw [after] at afterNonzero ⊢
  rw [before]
  have regular : determinant ≠ 0 := (div_ne_zero_iff.1 afterNonzero).1
  split_ifs with isOther isRow
  · exact absurd (isOther.symm.trans isRow) different
  all_goals
    field_simp
    rw [equal]
    ring

/-- Take a rectangular table and a pivot on a non-zero entry of any of its rows, also that of the
objective. The pivot column becomes the unit vector of the row, and a column that is zero in the
row stays. Making the pivot again changes nothing; pivoting on a column that was the unit vector of
the row leads back to the table; and a pivot on another row may as well come first, if the entries
that are pivoted on are non-zero. -/
theorem pivot_laws (table : Table Rat) (rectangular : table.Rectangular) (row column : Nat)
    (inside : row < table.rows.length) (nonzero : table.entry row column ≠ 0) :
    (∀ index < table.rows.length,
      (table.pivot row column).entry index column = if index = row then 1 else 0) ∧
    (∀ source, table.entry row source = 0 → ∀ index,
      (table.pivot row column).entry index source = table.entry index source) ∧
    (table.pivot row column).pivot row column = table.pivot row column ∧
    (∀ source, (∀ index < table.rows.length,
        table.entry index source = if index = row then 1 else 0) →
      (table.pivot row column).pivot row source = table) ∧
    ∀ other < table.rows.length, ∀ otherColumn, other ≠ row →
      table.entry other otherColumn ≠ 0 → (table.pivot row column).entry other otherColumn ≠ 0 →
        (table.pivot row column).pivot other otherColumn =
          (table.pivot other otherColumn).pivot row column := by
  have sized := rectangular.sized (Nat.zero_lt_of_lt inside)
  have listed {index : Nat} : index < table.rows.length ↔ index ≤ table.height := by
    rw [sized.count, Nat.lt_succ_iff]
  rw [listed] at inside
  simp only [listed]
  refine ⟨fun index _ => sized.entry_pivot_column inside nonzero index,
    fun source vanishes => sized.entry_pivot_of_eq_zero column inside vanishes,
    (sized.pivot column inside).pivot_eq_self inside (sized.hasUnit_pivot inside nonzero),
    fun source unit => ?_, fun other bound otherColumn different entry after =>
      sized.pivot_comm inside bound different nonzero entry after⟩
  have own : table.entry row source ≠ 0 := by
    rw [unit row inside, if_pos rfl]
    exact one_ne_zero
  rw [sized.pivot_pivot_row inside nonzero own]
  exact sized.pivot_eq_self inside unit

/-- Two limits on two products, with a column for each slack. -/
def twoLimits : Table Rat :=
  ⟨[[2, 1, 1, 0, 0, 8], [1, 3, 0, 1, 0, 9], [-3, -2, 0, 0, 1, 0]]⟩

/-- In `twoLimits` a pivot on the first product is undone by one on the slack of the first row, and
can be exchanged with the pivot on the second product. A pivot on the objective row can be made
twice. -/
theorem pivot_laws_twoLimits :
    (twoLimits.pivot 0 0).pivot 0 2 = twoLimits ∧
      (twoLimits.pivot 0 0).pivot 1 1 = (twoLimits.pivot 1 1).pivot 0 0 ∧
      (twoLimits.pivot 2 1).pivot 2 1 = twoLimits.pivot 2 1 := by
  have rectangular : twoLimits.Rectangular := by decide
  obtain ⟨-, -, -, undo, exchange⟩ :=
    pivot_laws twoLimits rectangular 0 0 (by decide) (by decide +kernel)
  obtain ⟨-, -, again, -⟩ :=
    pivot_laws twoLimits rectangular 2 1 (by decide) (by decide +kernel)
  exact ⟨undo 2 (by decide +kernel),
    exchange 1 (by decide) 1 (by decide) (by decide +kernel) (by decide +kernel), again⟩

end Simplex.Table
