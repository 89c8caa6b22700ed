import Mathlib
import Simplex.Table.Pivot

/-!
# Sized tables

A sized table has an objective row under `height` constraint rows and rows of one
length. Pivoting keeps the size, and in exact arithmetic `Sized.entry_pivot` gives
every entry of the result without a side condition on the position: outside the
table everything reads as zero.
-/

namespace Simplex.Table

section Shape

variable {α : Type} {table : Table α} {height width : Nat}

/-- The table has `height` constraint rows, one objective row and `width` columns. -/
structure Sized (table : Table α) (height width : Nat) : Prop where
  count : table.rows.length = height + 1
  length : ∀ row ∈ table.rows, row.length = width

theorem row_eq_getElem {index : Nat} (inside : index < table.rows.length) :
    table.row index = table.rows[index] :=
  List.getD_eq_getElem _ _ inside

/-- It is enough to know the lengths of the rows by position. -/
theorem Sized.of_length_row (count : table.rows.length = height + 1)
    (length : ∀ index ≤ height, (table.row index).length = width) :
    table.Sized height width where
  count := count
  length := by
    intro row member
    obtain ⟨index, inside, rfl⟩ := List.getElem_of_mem member
    rw [← row_eq_getElem inside]
    exact length index (by omega)

theorem Sized.length_row (sized : table.Sized height width) {index : Nat}
    (inside : index ≤ height) : (table.row index).length = width := by
  have present : index < table.rows.length := by
    rw [sized.count]
    omega
  rw [row_eq_getElem present]
  exact sized.length _ (List.getElem_mem present)

theorem Sized.height_eq (sized : table.Sized height width) : table.height = height := by
  simp [Table.height, sized.count]

theorem Sized.width_eq (sized : table.Sized height width) : table.width = width := by
  cases rows : table.rows with
  | nil => simpa [rows] using sized.count
  | cons first rest =>
    have first_length := sized.length first (by simp [rows])
    simpa [Table.width, rows] using first_length

theorem Sized.rhsColumn_eq (sized : table.Sized height (width + 1)) :
    table.rhsColumn = width := by
  simp [Table.rhsColumn, sized.width_eq]

variable [Scalar α]

theorem length_normalizedRow (table : Table α) (pivotRow pivotColumn : Nat) :
    (table.normalizedRow pivotRow pivotColumn).length = (table.row pivotRow).length := by
  simp [normalizedRow]

theorem length_eliminate (normalized : List α) (pivotColumn : Nat) (row : List α) :
    (eliminate normalized pivotColumn row).length = min row.length normalized.length := by
  simp [eliminate]

/-- A pivot on a row of the table keeps its size. -/
theorem Sized.pivot (sized : table.Sized height width) {pivotRow : Nat} (pivotColumn : Nat)
    (inside : pivotRow ≤ height) :
    (table.pivot pivotRow pivotColumn).Sized height width := by
  have present : ∀ {index}, index ≤ height → index < table.rows.length := by
    intro index bound
    rw [sized.count]
    omega
  refine .of_length_row (by rw [length_rows_pivot, sized.count]) fun index bound => ?_
  by_cases same : index = pivotRow
  · rw [same, row_pivot_self table pivotColumn (present inside), length_normalizedRow,
      sized.length_row inside]
  · rw [row_pivot_other table pivotColumn (present bound) same, length_eliminate,
      length_normalizedRow, sized.length_row bound, sized.length_row inside, min_self]

end Shape

section Exact

variable {table : Table Rat} {height width : Nat}

theorem Sized.entry_of_height_lt (sized : table.Sized height width) {row : Nat}
    (outside : height < row) (column : Nat) : table.entry row column = 0 := by
  have absent : table.rows.length ≤ row := by
    rw [sized.count]
    omega
  rw [entry, Table.row, List.getD_eq_default _ _ absent]
  rfl

theorem Sized.entry_of_width_le (sized : table.Sized height width) (row : Nat) {column : Nat}
    (outside : width ≤ column) : table.entry row column = 0 := by
  by_cases bound : row ≤ height
  · have past : (table.row row).length ≤ column := by rwa [sized.length_row bound]
    rw [entry, List.getD_eq_default _ _ past]
  · exact sized.entry_of_height_lt (by omega) column

/-- The entries after a pivot: its row is divided by the pivot entry, and from every
other row the multiple that clears the pivot column is taken. -/
theorem Sized.entry_pivot (sized : table.Sized height width) {pivotRow : Nat}
    (pivotColumn : Nat) (inside : pivotRow ≤ height) (row column : Nat) :
    (table.pivot pivotRow pivotColumn).entry row column =
      if row = pivotRow then table.entry pivotRow column / table.entry pivotRow pivotColumn
      else table.entry row column - table.entry row pivotColumn *
        (table.entry pivotRow column / table.entry pivotRow pivotColumn) := by
  have pivoted := sized.pivot pivotColumn inside
  by_cases wide : width ≤ column
  · rw [pivoted.entry_of_width_le row wide, sized.entry_of_width_le row wide,
      sized.entry_of_width_le pivotRow wide]
    simp
  by_cases low : height < row
  · rw [pivoted.entry_of_height_lt low, sized.entry_of_height_lt low,
      sized.entry_of_height_lt low, if_neg (by omega)]
    simp
  have rowInside : row < table.rows.length := by
    rw [sized.count]
    omega
  have pivotInside : column < (table.row pivotRow).length := by
    rw [sized.length_row inside]
    omega
  by_cases same : row = pivotRow
  · rw [if_pos same, same]
    exact entry_pivot_self table pivotColumn (same ▸ rowInside) pivotInside
  · have columnInside : column < (table.row row).length := by
      rw [sized.length_row (by omega)]
      omega
    rw [if_neg same]
    exact entry_pivot_other table pivotColumn rowInside same columnInside pivotInside

/-- A column that is zero in the pivot row is left as it is. -/
theorem Sized.entry_pivot_of_eq_zero (sized : table.Sized height width) {pivotRow : Nat}
    (pivotColumn : Nat) (inside : pivotRow ≤ height) {column : Nat}
    (vanishes : table.entry pivotRow column = 0) (row : Nat) :
    (table.pivot pivotRow pivotColumn).entry row column = table.entry row column := by
  rw [sized.entry_pivot pivotColumn inside, vanishes]
  by_cases same : row = pivotRow
  · simp [same, vanishes]
  · simp [same]

/-- The pivot column becomes the unit vector of the pivot row. -/
theorem Sized.entry_pivot_column (sized : table.Sized height width) {pivotRow pivotColumn : Nat}
    (inside : pivotRow ≤ height) (nonzero : table.entry pivotRow pivotColumn ≠ 0) (row : Nat) :
    (table.pivot pivotRow pivotColumn).entry row pivotColumn =
      if row = pivotRow then 1 else 0 := by
  rw [sized.entry_pivot pivotColumn inside, div_self nonzero]
  simp

end Exact

end Simplex.Table
