import Simplex.Table.Basic

/-!
# Pivoting

The Gauss-Jordan step that the simplex method repeats. Every row of the result
is a function of the old row and the normalised pivot row alone; `entry_pivot_self`
and `entry_pivot_other` say the same of single entries.
-/

namespace Simplex.Table

variable {α : Type} [Scalar α]

/-- The pivot row divided by its pivot entry. -/
def normalizedRow (table : Table α) (pivotRow pivotColumn : Nat) : List α :=
  let pivotEntry := table.entry pivotRow pivotColumn
  (table.row pivotRow).map (· / pivotEntry)

/-- A row less its own entry in the pivot column times the normalised pivot row. -/
def eliminate (normalized : List α) (pivotColumn : Nat) (row : List α) : List α :=
  let factor := row.getD pivotColumn 0
  List.zipWith (fun value pivotValue => value - factor * pivotValue) row normalized

/-- The Gauss-Jordan step on an entry: its row is normalised and its column is
cleared from every other row, the objective row included. -/
def pivot (table : Table α) (pivotRow pivotColumn : Nat) : Table α :=
  let normalized := table.normalizedRow pivotRow pivotColumn
  ⟨table.rows.mapIdx fun index row =>
    if index = pivotRow then normalized else eliminate normalized pivotColumn row⟩

/-- Pivoting keeps the number of rows. -/
@[simp] theorem length_rows_pivot (table : Table α) (pivotRow pivotColumn : Nat) :
    (table.pivot pivotRow pivotColumn).rows.length = table.rows.length := by
  simp [pivot]

/-- Pivoting keeps the position of the objective row. -/
@[simp] theorem height_pivot (table : Table α) (pivotRow pivotColumn : Nat) :
    (table.pivot pivotRow pivotColumn).height = table.height := by
  simp [height]

/-- The pivot row of the result is the normalised one. -/
theorem row_pivot_self (table : Table α) {pivotRow : Nat} (pivotColumn : Nat)
    (inside : pivotRow < table.rows.length) :
    (table.pivot pivotRow pivotColumn).row pivotRow =
      table.normalizedRow pivotRow pivotColumn := by
  simp [row, pivot, inside]

/-- Every other row of the result has its entry in the pivot column eliminated. -/
theorem row_pivot_other (table : Table α) {index pivotRow : Nat} (pivotColumn : Nat)
    (inside : index < table.rows.length) (other : index ≠ pivotRow) :
    (table.pivot pivotRow pivotColumn).row index =
      eliminate (table.normalizedRow pivotRow pivotColumn) pivotColumn (table.row index) := by
  simp [row, pivot, inside, other]

/-- An entry of the normalised pivot row. -/
theorem getD_normalizedRow (table : Table α) (pivotRow pivotColumn : Nat) {column : Nat}
    (inside : column < (table.row pivotRow).length) :
    (table.normalizedRow pivotRow pivotColumn).getD column 0 =
      table.entry pivotRow column / table.entry pivotRow pivotColumn := by
  simp [normalizedRow, entry, inside]

/-- An entry of the pivot row is divided by the pivot entry. -/
theorem entry_pivot_self (table : Table α) {pivotRow column : Nat} (pivotColumn : Nat)
    (rowInside : pivotRow < table.rows.length)
    (columnInside : column < (table.row pivotRow).length) :
    (table.pivot pivotRow pivotColumn).entry pivotRow column =
      table.entry pivotRow column / table.entry pivotRow pivotColumn := by
  rw [entry, row_pivot_self table pivotColumn rowInside]
  exact getD_normalizedRow table pivotRow pivotColumn columnInside

/-- From an entry of any other row, a multiple of the normalised pivot row's entry is
taken. -/
theorem entry_pivot_other (table : Table α) {index pivotRow column : Nat} (pivotColumn : Nat)
    (rowInside : index < table.rows.length) (other : index ≠ pivotRow)
    (columnInside : column < (table.row index).length)
    (pivotInside : column < (table.row pivotRow).length) :
    (table.pivot pivotRow pivotColumn).entry index column =
      table.entry index column - table.entry index pivotColumn *
        (table.entry pivotRow column / table.entry pivotRow pivotColumn) := by
  have normalized := getD_normalizedRow table pivotRow pivotColumn pivotInside
  have long : column < (table.normalizedRow pivotRow pivotColumn).length := by
    simpa [normalizedRow] using pivotInside
  rw [entry, row_pivot_other table pivotColumn rowInside other, ← normalized]
  simp only [eliminate, entry, List.getD_eq_getElem?_getD, List.getElem?_zipWith,
    List.getElem?_eq_getElem columnInside, List.getElem?_eq_getElem long, Option.getD_some]

end Simplex.Table
