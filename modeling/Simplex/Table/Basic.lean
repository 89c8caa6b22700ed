import Simplex.Scalar

/-!
# Tables

The rectangular array of a simplex tableau: one row per constraint and the
objective row last. `Table.entry` is the view through which the operations are
described; a position outside the table reads as zero.
-/

namespace Simplex

/-- The rows of a tableau, from the first constraint to the objective. -/
structure Table (α : Type) where
  rows : List (List α)
  deriving DecidableEq, Repr

namespace Table

variable {α : Type}

/-- The number of constraint rows, which is also the position of the objective
row. -/
def height (table : Table α) : Nat := table.rows.length - 1

/-- The number of columns. -/
def width (table : Table α) : Nat := (table.rows.headD []).length

/-- The column of the right-hand sides, the last one. -/
def rhsColumn (table : Table α) : Nat := table.width - 1

/-- Every row is as long as the first. -/
def Rectangular (table : Table α) : Prop :=
  ∀ row ∈ table.rows, row.length = table.width

instance (table : Table α) : Decidable table.Rectangular :=
  inferInstanceAs (Decidable (∀ row ∈ table.rows, row.length = table.width))

/-- The objective row. -/
def objective (table : Table α) : List α := table.rows.getLastD []

/-- The row at a position. -/
def row (table : Table α) (index : Nat) : List α := table.rows.getD index []

variable [Scalar α]

/-- The value at a row and a column. -/
def entry (table : Table α) (row column : Nat) : α := (table.row row).getD column 0

/-- The right-hand side of a row. -/
def rhs (table : Table α) (row : Nat) : α := table.entry row table.rhsColumn

/-- The objective entry of a column. -/
def cost (table : Table α) (column : Nat) : α := table.entry table.height column

/-- The objective entries of the columns that may enter the basis. -/
def candidateCosts (table : Table α) (candidates : Nat) : List α :=
  table.objective.take candidates

/-- The table with one value replaced. -/
def set (table : Table α) (row column : Nat) (value : α) : Table α :=
  ⟨table.rows.modify row (·.set column value)⟩

end Table

end Simplex
