import Simplex.Table.Basic

/-!
# Tableaux

A table together with the names of its columns and of the variables that are
basic in its rows. The columns are, in order, the structural and the auxiliary
candidates, the column of the objective variable and the right-hand sides.
-/

namespace Simplex

/-- A labelled simplex table. -/
structure Tableau (α : Type) where
  table : Table α
  structural : List String
  auxiliary : List String
  objectiveLabel : String
  /-- The name of the basic variable of each row. -/
  basis : List String
  deriving DecidableEq, Repr

namespace Tableau

variable {α : Type}

/-- The names of the columns that may enter the basis. -/
def names (tableau : Tableau α) : List String := tableau.structural ++ tableau.auxiliary

/-- The number of columns that may enter the basis. -/
def candidates (tableau : Tableau α) : Nat :=
  tableau.structural.length + tableau.auxiliary.length

/-- The names of all columns. -/
def columns (tableau : Tableau α) : List String :=
  tableau.names ++ [tableau.objectiveLabel, "RHS"]

/-- The name of a column. A negative position counts back from the end. -/
def columnName? (tableau : Tableau α) (position : Int) : Option String :=
  let index := if position < 0 then position + tableau.columns.length else position
  if index < 0 then none else tableau.columns[index.toNat]?

end Tableau

end Simplex
