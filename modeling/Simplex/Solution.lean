import Simplex.Program
import Simplex.Table.UnitColumn
import Simplex.Tableau.Basic

/-!
# Reading a solution off a tableau

Values are found by writing them under names, in order, where the last write
counts; a name that several columns share therefore shows one value for all of
them. The readings keep every value as computed, and `Solution.cleaned` puts zero
for the ones too small to report.
-/

namespace Simplex

/-- The value of the objective and of every candidate variable, in column order. -/
structure Solution (α : Type) where
  optimalValue : α
  values : List (String × α)
  deriving DecidableEq, Repr

namespace Solution

variable {α : Type}

/-- The value of the first variable of a name. -/
def valueOf? (solution : Solution α) (name : String) : Option α :=
  solution.values.lookup name

variable [Scalar α]

/-- The magnitude under which a value is reported as zero, `10 ^ (-12)`. -/
def negligible : α := Scalar.ofDecimal (.power (-12))

/-- Zero for a value of negligible magnitude, and the value itself otherwise. -/
def cleanValue (value : α) : α :=
  if Scalar.magnitude value < negligible then 0 else value

/-- The solution as it is reported. -/
def cleaned (solution : Solution α) : Solution α where
  optimalValue := cleanValue solution.optimalValue
  values := solution.values.map fun value => (value.1, cleanValue value.2)

end Solution

namespace Tableau

variable {α : Type} [Scalar α]

/-- The last value written under a name, and zero if there is none. -/
def lastWritten (writes : List (String × α)) (name : String) : α :=
  (writes.reverse.lookup name).getD 0

/-- The writes that give every basic column among the first `columns` the
right-hand side of its row. -/
def basicWrites (tableau : Tableau α) (columns : Nat) : List (String × α) :=
  let basic := tableau.table.basicColumns Table.unitTolerance columns
    tableau.structural.length
  basic.map fun position =>
    (tableau.names.getD position.2 "", tableau.table.rhs position.1)

/-- The writes that give every auxiliary variable its objective entry. -/
def costWrites (tableau : Tableau α) : List (String × α) :=
  tableau.auxiliary.mapIdx fun index name =>
    (name, tableau.table.cost (tableau.structural.length + index))

/-- The value of the objective row. -/
def objectiveValue (tableau : Tableau α) : α := tableau.table.rhs tableau.table.height

/-- The solution of the program whose own tableau this is: every basic variable
has the right-hand side of its row, every other one is zero, and the objective
value changes sign for a minimum. -/
def primalReading (tableau : Tableau α) (goal : Goal) : Solution α :=
  let writes := tableau.basicWrites tableau.candidates
  { optimalValue :=
      match goal with
      | .maximize => tableau.objectiveValue
      | .minimize => -tableau.objectiveValue
    values := tableau.names.map fun name => (name, lastWritten writes name) }

/-- The solution read off the tableau of the dual program: a structural variable
is read like a primal one, and an auxiliary variable has its objective entry,
which is the value of a variable of the program. -/
def dualReading (tableau : Tableau α) : Solution α :=
  let writes := tableau.costWrites ++ tableau.basicWrites tableau.structural.length
  { optimalValue := tableau.objectiveValue
    values := tableau.names.map fun name => (name, lastWritten writes name) }

end Tableau

end Simplex
