import Simplex.Program
import Simplex.Tableau.Basic

/-!
# Initial tableaux

The two tableaux built from a program: the primal one, with one auxiliary column
per constraint, and the dual one, built from the transposed data. Both start
from the basis of the auxiliary columns, whether or not it is feasible.
-/

namespace Simplex

/-- The row of length `count` that is `value` at `position` and zero elsewhere. -/
def unitRow {α : Type} [Zero α] (count position : Nat) (value : α) : List α :=
  (List.range count).map fun index => if index = position then value else 0

namespace Program

variable {α : Type} [Scalar α]

/-- The coefficient of the auxiliary variable in a constraint. An equation has
none. -/
def auxiliarySign : Sense → α
  | .atMost => 1
  | .atLeast => -1
  | .equal => 0

/-- The factor of the objective in its row: pivoting always minimises that row. -/
def goalSign : Goal → α
  | .maximize => -1
  | .minimize => 1

/-- The row of a constraint: coefficients, auxiliary columns, the objective
column and the right-hand side. -/
def constraintRow (count index : Nat) (coefficients : List α) (sense : Sense) (rhs : α) :
    List α :=
  coefficients ++ unitRow count index (auxiliarySign sense) ++ [0, rhs]

/-- The basic variable of a constraint's row at the start: its auxiliary variable,
or only a name for the row where there is none. -/
def initialLabel (index : Nat) : Sense → String
  | .equal => s!"row{index + 1}"
  | _ => s!"s{index + 1}"

/-- The tableau of the program itself. -/
def primalTableau (program : Program α) : Tableau α :=
  let count := program.constraints.length
  let relations := program.constraints.zip (program.senses.zip program.rhs)
  { table := ⟨(relations.mapIdx fun index relation =>
        constraintRow count index relation.1 relation.2.1 relation.2.2) ++
      [program.objective.map (goalSign program.goal * ·) ++
        List.replicate count 0 ++ [1, 0]]⟩
    structural := program.variableNames
    auxiliary := numberedNames "s" count
    objectiveLabel := "Z"
    basis := program.senses.mapIdx initialLabel }

/-- The column of the constraint matrix at a position. -/
def coefficientColumn (program : Program α) (index : Nat) : List α :=
  program.constraints.map (·.getD index 0)

/-- The tableau of the dual program: a row per variable, with the coefficients
that the constraints give it and its objective coefficient as right-hand side. -/
def dualTableau (program : Program α) : Tableau α :=
  let rowCount := program.objective.length
  { table := ⟨(program.objective.mapIdx fun index coefficient =>
        program.coefficientColumn index ++ unitRow rowCount index 1 ++ [0, coefficient]) ++
      [program.rhs.map (- ·) ++ List.replicate rowCount 0 ++ [1, 0]]⟩
    structural := numberedNames "y" program.constraints.length
    auxiliary := numberedNames "s" rowCount
    objectiveLabel := "p"
    basis := numberedNames "s" rowCount }

/-- The constraints, counted from one, that make the auxiliary basis infeasible or
incomplete: those that are no upper bound or have a negative right-hand side. -/
def infeasibleRows (program : Program α) : List Nat :=
  (program.senses.zip program.rhs).zipIdx.filterMap fun relation =>
    if relation.1.1 ≠ .atMost ∨ relation.1.2 < 0 then some (relation.2 + 1) else none

end Program

end Simplex
