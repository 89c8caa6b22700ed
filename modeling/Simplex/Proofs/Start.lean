import Simplex.Proofs.Initial
import Simplex.Proofs.Labels
import Simplex.Proofs.Solving

/-!
# Where a method starts

Both methods start a checked program, in any arithmetic, from a labelled tableau with a column
for every variable, one for every constraint and two more. `Program.start` is that tableau and
`Program.height` the number of its constraint rows. What a solve gives is what becomes of the run
from there.
-/

namespace Simplex

/-- The tableau has a name for every candidate and for the last two columns. -/
theorem Tableau.length_columns {α : Type} (tableau : Tableau α) :
    tableau.columns.length = tableau.candidates + 2 := by
  simp [Tableau.columns, Tableau.names, Tableau.candidates, Nat.add_assoc]

/-- The names of the candidates are those of the first columns. -/
theorem Tableau.take_columns {α : Type} (tableau : Tableau α) :
    tableau.columns.take tableau.candidates = tableau.names := by
  have length : tableau.candidates = tableau.names.length := by
    simp [Tableau.names, Tableau.candidates]
  rw [length, Tableau.columns, List.take_left]

namespace Program

/-- The number of constraint rows that a method works with. -/
def height {α : Type} (program : Program α) : Method → Nat
  | .primal => program.constraints.length
  | .dual => program.objective.length

/-- The number of columns that may enter the basis, in either method. -/
def candidates {α : Type} (program : Program α) : Nat :=
  program.objective.length + program.constraints.length

variable {α : Type} [Scalar α] {program : Program α}

/-- The tableau that a method starts from. -/
def start (program : Program α) : Method → Tableau α
  | .primal => program.primalTableau
  | .dual => program.dualTableau

/-- A program that passes the check has an initial tableau for either method. -/
theorem tableau_eq_ok (checked : program.check = .ok ()) (method : Method) :
    program.tableau method = .ok (program.start method) := by
  cases method <;> simp [Program.tableau, checked, start]

/-- The table of the dual has a row for every variable. -/
theorem Fits.sized_dualTableau (fits : program.Fits) :
    program.dualTableau.table.Sized program.objective.length (program.candidates + 2) where
  count := by simp [dualTableau]
  length := by
    intro row member
    rcases List.mem_append.1 member with constraint | objective
    · obtain ⟨index, inside, rfl⟩ := List.mem_mapIdx.1 constraint
      simp [coefficientColumn, unitRow, candidates]
      omega
    · rw [List.mem_singleton.1 objective]
      simp [candidates, fits.rhs]
      omega

theorem Fits.sized_start (fits : program.Fits) (method : Method) :
    (program.start method).table.Sized (program.height method) (program.candidates + 2) := by
  cases method with
  | primal => exact fits.sized_primalTableau
  | dual => exact fits.sized_dualTableau

theorem Fits.candidates_start (fits : program.Fits) (method : Method) :
    (program.start method).candidates = program.candidates := by
  cases method with
  | primal => exact fits.candidates_primalTableau
  | dual => simp [start, Tableau.candidates, dualTableau, numberedNames, candidates, add_comm]

theorem Fits.labelled_start (fits : program.Fits) (method : Method) :
    (program.start method).Labelled := by
  rw [Tableau.Labelled, (fits.sized_start method).height_eq]
  cases method with
  | primal => simp [start, primalTableau, height, fits.senses]
  | dual => simp [start, dualTableau, numberedNames, height]

variable {options : Options α} {method : Method}

/-- A run that returns is reported with all that it recorded. -/
theorem solve_of_ok (checked : program.check = .ok ()) {final : Tableau α}
    (returned : ((program.start method).run options).outcome = .ok final) :
    program.solve method options = .ok {
      solution := (final.reading method program.goal).cleaned
      steps := ((program.start method).run options).steps
      columns := (program.start method).columns
      method := method } := by
  simp only [solve, tableau_eq_ok checked, Tableau.solve, returned, Except.mapError]

/-- A run that fails gives its failure. -/
theorem solve_of_error (checked : program.check = .ok ()) {error : RunError}
    (failed : ((program.start method).run options).outcome = .error error) :
    program.solve method options = .error (.run error) := by
  simp only [solve, tableau_eq_ok checked, Tableau.solve, failed, Except.mapError]

end Program

end Simplex
