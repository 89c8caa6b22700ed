import Simplex.Proofs.Combination
import Simplex.Proofs.History
import Simplex.Proofs.Reading
import Simplex.Proofs.Start
import Simplex.Proofs.Transposition

/-!
# Row weights

The auxiliary columns of a recorded table hold the weights with which the initial constraint
rows make up its rows. `Program.recorded_combines` says so of every entry that a method records:
of the primal method as long as every constraint is an upper bound, and of the dual method
always. It is what makes the objective entries under the auxiliary columns values of the other
problem's variables.
-/

namespace Simplex.Program

open Finset Table

variable {program : Program Rat} {options : Options Rat} {method : Method}

/-- Every table recorded from that of a program of upper bounds combines its rows. -/
theorem Fits.combinedFrom_recorded (fits : program.Fits)
    (senses : ∀ sense ∈ program.senses, sense = .atMost) {tableau : Tableau Rat}
    (table : tableau.table = program.primalTableau.table) :
    ∀ step ∈ (tableau.run options).steps,
      CombinedFrom program.primalTableau.table program.constraints.length
        program.objective.length step.table := by
  intro step recorded
  obtain ⟨frame, member, shown⟩ : ∃ frame ∈ Run.framesFrom [] (tableau.run options).steps,
      frame.table = step.table := Run.exists_frame_of_mem recorded
  rw [← shown]
  exact fits.combinedFrom_frames senses options table [] frame member

/-- The auxiliary columns come after one column for every variable of the tableau's problem. -/
theorem Fits.length_structural_start (fits : program.Fits) (method : Method) :
    (program.start method).structural.length + program.height method = program.candidates := by
  cases method with
  | primal => simp [start, primalTableau, height, candidates, fits.length_variableNames]
  | dual => simp [start, dualTableau, height, candidates, numberedNames, Nat.add_comm]

/-- Every table that a method records combines the rows that the method starts from. The primal
method needs a program of upper bounds for that. -/
theorem Fits.combinedFrom_start (fits : program.Fits)
    (bounds : method = .primal → ∀ sense ∈ program.senses, sense = .atMost) :
    ∀ step ∈ ((program.start method).run options).steps,
      CombinedFrom (program.start method).table (program.height method)
        (program.start method).structural.length step.table := by
  intro step recorded
  have count := fits.length_structural_start method
  cases method with
  | primal =>
    have combined := fits.combinedFrom_recorded (bounds rfl) rfl step recorded
    rwa [show (program.start .primal).structural.length = program.objective.length by
      simpa [height, candidates] using count]
  | dual =>
    have senses : ∀ sense ∈ program.transposed.senses, sense = .atMost :=
      fun sense member => List.eq_of_mem_replicate member
    have combined := fits.transposed.combinedFrom_recorded senses
      (table_dualTableau_exact program) step recorded
    rw [← table_dualTableau_exact, length_constraints_transposed,
      fits.length_objective_transposed] at combined
    rwa [show (program.start .dual).structural.length = program.constraints.length by
      simp only [height, candidates] at count
      omega]

/-- The auxiliary columns carry the row transformation. In every table that a method records,
a constraint row is the combination of the initial constraint rows with the weights that stand in
its own auxiliary columns, and the objective row is the initial one and such a combination. This
holds of every column, for the primal method on programs of upper bounds and for the dual method
on all programs that pass the check. -/
theorem recorded_combines (program : Program Rat) (options : Options Rat) (method : Method)
    (checked : program.check = .ok ())
    (bounds : method = .primal → ∀ sense ∈ program.senses, sense = .atMost) :
    let start := program.start method
    let height := program.height method
    let auxiliary := fun constraint : Nat => start.structural.length + constraint
    program.tableau method = .ok start ∧
    (∀ constraint < height,
      start.columns[auxiliary constraint]? = some s!"s{constraint + 1}") ∧
    ∀ step ∈ (start.run options).steps,
      step.table.Sized height (program.candidates + 2) ∧
      (∀ row < height, ∀ column, step.table.entry row column =
        ∑ constraint ∈ range height,
          step.table.entry row (auxiliary constraint) * start.table.entry constraint column) ∧
      ∀ column, step.table.entry height column = start.table.entry height column +
        ∑ constraint ∈ range height,
          step.table.entry height (auxiliary constraint) *
            start.table.entry constraint column := by
  intro start height auxiliary
  have fits := (check_eq_ok_iff program).1 checked
  refine ⟨tableau_eq_ok checked method, fun constraint inside => ?_, fun step recorded => ?_⟩
  · apply Tableau.getElem?_columns_auxiliary
    cases method <;> exact getElem?_numberedNames "s" inside
  · have combined := fits.combinedFrom_start bounds step recorded
    refine ⟨Tableau.sized_of_recorded (fits.sized_start method) recorded, ?_, ?_⟩
    · intro row inside column
      rw [combined row inside.le column, if_neg inside.ne, zero_add]
    · intro column
      rw [combined height le_rfl column, if_pos rfl]

/-- Upper bounds of which the second asks for a minimum output, so that the auxiliary basis is
infeasible. -/
def leastOutput : Program Rat where
  objective := [2, 3]
  constraints := [[1, 1], [-1, -2]]
  senses := [.atMost, .atMost]
  rhs := [4, -2]
  goal := .maximize
  names := []

/-- In the last table that the primal method records for `leastOutput`, the value of the objective
is that of the right sides under the weights of the constraints. -/
theorem recorded_combines_leastOutput :
    leastOutput.check = .ok () ∧ (∀ sense ∈ leastOutput.senses, sense = .atMost) ∧
      ∃ step ∈ ((leastOutput.start .primal).run .default).steps, step.pivot.isSome ∧
        step.table.entry 2 2 = 3 ∧ step.table.entry 2 3 = 0 ∧
        step.table.entry 2 5 = 3 * 4 + 0 * (-2) := by
  let steps := ((leastOutput.start .primal).run .default).steps
  have checked : leastOutput.check = .ok () := by decide
  have senses : ∀ sense ∈ leastOutput.senses, sense = .atMost := by decide
  have weights : ∃ step ∈ steps.getLast?, step.pivot.isSome ∧
      step.table.entry 2 2 = 3 ∧ step.table.entry 2 3 = 0 := by
    decide +kernel
  obtain ⟨step, last, pivoted, first, second⟩ := weights
  have recorded : step ∈ steps := List.mem_of_getLast? last
  obtain ⟨-, -, combines⟩ :=
    recorded_combines leastOutput .default .primal checked fun _ => senses
  obtain ⟨-, -, objective⟩ := combines step recorded
  refine ⟨checked, senses, step, recorded, pivoted, first, second, ?_⟩
  have combined : step.table.entry 2 5 = 0 + ∑ constraint ∈ range 2,
      step.table.entry 2 (2 + constraint) *
        (leastOutput.start .primal).table.entry constraint 5 := objective 5
  rw [combined, sum_range_succ, sum_range_one, first, second, zero_add]
  rfl

end Simplex.Program
