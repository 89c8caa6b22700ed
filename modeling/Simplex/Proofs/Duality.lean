import Simplex.Proofs.Combination
import Simplex.Proofs.Covering
import Simplex.Proofs.Reading
import Simplex.Proofs.Solving

/-!
# What the dual method computes

The objective row of the final table of the dual combines the rows of the initial one with
the weights in its auxiliary columns. Those weights therefore form a covering point of the
program, whose objective is the value that is read off, and by weak duality no covering
point has a smaller one.
-/

namespace Simplex.Program

open Finset

variable {program : Program Rat} {options : Options Rat}

/-- The objective entries under the auxiliary columns of a table of the dual. -/
def dualPoint (program : Program Rat) (table : Table Rat) : List Rat :=
  (List.range program.objective.length).map fun index =>
    table.cost (program.constraints.length + index)

theorem getD_dualPoint {table : Table Rat} {index : Nat}
    (inside : index < program.objective.length) :
    (program.dualPoint table).getD index 0 =
      table.cost (program.constraints.length + index) := by
  simp [dualPoint, inside]

/-- The column of a constraint in the initial table of the dual. -/
theorem Fits.entry_transposed (fits : program.Fits) {row : Nat}
    (inside : row < program.constraints.length) :
    program.transposed.primalTableau.table.entry program.objective.length row =
        -program.rhs.getD row 0 ∧
      ∀ column < program.objective.length,
        program.transposed.primalTableau.table.entry column row =
          program.coefficient row column := by
  have candidate : row < program.transposed.objective.length := by
    rwa [fits.length_objective_transposed]
  constructor
  · have objective := fits.transposed.cost_primalTableau_structural.1 row candidate
    rw [length_constraints_transposed] at objective
    exact objective.trans (neg_one_mul _)
  · intro column bound
    have listed := getElem?_relations_transposed program column
    rw [List.getElem?_eq_getElem bound, Option.map_some] at listed
    exact fits.transposed.entry_primalTableau_structural listed candidate

/-- The right-hand column in the initial table of the dual. -/
theorem Fits.rhs_transposed (fits : program.Fits) :
    program.transposed.primalTableau.table.entry program.objective.length
        (program.constraints.length + program.objective.length + 1) = 0 ∧
      ∀ column < program.objective.length,
        program.transposed.primalTableau.table.entry column
          (program.constraints.length + program.objective.length + 1) =
            program.objective.getD column 0 := by
  have objective := fits.transposed.cost_primalTableau_structural.2
  rw [fits.length_objective_transposed, length_constraints_transposed] at objective
  refine ⟨objective, fun column inside => ?_⟩
  have listed := getElem?_relations_transposed program column
  rw [List.getElem?_eq_getElem inside, Option.map_some] at listed
  have bound := (fits.transposed.entry_primalTableau listed).2.2
  rw [fits.length_objective_transposed, length_constraints_transposed] at bound
  rw [bound, List.getD_eq_getElem _ _ inside]

/-- The frame in which the dual method stops: no candidate improves the objective, and the
rows combine those of the initial table. -/
structure DualFinal (program : Program Rat) (frame : Frame Rat) : Prop where
  describes : frame.Describes program.transposed
  reduced : ∀ column < program.constraints.length + program.objective.length,
    0 ≤ frame.table.cost column
  combined : program.transposed.primalTableau.table.CombinedFrom program.objective.length
    program.constraints.length frame.table

/-- Without a tolerance a run of the dual that returns ends in such a frame. -/
theorem Fits.exists_dualFinal (fits : program.Fits) (costs : Nonnegative program.objective)
    (exact : options.tolerance = 0) {final : Tableau Rat}
    (returned : (program.dualTableau.run options).outcome = .ok final) :
    ∃ frame, program.DualFinal frame ∧ final.table = frame.table := by
  have standard := standard_transposed costs
  have initial := table_dualTableau_exact program
  obtain ⟨frame, recorded, describes, table, -, reduced⟩ :=
    standard.describes_final fits.transposed initial fits.candidates_dualTableau returned
  have combined := fits.transposed.combinedFrom_frames standard.senses options initial _
    frame recorded
  rw [fits.length_objective_transposed, length_constraints_transposed] at reduced combined
  rw [exact, neg_zero] at reduced
  exact ⟨frame, ⟨describes, reduced, combined⟩, table⟩

namespace DualFinal

variable {frame : Frame Rat}

theorem height_eq (final : program.DualFinal frame) :
    frame.table.height = program.objective.length := by
  rw [final.describes.canonical.sized.height_eq, length_constraints_transposed]

/-- The objective row in terms of the point that stands in its auxiliary columns. -/
theorem cost_eq (final : program.DualFinal frame) (column : Nat) :
    frame.table.cost column =
      program.transposed.primalTableau.table.entry program.objective.length column +
        ∑ index ∈ range program.objective.length,
          (program.dualPoint frame.table).getD index 0 *
            program.transposed.primalTableau.table.entry index column := by
  rw [Table.cost, final.height_eq, final.combined _ le_rfl, if_pos rfl]
  refine congrArg _ (sum_congr rfl fun index member => ?_)
  rw [getD_dualPoint (mem_range.1 member), Table.cost, final.height_eq]

/-- The objective of that point is the value that the table shows. -/
theorem value_dualPoint (final : program.DualFinal frame) (fits : program.Fits) :
    program.value (program.dualPoint frame.table) =
      frame.table.rhs program.objective.length := by
  have sized := final.describes.canonical.sized
  rw [fits.length_objective_transposed, length_constraints_transposed] at sized
  have rhs : frame.table.rhs program.objective.length =
      frame.table.cost (program.constraints.length + program.objective.length + 1) := by
    rw [Table.rhs, Table.cost, sized.rhsColumn_eq, final.height_eq]
  rw [rhs, final.cost_eq, fits.rhs_transposed.1, zero_add, Program.value,
    dot_eq_sum _ le_rfl]
  apply sum_congr rfl
  intro index member
  rw [fits.rhs_transposed.2 index (mem_range.1 member), mul_comm]

/-- That point is non-negative and reaches every right side. -/
theorem feasible_dualPoint (final : program.DualFinal frame) (fits : program.Fits) :
    program.covering.Feasible (program.dualPoint frame.table) := by
  rw [fits.feasible_covering_iff]
  refine ⟨by simp [dualPoint], ?_, fun row inside => ?_⟩
  · intro entry member
    obtain ⟨index, listed, rfl⟩ := List.mem_map.1 member
    have inside := List.mem_range.1 listed
    exact final.reduced _ (by omega)
  · have nonnegative := final.reduced row (by omega)
    rw [final.cost_eq, (fits.entry_transposed inside).1] at nonnegative
    have sides : ∑ index ∈ range program.objective.length,
          (program.dualPoint frame.table).getD index 0 *
            program.transposed.primalTableau.table.entry index row =
        ∑ column ∈ range program.objective.length,
          program.coefficient row column *
            (program.dualPoint frame.table).getD column 0 := by
      apply sum_congr rfl
      intro column member
      rw [(fits.entry_transposed inside).2 column (mem_range.1 member), mul_comm]
    rw [sides] at nonnegative
    linarith

/-- No covering point has a smaller objective: the basic point of the frame is a weighting
that bounds them all. -/
theorem optimal_dualPoint (final : program.DualFinal frame) (fits : program.Fits)
    (costs : Nonnegative program.objective) :
    program.covering.Optimal (program.dualPoint frame.table) := by
  obtain ⟨weights, -, weighting, shown⟩ :=
    final.describes.exists_point (standard_transposed costs) fits.transposed
  rw [length_constraints_transposed, ← final.value_dualPoint fits] at shown
  have weighted : program.value (program.dualPoint frame.table) =
      program.transposed.value weights := shown
  refine ⟨final.feasible_dualPoint fits, fun other covers => ?_⟩
  exact weighted.trans_le (fits.value_transposed_le weighting covers)

end DualFinal

/-- With non-negative objective coefficients and without a tolerance, the dual method
reports under the names of its auxiliary variables a point that reaches every right side
at the least objective, which it reports as well. For a minimum over lower bounds this is
an optimal point. -/
theorem optimal_of_dual_solve (program : Program Rat) (options : Options Rat)
    (exact : options.tolerance = 0) (costs : Nonnegative program.objective)
    {report : Report Rat} (returned : program.solve .dual options = .ok report) :
    ∃ final, (program.dualTableau.run options).outcome = .ok final ∧
      report.solution = final.dualReading.cleaned ∧
      let point := (List.range program.objective.length).map fun index =>
        final.table.cost (program.constraints.length + index)
      (∀ index < program.objective.length,
        final.dualReading.valueOf? s!"s{index + 1}" = point[index]?) ∧
      program.covering.Optimal point ∧
      program.value point = final.dualReading.optimalValue ∧
      (program.goal = .minimize → (∀ sense ∈ program.senses, sense = .atLeast) →
        program.Optimal point) := by
  obtain ⟨tableau, final, checked, started, outcome, solution⟩ := exists_final_of_solve returned
  have fits := (check_eq_ok_iff program).1 checked
  obtain rfl : program.dualTableau = tableau := by
    simpa [Program.tableau, checked] using started
  obtain ⟨frame, dualFinal, table⟩ := fits.exists_dualFinal costs exact outcome
  obtain ⟨structural, auxiliary⟩ := Tableau.names_of_ok options outcome
  have optimal := dualFinal.optimal_dualPoint fits costs
  rw [← table] at optimal
  have value : program.value (program.dualPoint final.table) = final.objectiveValue := by
    rw [Tableau.objectiveValue, table, dualFinal.height_eq]
    exact dualFinal.value_dualPoint fits
  refine ⟨final, outcome, solution, ?_, optimal, value, ?_⟩
  · intro index inside
    rw [Tableau.valueOf?_dualReading structural auxiliary inside]
    simp [inside]
  · intro goal senses
    rw [fits.covering_eq goal senses] at optimal
    exact optimal

/-- Two foods that have to supply enough of two nutrients at the least cost. -/
def twoFoods : Program Rat where
  objective := [12, 16]
  constraints := [[1, 2], [1, 1]]
  senses := [.atLeast, .atLeast]
  rhs := [40, 30]
  goal := .minimize
  names := []

/-- The dual method finds the cheapest supply of `twoFoods`. -/
theorem optimal_twoFoods :
    (twoFoods.solve .dual ⟨10, 0, .dantzig⟩).isOk ∧ Nonnegative twoFoods.objective ∧
      twoFoods.Optimal [20, 10] := by
  let options : Options Rat := ⟨10, 0, .dantzig⟩
  have solved : (twoFoods.solve .dual options).isOk := by decide +kernel
  have costs : Nonnegative twoFoods.objective := by decide
  have evaluated : ((twoFoods.dualTableau.run options).outcome.toOption.map fun final =>
      (List.range 2).map fun index => final.table.cost (2 + index)) = some [20, 10] := by
    decide +kernel
  refine ⟨solved, costs, ?_⟩
  cases returned : twoFoods.solve .dual options with
  | error => simp [returned, Except.isOk, Except.toBool] at solved
  | ok report =>
    obtain ⟨final, outcome, -, -, -, -, optimal⟩ :=
      optimal_of_dual_solve twoFoods options rfl costs returned
    rw [outcome] at evaluated
    rw [← Option.some.inj evaluated]
    exact optimal rfl (by decide)

end Simplex.Program
