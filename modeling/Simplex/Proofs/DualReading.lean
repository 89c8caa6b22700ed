import Simplex.Proofs.Assignment
import Simplex.Proofs.Duality

/-!
# The weights that the dual method reports

The dual reading scans the columns of the constraints only. In a separated table the scanned
weights are feasible for the transposed program, and their value is the reported one less
the costs of the columns that are taken. A column with a cost is taken only for a row whose
basic column is auxiliary, and then its constraint is the bound of one variable by a negative
number; without such constraints the reported value is attained.
-/

namespace Simplex.Program

open Finset

variable {program : Program Rat} {frame : Frame Rat} {row : Nat}

/-- The column that the scan of the constraints' columns takes for a row. -/
def takenWeight (program : Program Rat) (frame : Frame Rat) (row : Nat) : Nat :=
  frame.taken program.constraints.length program.constraints.length row

/-- The weights that the scan of the constraints' columns assigns. -/
def scannedWeights (program : Program Rat) (frame : Frame Rat) : List Rat :=
  (List.range program.constraints.length).map (frame.table.assigned (program.takenWeight frame))

theorem getD_scannedWeights (inside : row < program.constraints.length) :
    (program.scannedWeights frame).getD row 0 =
      frame.table.assigned (program.takenWeight frame) row := by
  simp [scannedWeights, inside]

namespace DualFinal

theorem canonical (final : program.DualFinal frame) (fits : program.Fits) :
    frame.Canonical program.objective.length
      (program.constraints.length + program.objective.length) := by
  have canonical := final.describes.canonical
  rwa [length_constraints_transposed, fits.length_objective_transposed] at canonical

theorem takenWeight_lt (final : program.DualFinal frame) (fits : program.Fits) :
    ∀ row < program.objective.length, program.takenWeight frame row <
      program.constraints.length + program.objective.length :=
  fun _ inside => (final.canonical fits).taken_lt (Nat.le_add_right _ _) inside

/-- In a separated table the column taken for a row is its unit vector. -/
theorem entry_takenWeight (final : program.DualFinal frame) (fits : program.Fits)
    (separated : frame.table.Separated program.constraints.length) :
    ∀ row < program.objective.length, ∀ other < program.objective.length,
      frame.table.entry other (program.takenWeight frame row) = if other = row then 1 else 0 :=
  fun _ inside _ bound => (final.canonical fits).entry_taken separated inside bound

/-- The rows hold exactly at the scanned weights, so that those are feasible for the
transposed program and worth what the objective row shows without the costs of the columns
that are taken. -/
theorem feasible_scannedWeights (final : program.DualFinal frame) (fits : program.Fits)
    (costs : Nonnegative program.objective)
    (separated : frame.table.Separated program.constraints.length) :
    program.transposed.Feasible (program.scannedWeights frame) ∧
      program.transposed.value (program.scannedWeights frame) =
        frame.table.rhs program.objective.length - ∑ row ∈ range program.objective.length,
          frame.table.cost (program.takenWeight frame row) * frame.table.rhs row := by
  obtain ⟨point, split, feasible, value⟩ := final.describes.feasible_of_satisfied
    (standard_transposed costs) fits.transposed
    (by rw [Table.length_assignment, fits.length_objective_transposed,
      length_constraints_transposed])
    (Table.nonnegative_assignment final.describes.feasible _ _)
    ((final.canonical fits).satisfied_assignment (final.takenWeight_lt fits)
      (final.entry_takenWeight fits separated))
  have scanned : program.scannedWeights frame = point := by
    have front := congrArg (List.take program.constraints.length) split
    rw [List.take_left' (feasible.dimension.trans fits.length_objective_transposed),
      Table.assignment, List.range_add, List.map_append, List.take_left' (by simp)] at front
    exact front
  rw [scanned]
  exact ⟨feasible, value.symm⟩

/-- The initial column of a weight that is taken for a row with an auxiliary basic column: a unit
vector over the constraint rows, and its cost in the objective row. -/
theorem entry_transposed_taken (final : program.DualFinal frame) (fits : program.Fits)
    (costs : Nonnegative program.objective)
    (separated : frame.table.Separated program.constraints.length)
    (inside : row < program.objective.length) {bounded : Nat}
    (candidate : bounded < program.objective.length)
    (basic : frame.basic row = program.constraints.length + bounded) :
    ∀ index ≤ program.objective.length,
      program.transposed.primalTableau.table.entry index (program.takenWeight frame row) =
        (if index = bounded then 1 else 0) +
          (if index = program.objective.length then 1 else 0) *
            frame.table.cost (program.takenWeight frame row) := by
  have canonical := final.canonical fits
  have equivalent := final.describes.equivalent
  have start := (standard_transposed costs).canonical_initialFrame fits.transposed
  have own := basic_initialFrame
    (candidate.trans_eq (length_constraints_transposed program).symm)
  rw [length_constraints_transposed, fits.length_objective_transposed] at start equivalent
  rw [fits.length_objective_transposed, ← basic] at own
  intro index within
  rw [canonical.entry_initial_of_unit equivalent start.sized inside
    (final.takenWeight_lt fits row inside) (final.entry_takenWeight fits separated row inside)
    within, ← own]
  exact congrArg₂ (· + · * _) (start.unit bounded candidate index within)
    (start.objective index within)

/-- A column with a cost is taken only if its constraint bounds one variable, and its cost is
the right side with the sign changed. -/
theorem unit_of_cost_taken_ne_zero (final : program.DualFinal frame) (fits : program.Fits)
    (costs : Nonnegative program.objective)
    (separated : frame.table.Separated program.constraints.length)
    (inside : row < program.objective.length)
    (costly : frame.table.cost (program.takenWeight frame row) ≠ 0) :
    program.takenWeight frame row < program.constraints.length ∧
      (∃ bounded < program.objective.length, ∀ index < program.objective.length,
        program.coefficient (program.takenWeight frame row) index =
          if index = bounded then 1 else 0) ∧
      frame.table.cost (program.takenWeight frame row) =
        -program.rhs.getD (program.takenWeight frame row) 0 := by
  have canonical := final.canonical fits
  obtain ⟨scanned, auxiliary⟩ := canonical.le_basic_of_cost_taken_ne_zero separated inside costly
  change program.takenWeight frame row < program.constraints.length at scanned
  obtain ⟨bounded, basic⟩ := Nat.exists_eq_add_of_le auxiliary
  have bound := canonical.candidate row inside
  have candidate : bounded < program.objective.length := by omega
  have column := final.entry_transposed_taken fits costs separated inside candidate basic
  obtain ⟨objective, coefficients⟩ := fits.entry_transposed scanned
  refine ⟨scanned, ⟨bounded, candidate, fun index indexInside => ?_⟩, ?_⟩
  · rw [← coefficients index indexInside, column index indexInside.le, if_neg indexInside.ne,
      zero_mul, add_zero]
  · rw [← objective, column _ le_rfl, if_neg candidate.ne', if_pos rfl, zero_add, one_mul]

/-- The values read under the names of the constraints are the scanned weights. -/
theorem map_valueOf?_dualReading (final : program.DualFinal frame) (fits : program.Fits)
    {tableau : Tableau Rat} (table : tableau.table = frame.table)
    (structural : tableau.structural = numberedNames "y" program.constraints.length)
    (auxiliary : tableau.auxiliary = numberedNames "s" program.objective.length) :
    tableau.structural.map tableau.dualReading.valueOf? =
      (program.scannedWeights frame).map some := by
  have count : tableau.structural.length = program.constraints.length := by
    simp [structural, numberedNames]
  have equallyLong : "y".length = "s".length := rfl
  have disjoint : tableau.structural.Disjoint tableau.auxiliary := by
    rw [structural, auxiliary]
    exact disjoint_numberedNames equallyLong (by decide) _ _
  have distinct : tableau.names.Nodup := by
    refine List.Nodup.append ?_ ?_ disjoint
    · rw [structural]
      exact nodup_numberedNames _ _
    · rw [auxiliary]
      exact nodup_numberedNames _ _
  have read : ∀ index < tableau.structural.length,
      tableau.dualReading.valueOf? (tableau.structural.getD index "") =
        some (frame.table.assigned (program.takenWeight frame) index) := by
    intro index inside
    have listed : tableau.structural.getD index "" ∈ tableau.structural := by
      rw [List.getD_eq_getElem _ _ inside]
      exact List.getElem_mem inside
    have written := (final.canonical fits).lastWritten_basicWrites_eq table distinct
      (Nat.le_add_right _ _) inside
    rw [Tableau.names, List.getD_append _ _ _ _ inside] at written
    rw [Tableau.valueOf?_dualReading_structural listed (disjoint listed), written, count]
    rfl
  rw [Solution.map_valueOf? read, count, scannedWeights]

/-- The costs of the taken columns, collected by column. -/
theorem sum_cost_taken (final : program.DualFinal frame) (fits : program.Fits)
    (costs : Nonnegative program.objective)
    (separated : frame.table.Separated program.constraints.length) :
    ∑ row ∈ range program.objective.length,
        frame.table.cost (program.takenWeight frame row) * frame.table.rhs row =
      ∑ column ∈ range program.constraints.length,
        frame.table.cost column * (program.scannedWeights frame).getD column 0 := by
  have weighted : ∀ column ∈ range program.constraints.length,
      frame.table.cost column * (program.scannedWeights frame).getD column 0 =
        ∑ row ∈ range program.objective.length, if program.takenWeight frame row = column then
          frame.table.cost column * frame.table.rhs row else 0 := by
    intro column member
    rw [getD_scannedWeights (mem_range.1 member), Table.assigned, final.height_eq, mul_sum]
    simp only [mul_ite, mul_zero]
  rw [sum_congr rfl weighted, sum_comm]
  apply sum_congr rfl
  intro row member
  rw [sum_ite_eq]
  split_ifs with scanned
  · rfl
  · by_cases free : frame.table.cost (program.takenWeight frame row) = 0
    · rw [free, zero_mul]
    · obtain ⟨inside, -⟩ :=
        final.unit_of_cost_taken_ne_zero fits costs separated (mem_range.1 member) free
      exact absurd (mem_range.2 inside) scanned

/-- Without a constraint that bounds one variable by a negative number, no column with a cost
is taken. -/
theorem cost_taken_eq_zero (final : program.DualFinal frame) (fits : program.Fits)
    (costs : Nonnegative program.objective)
    (separated : frame.table.Separated program.constraints.length)
    (unbounded : ∀ relation ∈ program.relations, relation.2.2 < 0 →
      ∀ bounded < program.objective.length,
        relation.1 ≠ unitRow program.objective.length bounded 1)
    (inside : row < program.objective.length) :
    frame.table.cost (program.takenWeight frame row) = 0 := by
  by_contra costly
  obtain ⟨scanned, ⟨bounded, candidate, unit⟩, cost⟩ :=
    final.unit_of_cost_taken_ne_zero fits costs separated inside costly
  obtain ⟨relation, listed⟩ := fits.exists_relation scanned
  obtain ⟨coefficients, rhs⟩ := parts_of_relation listed
  have member := List.mem_of_getElem? listed
  have reduced := final.reduced _ (scanned.trans_le (Nat.le_add_right _ _))
  have negative : relation.2.2 < 0 := by
    rw [rhs] at cost
    have nonzero : relation.2.2 ≠ 0 := fun zero => costly (by rw [cost, zero, neg_zero])
    exact lt_of_le_of_ne (by linarith) nonzero
  refine unbounded relation member negative bounded candidate ?_
  have length := fits.rows _ (mem_of_mem_relations member).1
  refine List.ext_getElem (by simp [length, unitRow]) fun index first second => ?_
  rw [length] at first
  rw [← List.getD_eq_getElem _ 0, ← List.getD_eq_getElem _ 0, getD_unitRow, ← coefficients,
    unit index first]
  simp [first]

end DualFinal

/-- With non-negative objective coefficients and without a tolerance, the values that the dual
method reads under the names of the constraints are, where their columns are separated,
weights that are feasible for the transposed program. Their value is the reported one less
the costs of the columns, and the reported one if no constraint bounds a single variable by a
negative number. -/
theorem weights_of_dual_solve (program : Program Rat) (options : Options Rat)
    (exact : options.tolerance = 0) (costs : Nonnegative program.objective)
    {report : Report Rat} (returned : program.solve .dual options = .ok report) :
    ∃ final, (program.dualTableau.run options).outcome = .ok final ∧
      report.solution = final.dualReading.cleaned ∧
      (final.table.Separated program.constraints.length → ∃ weights,
        (numberedNames "y" program.constraints.length).map final.dualReading.valueOf? =
          weights.map some ∧
        Nonnegative weights ∧
        (∀ column < program.objective.length,
          dot (program.coefficientColumn column) weights ≤ program.objective.getD column 0) ∧
        (∀ column < program.constraints.length, 0 ≤ final.table.cost column) ∧
        dot program.rhs weights = final.dualReading.optimalValue -
          ∑ column ∈ range program.constraints.length,
            final.table.cost column * weights.getD column 0 ∧
        dot program.rhs weights ≤ final.dualReading.optimalValue ∧
        ((∀ relation ∈ program.relations, relation.2.2 < 0 →
            ∀ bounded < program.objective.length,
              relation.1 ≠ unitRow program.objective.length bounded 1) →
          dot program.rhs weights = final.dualReading.optimalValue)) := by
  obtain ⟨tableau, final, checked, started, outcome, solution⟩ := exists_final_of_solve returned
  have fits := (check_eq_ok_iff program).1 checked
  obtain rfl : program.dualTableau = tableau := by
    simpa [Program.tableau, checked] using started
  obtain ⟨frame, dualFinal, table⟩ := fits.exists_dualFinal costs exact outcome
  obtain ⟨structural, auxiliary⟩ := Tableau.names_of_ok options outcome
  have optimalValue : final.dualReading.optimalValue =
      frame.table.rhs program.objective.length := by
    rw [← dualFinal.height_eq, ← table]
    rfl
  refine ⟨final, outcome, solution, fun separated => ?_⟩
  rw [table] at separated
  obtain ⟨feasible, value⟩ := dualFinal.feasible_scannedWeights fits costs separated
  change dot program.rhs (program.scannedWeights frame) = _ at value
  have nonnegative := nonnegative_iff_getD.1 feasible.nonnegative
  have reduced : ∀ column < program.constraints.length, 0 ≤ final.table.cost column := by
    rw [table]
    exact fun column inside => dualFinal.reduced column (inside.trans_le (Nat.le_add_right _ _))
  refine ⟨program.scannedWeights frame, ?_, feasible.nonnegative, ?_, reduced, ?_, ?_, ?_⟩
  · have read := dualFinal.map_valueOf?_dualReading fits table structural auxiliary
    rw [structural] at read
    exact read
  · intro column inside
    have listed := getElem?_relations_transposed program column
    rw [List.getElem?_eq_getElem inside, Option.map_some] at listed
    rw [List.getD_eq_getElem _ _ inside]
    exact feasible.satisfied _ (List.mem_of_getElem? listed)
  · rw [value, optimalValue, table, dualFinal.sum_cost_taken fits costs separated]
  · rw [value, optimalValue, dualFinal.sum_cost_taken fits costs separated, sub_le_self_iff]
    rw [table] at reduced
    exact sum_nonneg fun column member =>
      mul_nonneg (reduced column (mem_range.1 member)) (nonnegative column)
  · intro unbounded
    rw [value, optimalValue, sub_eq_self]
    refine sum_eq_zero fun row member => ?_
    rw [dualFinal.cost_taken_eq_zero fits costs separated unbounded (mem_range.1 member),
      zero_mul]

/-- Two supplies that are asked for at least, one of them by a negative number. -/
def twoSupplies : Program Rat where
  objective := [12, 16]
  constraints := [[1, 2], [1, -1]]
  senses := [.atLeast, .atLeast]
  rhs := [40, -30]
  goal := .minimize
  names := []

/-- The weights that are read for `twoSupplies` attain the value that the dual method
reports. -/
theorem weights_twoSupplies :
    (twoSupplies.solve .dual ⟨10, 0, .dantzig⟩).isOk ∧ Nonnegative twoSupplies.objective ∧
      ∃ final, (twoSupplies.dualTableau.run ⟨10, 0, .dantzig⟩).outcome = .ok final ∧
        ∃ weights, ["y1", "y2"].map final.dualReading.valueOf? = weights.map some ∧
          dot twoSupplies.rhs weights = final.dualReading.optimalValue := by
  let options : Options Rat := ⟨10, 0, .dantzig⟩
  have solved : (twoSupplies.solve .dual options).isOk := by decide +kernel
  have costs : Nonnegative twoSupplies.objective := by decide
  have evaluated : ((twoSupplies.dualTableau.run options).outcome.toOption.map fun final =>
      decide (final.table.Separated 2)) = some true := by decide +kernel
  refine ⟨solved, costs, ?_⟩
  cases returned : twoSupplies.solve .dual options with
  | error => simp [returned, Except.isOk, Except.toBool] at solved
  | ok report =>
    obtain ⟨final, outcome, -, read⟩ :=
      weights_of_dual_solve twoSupplies options rfl costs returned
    rw [outcome] at evaluated
    obtain ⟨weights, names, -, -, -, -, -, attained⟩ :=
      read (of_decide_eq_true (Option.some.inj evaluated))
    exact ⟨final, outcome, weights, names, attained (by decide +kernel)⟩

/-- A variable that has to be at least a negative number. -/
def negativeBound : Program Rat where
  objective := [1]
  constraints := [[1]]
  senses := [.atLeast]
  rhs := [-1]
  goal := .minimize
  names := []

/-- The column of the constraint of `negativeBound` is taken although it is not basic, and the
weight one that is read for it is worth less than the reported optimum zero. -/
theorem short_negativeBound :
    (negativeBound.solve .dual ⟨10, 0, .dantzig⟩).isOk ∧ Nonnegative negativeBound.objective ∧
      ∃ final, (negativeBound.dualTableau.run ⟨10, 0, .dantzig⟩).outcome = .ok final ∧
        (∀ row ≤ final.table.height, ∀ column < 1, final.table.entry row column = 0 ∨
          final.table.entry row column = 1) ∧
        final.dualReading.valueOf? "y1" = some 1 ∧
        dot negativeBound.rhs [1] ≠ final.dualReading.optimalValue := by
  have evaluated : ((negativeBound.dualTableau.run ⟨10, 0, .dantzig⟩).outcome.toOption.map
      fun final => decide ((∀ row ≤ final.table.height, ∀ column < 1,
          final.table.entry row column = 0 ∨ final.table.entry row column = 1) ∧
        final.dualReading.valueOf? "y1" = some 1 ∧
        dot negativeBound.rhs [1] ≠ final.dualReading.optimalValue)) = some true := by
    decide +kernel
  refine ⟨by decide +kernel, by decide, ?_⟩
  cases outcome : (negativeBound.dualTableau.run ⟨10, 0, .dantzig⟩).outcome with
  | error => simp [outcome, Except.toOption] at evaluated
  | ok final =>
    rw [outcome] at evaluated
    exact ⟨final, rfl, of_decide_eq_true (Option.some.inj evaluated)⟩

end Simplex.Program
