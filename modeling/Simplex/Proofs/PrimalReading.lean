import Simplex.Proofs.Assignment
import Simplex.Proofs.Solving

/-!
# The point that the primal method reports

The primal reading recognises basic columns by their shape and within a tolerance, so the
reported point satisfies the constraints of a standard program up to that tolerance on all
right-hand sides of the final table and on the size of the constraint. A bound that does not
grow with the right-hand sides cannot hold: a column that is nearly a unit vector is read as
one. In a separated table nothing but the cleaning of small values is left of the error.
-/

namespace Simplex

open Finset

variable {program : Program Rat} {frame : Frame Rat} {height candidates : Nat}

/-- The values that the primal reading shows under the names of the variables are those that
the taken columns assign, cleaned. -/
theorem Frame.Canonical.map_valueOf?_primalReading
    (canonical : frame.Canonical height candidates) {tableau : Tableau Rat}
    (table : tableau.table = frame.table) (distinct : tableau.names.Nodup) (goal : Goal) :
    tableau.structural.map (tableau.primalReading goal).cleaned.valueOf? =
      ((List.range tableau.structural.length).map fun column =>
        Solution.cleanValue (frame.table.assigned
          (frame.taken tableau.candidates tableau.structural.length) column)).map some := by
  apply Solution.map_valueOf?
  intro index inside
  have written := canonical.lastWritten_basicWrites_eq table distinct le_rfl
    (inside.trans_le (Nat.le_add_right _ tableau.auxiliary.length))
  rw [Tableau.names, List.getD_append _ _ _ _ inside] at written
  have listed : tableau.structural.getD index "" ∈ tableau.names := by
    rw [List.getD_eq_getElem _ _ inside]
    exact List.mem_append_left _ (List.getElem_mem inside)
  refine (Solution.valueOf?_cleaned_map _ listed).trans ?_
  exact congrArg (fun value => some (Solution.cleanValue value)) written

/-- The cleaned values that columns picked for the rows assign satisfy every constraint of a
standard program up to the gap of the columns and what the cleaning changes. -/
theorem Frame.Describes.dot_cleaned_le (describes : frame.Describes program)
    (standard : program.Standard) (fits : program.Fits) {pick : Nat → Nat} {gap : Rat}
    (nonnegative : 0 ≤ gap)
    (inside : ∀ row < program.constraints.length,
      pick row < program.objective.length + program.constraints.length)
    (near : ∀ row < program.constraints.length, ∀ other < program.constraints.length,
      |frame.table.entry other (pick row) - if other = row then 1 else 0| ≤ gap) :
    ∀ relation ∈ program.relations,
      dot relation.1 ((List.range program.objective.length).map fun column =>
          Solution.cleanValue (frame.table.assigned pick column)) ≤
        relation.2.2 + gap * (∑ row ∈ range program.constraints.length, frame.table.rhs row) *
          (absSum relation.1 + 1) + Solution.negligible * absSum relation.1 := by
  intro relation member
  have small : 0 ≤ (Solution.negligible : Rat) :=
    (abs_nonneg _).trans (Solution.abs_cleanValue_sub_le 0)
  have change : ∀ index,
      |((List.range program.objective.length).map fun column =>
          Solution.cleanValue (frame.table.assigned pick column)).getD index 0 -
        ((List.range program.objective.length).map (frame.table.assigned pick)).getD index 0| ≤
          Solution.negligible := by
    intro index
    by_cases structural : index < program.objective.length
    · simpa [structural] using Solution.abs_cleanValue_sub_le (frame.table.assigned pick index)
    · simpa [structural] using small
  have cleaned := dot_le_of_near relation.1 change
  have assigned := describes.dot_assigned_le standard fits nonnegative inside near relation member
  linarith

namespace Program

/-- For a standard program with different names, the primal method reports a non-negative
point that satisfies every constraint up to the tolerance of the unit columns, taken on the
right-hand sides of the final table and the size of the constraint, and the cleaning of small
values. Where the final table is separated only the cleaning is left. -/
theorem nearly_feasible_of_solve (program : Program Rat) (options : Options Rat)
    (senses : ∀ sense ∈ program.senses, sense = .atMost)
    (rhs : ∀ bound ∈ program.rhs, 0 ≤ bound) (distinct : program.primalTableau.names.Nodup)
    {report : Report Rat} (returned : program.solve .primal options = .ok report) :
    ∃ final point, (program.primalTableau.run options).outcome = .ok final ∧
      program.variableNames.map report.solution.valueOf? = point.map some ∧
      Nonnegative point ∧
      (∀ relation ∈ program.relations,
        dot relation.1 point ≤ relation.2.2 +
          Table.unitTolerance * (∑ row ∈ range program.constraints.length, final.table.rhs row) *
            (absSum relation.1 + 1) +
          Solution.negligible * absSum relation.1) ∧
      (final.table.Separated final.candidates → ∀ relation ∈ program.relations,
        dot relation.1 point ≤ relation.2.2 + Solution.negligible * absSum relation.1) := by
  obtain ⟨tableau, final, checked, started, outcome, solution⟩ := exists_final_of_solve returned
  have fits := (check_eq_ok_iff program).1 checked
  have standard : program.Standard := ⟨senses, rhs⟩
  obtain rfl : program.primalTableau = tableau := by
    simpa [Program.tableau, checked] using started
  obtain ⟨frame, -, describes, table, -, -⟩ :=
    standard.describes_final fits rfl fits.candidates_primalTableau outcome
  have canonical := describes.canonical
  obtain ⟨structural, auxiliary⟩ := Tableau.names_of_ok options outcome
  have distinctFinal : final.names.Nodup := by
    rwa [Tableau.names, structural, auxiliary]
  have dimension : final.structural.length = program.objective.length := by
    rw [structural]
    exact fits.length_variableNames
  have count : final.candidates = program.objective.length + program.constraints.length :=
    (Tableau.candidates_of_ok options outcome).trans fits.candidates_primalTableau
  let pick := frame.taken final.candidates program.objective.length
  let value column := Solution.cleanValue (frame.table.assigned pick column)
  have inside : ∀ row < program.constraints.length,
      pick row < program.objective.length + program.constraints.length :=
    fun row bound => canonical.taken_lt count.le bound
  refine ⟨final, (List.range program.objective.length).map value, outcome, ?_, ?_, ?_, ?_⟩
  · have reported := canonical.map_valueOf?_primalReading table distinctFinal program.goal
    rw [dimension, structural] at reported
    rw [solution]
    exact reported
  · rw [Nonnegative, List.forall_mem_map]
    exact fun column _ =>
      Solution.cleanValue_nonneg (Table.assigned_nonneg describes.feasible pick column)
  · rw [table]
    exact describes.dot_cleaned_le standard fits Table.unitTolerance_pos.le inside
      fun row bound other otherBound => canonical.abs_entry_taken_sub_le bound otherBound
  · intro separated relation member
    rw [table] at separated
    have exact := describes.dot_cleaned_le standard fits le_rfl inside
      (fun row bound other otherBound => by
        rw [canonical.entry_taken separated bound otherBound, sub_self, abs_zero])
      relation member
    simpa using exact

/-- Three limits on two products. -/
def threeLimits : Program Rat where
  objective := [3, 5]
  constraints := [[1, 0], [0, 2], [3, 2]]
  senses := [.atMost, .atMost, .atMost]
  rhs := [4, 12, 18]
  goal := .maximize
  names := []

/-- The final table of `threeLimits` is separated, so the reported point satisfies its
constraints up to the cleaning. -/
theorem nearly_feasible_threeLimits :
    threeLimits.primalTableau.names.Nodup ∧
      ∃ report point, threeLimits.solve .primal .default = .ok report ∧
        threeLimits.variableNames.map report.solution.valueOf? = point.map some ∧
        ∀ relation ∈ threeLimits.relations,
          dot relation.1 point ≤ relation.2.2 + Solution.negligible * absSum relation.1 := by
  have distinct : threeLimits.primalTableau.names.Nodup := by decide +kernel
  have solved : (threeLimits.solve .primal .default).isOk := by decide +kernel
  have evaluated : ((threeLimits.primalTableau.run .default).outcome.toOption.map fun final =>
      decide (final.table.Separated final.candidates)) = some true := by decide +kernel
  cases returned : threeLimits.solve .primal .default with
  | error => simp [returned, Except.isOk, Except.toBool] at solved
  | ok report =>
    obtain ⟨final, point, outcome, reported, -, -, cleaned⟩ :=
      nearly_feasible_of_solve threeLimits .default (by decide) (by decide) distinct returned
    rw [outcome] at evaluated
    have separated := of_decide_eq_true (Option.some.inj evaluated)
    exact ⟨distinct, report, point, rfl, reported, cleaned separated⟩

/-- A bound on a variable, and one in a unit that is much larger. -/
def nearUnit : Program Rat where
  objective := [0]
  constraints := [[1], [1 / 200000000]]
  senses := [.atMost, .atMost]
  rhs := [1000000000, 1]
  goal := .maximize
  names := []

/-- The only column of `nearUnit` is taken for the unit vector of the first bound, and the
value reported for it exceeds the second bound by four. -/
theorem exceeds_nearUnit :
    nearUnit.check = .ok () ∧ nearUnit.primalTableau.columns.Nodup ∧
      (∀ sense ∈ nearUnit.senses, sense = .atMost) ∧ (∀ bound ∈ nearUnit.rhs, 0 ≤ bound) ∧
      ∃ report, nearUnit.solve .primal .default = .ok report ∧
        nearUnit.variableNames.map report.solution.valueOf? = [some 1000000000] ∧
        ¬ ∀ relation ∈ nearUnit.relations,
          dot relation.1 [1000000000] ≤ relation.2.2 + 1 / 10000000 := by
  have solved : (nearUnit.solve .primal .default).isOk := by decide +kernel
  have evaluated : ((nearUnit.solve .primal .default).toOption.map fun report =>
      nearUnit.variableNames.map report.solution.valueOf?) = some [some 1000000000] := by
    decide +kernel
  cases returned : nearUnit.solve .primal .default with
  | error => simp [returned, Except.isOk, Except.toBool] at solved
  | ok report =>
    rw [returned] at evaluated
    refine ⟨by decide +kernel, by decide +kernel, by decide, by decide, report, rfl, ?_, ?_⟩
    · exact Option.some.inj evaluated
    · decide +kernel

end Program

end Simplex
