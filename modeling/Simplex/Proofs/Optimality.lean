import Simplex.Proofs.Standard
import Simplex.Solution

/-!
# Optimality of the primal method

A run that returns from the tableau of a standard program describes an optimal point: the
basic point of the last frame is feasible, its objective is the value that is read off,
and no feasible point is better by more than the tolerance for every unit of a candidate.
-/

namespace Simplex.Program

/-- The value read off is the objective when the objective row shows it with the sign of
the goal. -/
theorem optimalValue_primalReading {program : Program Rat} {final : Tableau Rat}
    {point : List Rat} (shown : final.objectiveValue = program.signedValue point) :
    (final.primalReading program.goal).optimalValue = program.value point := by
  unfold signedValue at shown
  unfold Tableau.primalReading
  cases goal : program.goal <;> simp [goal] at shown ⊢ <;> simp [shown]

/-- The goal prefers the point with the greater signed value. -/
theorem prefers_iff_signedValue_le (program : Program Rat) (better worse : List Rat) :
    Goal.Prefers program.goal (program.value better) (program.value worse) ↔
      program.signedValue worse ≤ program.signedValue better := by
  unfold Goal.Prefers signedValue
  cases program.goal with
  | maximize => exact Iff.rfl
  | minimize => exact neg_le_neg_iff.symm

/-- The basic point at the end of a run is feasible with the value that is read off, and
optimal up to the tolerance. -/
theorem optimal_of_primal_run (program : Program Rat) (options : Options Rat)
    (checked : program.check = .ok ()) (silent : program.infeasibleRows = [])
    {final : Tableau Rat}
    (returned : (program.primalTableau.run options).outcome = .ok final) :
    let basis := (program.primalTableau.run options).basis program.slackColumns
    let candidates := final.table.basicPoint basis final.candidates
    let point := candidates.take program.objective.length
    let slacks := candidates.drop program.objective.length
    let optimum := (final.primalReading program.goal).optimalValue
    (basis.length = program.constraints.length ∧ ∀ row column, basis[row]? = some column →
      candidates[column]? = some (final.table.rhs row)) ∧
    program.Feasible point ∧ slacks = program.slacks point ∧ Nonnegative slacks ∧
    program.value point = optimum ∧
    (∀ other, program.Feasible other →
      let total := other.sum + (program.slacks other).sum
      match program.goal with
      | .maximize => program.value other ≤ optimum + options.tolerance * total
      | .minimize => optimum - options.tolerance * total ≤ program.value other) ∧
    (options.tolerance = 0 → program.Optimal point) := by
  have fits := (check_eq_ok_iff program).1 checked
  have standard := fits.infeasibleRows_eq_nil_iff.1 silent
  obtain ⟨frame, -, describes, table, tracked, costs⟩ :=
    standard.describes_final fits rfl fits.candidates_primalTableau returned
  obtain ⟨point, split, feasible, shown⟩ := describes.exists_point standard fits
  have count : final.candidates = program.objective.length + program.constraints.length :=
    (Tableau.candidates_of_ok options returned).trans fits.candidates_primalTableau
  have basicPoint : final.table.basicPoint frame.basis final.candidates =
      point ++ program.slacks point := by
    rw [count, table]
    exact split
  have objective : final.objectiveValue = program.signedValue point := by
    rw [← shown, Tableau.objectiveValue, table, describes.canonical.sized.height_eq]
  have nonnegative := (standard.feasible_iff feasible.dimension).1 feasible
  have bound : ∀ other, program.Feasible other → program.signedValue other ≤
      program.signedValue point +
        options.tolerance * (other.sum + (program.slacks other).sum) := by
    intro other otherFeasible
    rw [← shown]
    exact describes.signedValue_le standard fits costs otherFeasible
  simp only [← tracked, basicPoint, List.take_left' feasible.dimension,
    List.drop_left' feasible.dimension, optimalValue_primalReading objective]
  refine ⟨⟨describes.canonical.tracked, ?_⟩, feasible, trivial, nonnegative.2, trivial, ?_, ?_⟩
  · intro row column basic
    rw [table, ← split]
    exact describes.canonical.getElem?_point basic
  · intro other otherFeasible
    have bounded := bound other otherFeasible
    unfold signedValue at bounded
    cases goal : program.goal <;> simp only [goal] at bounded ⊢ <;> linarith
  · intro exact
    refine ⟨feasible, fun other otherFeasible => ?_⟩
    have bounded := bound other otherFeasible
    rw [exact, zero_mul, add_zero] at bounded
    exact (program.prefers_iff_signedValue_le point other).2 bounded

/-- Two goods of which as much as possible is wanted, written as a minimum. -/
def twoGoods : Program Rat where
  objective := [-3, -5]
  constraints := [[1, 0], [0, 2], [3, 2]]
  senses := [.atMost, .atMost, .atMost]
  rhs := [4, 12, 18]
  goal := .minimize
  names := []

/-- Bland's rule without a tolerance reaches the optimum of `twoGoods` in three pivots. -/
theorem optimal_twoGoods :
    twoGoods.check = .ok () ∧ twoGoods.infeasibleRows = [] ∧ twoGoods.Optimal [2, 6] := by
  let options : Options Rat := ⟨10, 0, .bland⟩
  let run := twoGoods.primalTableau.run options
  have checked : twoGoods.check = .ok () := by decide
  have silent : twoGoods.infeasibleRows = [] := by decide +kernel
  have evaluated : (run.outcome.toOption.map fun final =>
      (final.table.basicPoint (run.basis twoGoods.slackColumns) final.candidates).take 2) =
        some [2, 6] := by decide +kernel
  refine ⟨checked, silent, ?_⟩
  cases returned : run.outcome with
  | error => simp [returned, Except.toOption] at evaluated
  | ok final =>
    obtain ⟨-, -, -, -, -, -, optimal⟩ :=
      optimal_of_primal_run twoGoods options checked silent returned
    rw [returned] at evaluated
    rw [← Option.some.inj evaluated]
    exact optimal rfl

end Simplex.Program
