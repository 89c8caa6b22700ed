import Simplex.Proofs.History
import Simplex.Proofs.Start
import Simplex.Proofs.Transposition

/-!
# Progress along a run

A run that starts with non-negative right-hand sides keeps them so, and the value that the
objective row shows never falls. It stays where it is exactly on the pivots whose row has the
right-hand side zero.
-/

namespace Simplex

/-- Chosen pivots keep the right-hand sides non-negative. -/
theorem Tableau.Reaches.rhsNonnegative {options : Options Rat} {start tableau : Tableau Rat}
    {steps : List (Step Rat)} {height width : Nat}
    (reached : Reaches options start steps tableau) (sized : start.table.Sized height width)
    (feasible : start.table.RhsNonnegative) : tableau.table.RhsNonnegative := by
  induction reached with
  | initial => exact feasible
  | pivot reached entering leaving described ih => exact ih.pivot (reached.sized sized) leaving

namespace Program

/-- A method starts with non-negative right-hand sides: the primal one where every constraint
is an upper bound and none by a negative number, the dual one where no objective coefficient
is negative. -/
def StartsFeasible (program : Program Rat) : Method → Prop
  | .primal => program.Standard
  | .dual => Nonnegative program.objective

variable {program : Program Rat} {method : Method}

theorem Fits.rhsNonnegative_start (fits : program.Fits) (feasible : program.StartsFeasible method) :
    (program.start method).table.RhsNonnegative := by
  cases method with
  | primal => exact Standard.rhsNonnegative_initialFrame feasible fits
  | dual =>
    have initial := (standard_transposed feasible).rhsNonnegative_initialFrame fits.transposed
    rw [initialFrame, ← table_dualTableau_exact] at initial
    exact initial

/-- Where a method starts with non-negative right-hand sides, no constraint row of a recorded
table has a negative one. From each recorded step to the next the right-hand side of the
objective row does not fall, and it rises exactly when that of the pivot row was positive. -/
theorem progress_of_run (program : Program Rat) (options : Options Rat) (method : Method)
    (checked : program.check = .ok ()) (tolerance : 0 ≤ options.tolerance)
    (feasible : program.StartsFeasible method) :
    let run := (program.start method).run options
    let value := fun step : Step Rat => step.table.rhs (program.height method)
    (∀ step ∈ run.steps, ∀ row < program.height method, 0 ≤ step.table.rhs row) ∧
    ∀ index before after, run.steps[index]? = some before →
      run.steps[index + 1]? = some after →
        value before ≤ value after ∧ ∃ row < program.height method, ∃ info,
          after.pivot = some info ∧ info.row = row ∧
            (value before < value after ↔ 0 < before.table.rhs row) := by
  intro run value
  have fits := (check_eq_ok_iff program).1 checked
  have sized := fits.sized_start method
  have initial := fits.rhsNonnegative_start feasible
  refine ⟨fun step member row inside => ?_, fun index before after listed next => ?_⟩
  · obtain ⟨index, listed⟩ := List.mem_iff_getElem?.1 member
    obtain ⟨tableau, reached, table⟩ := Tableau.reaches_of_recorded listed
    rw [← table]
    exact reached.rhsNonnegative sized initial row ((reached.sized sized).height_eq ▸ inside)
  · obtain ⟨tableau, reached, table⟩ := Tableau.reaches_of_recorded listed
    obtain ⟨row, column, info, entering, leaving, pivots⟩ := Tableau.pivots_of_recorded listed next
    have reachedSized := table ▸ reached.sized sized
    have reachedFeasible := table ▸ reached.rhsNonnegative sized initial
    rw [fits.candidates_start] at entering
    obtain ⟨-, improving⟩ := reachedSized.cost_of_entering? (by omega) entering
    have rises := reachedFeasible.rises reachedSized leaving (by linarith)
    rw [reachedSized.height_eq] at rises
    have inside := (Table.pos_of_leaving? leaving).1
    rw [reachedSized.height_eq] at inside
    obtain rfl := pivots.recorded
    exact ⟨rises.1, row, inside, info, rfl, pivots.position.1, rises.2⟩

/-- A program whose first constraint is already met with equality at the start. -/
def levelStart : Program Rat where
  objective := [1, 0]
  constraints := [[1, -1], [0, 1]]
  senses := [.atMost, .atMost]
  rhs := [0, 3]
  goal := .maximize
  names := []

/-- The first pivot of `levelStart` is on a row at zero and keeps the objective, the second one
is not and raises it. -/
theorem progress_levelStart :
    let run := (levelStart.start .primal).run .default
    levelStart.check = .ok () ∧ (0 : Rat) ≤ (Options.default : Options Rat).tolerance ∧
      levelStart.StartsFeasible .primal ∧
      ∃ first second third, run.steps = [first, second, third] ∧
        first.table.rhs 2 = second.table.rhs 2 ∧ second.table.rhs 2 < third.table.rhs 2 := by
  intro run
  have checked : levelStart.check = .ok () := by decide
  have tolerance : (0 : Rat) ≤ (Options.default : Options Rat).tolerance := by decide +kernel
  have feasible : levelStart.StartsFeasible .primal := ⟨by decide, by decide⟩
  obtain ⟨first, second, third, steps⟩ : ∃ first second third, run.steps = [first, second, third] :=
    List.length_eq_three.1 (by decide +kernel)
  have pivots : run.steps.map (fun step => (step.pivot.map PivotInfo.row, step.table.rhs 0,
      step.table.rhs 1)) = [(none, 0, 3), (some 0, 0, 3), (some 1, 3, 3)] := by
    decide +kernel
  obtain ⟨-, progress⟩ := progress_of_run levelStart .default .primal checked tolerance feasible
  have listed : ∀ index : Nat, run.steps[index]? = [first, second, third][index]? := by
    intro index
    rw [steps]
  obtain ⟨kept, row, -, info, described, place, level⟩ :=
    progress 0 first second (listed 0) (listed 1)
  obtain ⟨-, otherRow, -, otherInfo, otherDescribed, otherPlace, rising⟩ :=
    progress 1 second third (listed 1) (listed 2)
  simp only [steps, List.map_cons, List.map_nil, described, otherDescribed, Option.map_some, place,
    otherPlace, List.cons.injEq, Prod.mk.injEq, Option.some.injEq, Nat.cast_eq_zero,
    Nat.cast_eq_one] at pivots
  obtain ⟨⟨-, atZero, -⟩, ⟨rfl, -, positive⟩, ⟨rfl, -, -⟩, -⟩ := pivots
  refine ⟨checked, tolerance, feasible, first, second, third, steps, ?_, ?_⟩
  · refine kept.eq_or_lt.resolve_right fun rises => ?_
    exact (level.1 rises).ne atZero.symm
  · exact rising.2 (positive ▸ by norm_num)

end Program

end Simplex
