import Mathlib
import Simplex.Solve

/-!
# What the outcome of a solve comes from

A program is solved in one tableau, and its report or its failure is that of the tableau's
run.
-/

namespace Simplex.Program

variable {α : Type} [Scalar α] {program : Program α} {options : Options α} {method : Method}

/-- A program has an initial tableau only if it passes the check. -/
theorem check_of_tableau {tableau : Tableau α} (started : program.tableau method = .ok tableau) :
    program.check = .ok () := by
  unfold Program.tableau at started
  cases check : program.check with
  | error fault => simp [check] at started
  | ok => rfl

/-- A solution is reported only for a program that passes the check, after a run that
returns. -/
theorem exists_final_of_solve {report : Report α}
    (returned : program.solve method options = .ok report) :
    ∃ tableau final, program.check = .ok () ∧ program.tableau method = .ok tableau ∧
      (tableau.run options).outcome = .ok final ∧
      report.solution = (final.reading method program.goal).cleaned := by
  unfold solve at returned
  cases started : program.tableau method with
  | error fault => simp [started] at returned
  | ok tableau =>
    simp only [started, Tableau.solve] at returned
    cases outcome : (tableau.run options).outcome with
    | error error => simp [outcome, Except.mapError] at returned
    | ok final =>
      simp only [outcome, Except.mapError, Except.ok.injEq] at returned
      exact ⟨tableau, final, check_of_tableau started, rfl, outcome, by rw [← returned]⟩

/-- A solve fails while running only for a program that passes the check, by the failure of
its run. -/
theorem exists_tableau_of_solve {error : RunError}
    (failed : program.solve method options = .error (.run error)) :
    ∃ tableau, program.check = .ok () ∧ program.tableau method = .ok tableau ∧
      (tableau.run options).outcome = .error error := by
  unfold solve at failed
  cases started : program.tableau method with
  | error fault => simp [started] at failed
  | ok tableau =>
    simp only [started, Tableau.solve] at failed
    cases outcome : (tableau.run options).outcome with
    | ok final => simp [outcome, Except.mapError] at failed
    | error other =>
      simp only [outcome, Except.mapError, Except.error.injEq, SolveError.run.injEq] at failed
      exact ⟨tableau, check_of_tableau started, rfl, failed ▸ outcome⟩

end Simplex.Program
