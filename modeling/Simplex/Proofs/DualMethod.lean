import Simplex.Proofs.Negation
import Simplex.Proofs.Reading
import Simplex.Proofs.Renaming
import Simplex.Proofs.Start
import Simplex.Proofs.Transposition

/-!
# The dual method

The dual method is the primal method on the transposed program, in any arithmetic where a factor
of minus one negates. Both start from one table, and only its names differ.
-/

namespace Simplex

/-- What a column of the dual's tableau is called in the tableau of the transposed program: `x`
instead of `y`, and `Z` instead of `p`. -/
def transposedName (name : String) : String :=
  match name.toList with
  | ['p'] => "Z"
  | 'y' :: digits => String.ofList ('x' :: digits)
  | _ => name

theorem transposedName_weight (number : Nat) : transposedName s!"y{number}" = s!"x{number}" := by
  have letters : (s!"y{number}").toList = 'y' :: _ := toList_numberedName rfl number
  have renamed : (s!"x{number}").toList = 'x' :: _ := toList_numberedName rfl number
  calc transposedName s!"y{number}" = String.ofList ('x' :: (toString number).toList) := by
        rw [transposedName, letters]
        rfl
    _ = s!"x{number}" := by rw [← renamed, String.ofList_toList]

theorem transposedName_slack (number : Nat) : transposedName s!"s{number}" = s!"s{number}" := by
  have letters : (s!"s{number}").toList = 's' :: _ := toList_numberedName rfl number
  rw [transposedName, letters]
  rfl

/-- A report of the primal method on the transposed program says the same as one of the dual
method, under the names of the transposed program. -/
structure Report.Transposes {α : Type} (report transposed : Report α) : Prop where
  steps : transposed.steps = report.steps.map (Step.rename transposedName)
  columns : transposed.columns = report.columns.map transposedName
  iterations : transposed.iterations = report.iterations
  optimalValue : transposed.solution.optimalValue = report.solution.optimalValue

attribute [ext] Tableau

namespace Program

variable {α : Type} [Scalar α] {program : Program α}

/-- The transposed program starts from the basis of all its auxiliary variables. -/
theorem basis_transposed (program : Program α) :
    program.transposed.primalTableau.basis = numberedNames "s" program.objective.length := by
  simp only [primalTableau, transposed, numberedNames]
  apply List.ext_getElem
  · simp
  · intro index _ _
    simp [initialLabel]

/-- Up to the names, the dual's tableau is that of the transposed program. -/
theorem Fits.rename_dualTableau [NegatingScalar α] (fits : program.Fits) :
    program.dualTableau.rename transposedName = program.transposed.primalTableau := by
  have slacks (count : Nat) := map_numberedNames transposedName_slack count
  have weights (count : Nat) := map_numberedNames transposedName_weight count
  apply Tableau.ext
  case table => exact table_dualTableau program fun bound _ => NegatingScalar.neg_one_mul bound
  case structural =>
    change (numberedNames "y" program.constraints.length).map transposedName =
      numberedNames "x" program.rhs.length
    rw [weights, fits.rhs]
  case auxiliary =>
    change (numberedNames "s" program.objective.length).map transposedName =
      numberedNames "s" program.transposed.constraints.length
    rw [slacks, length_constraints_transposed]
  case objectiveLabel =>
    have objective : transposedName "p" = "Z" := by decide
    simpa only [Tableau.rename, dualTableau, primalTableau] using objective
  case basis =>
    rw [basis_transposed]
    exact slacks program.objective.length

variable {options : Options α}

/-- The dual method does not use the relations, the goal and the names of a program. -/
theorem solve_dual_congr {other : Program α} (checked : program.check = .ok ())
    (otherChecked : other.check = .ok ()) (objective : other.objective = program.objective)
    (constraints : other.constraints = program.constraints) (rhs : other.rhs = program.rhs) :
    other.solve .dual options = program.solve .dual options := by
  have tableau : other.dualTableau = program.dualTableau := by
    simp only [dualTableau, coefficientColumn, objective, constraints, rhs]
  simp only [solve, tableau_eq_ok checked, tableau_eq_ok otherChecked, start, tableau,
    Tableau.solve, Tableau.reading]

/-- The dual method does what the primal method does on the transposed program. It records the
same tables with the same pivots, `y` being called `x` there and `p` being called `Z`; it reports
as many iterations and the same optimal value, or fails in the same way. It depends on the
objective, the coefficients and the right sides only. -/
theorem dual_solves_transposed [NegatingScalar α] (program : Program α) (options : Options α)
    (checked : program.check = .ok ()) :
    let weights := numberedNames "y" program.constraints.length
    let slacks := numberedNames "s" program.objective.length
    let run := program.dualTableau.run options
    let transposedRun := program.transposed.primalTableau.run options
    program.transposed.check = .ok () ∧
    program.dualTableau.columns = weights ++ slacks ++ ["p", "RHS"] ∧
    program.transposed.primalTableau.columns =
      numberedNames "x" program.constraints.length ++ slacks ++ ["Z", "RHS"] ∧
    (∀ number : Nat, transposedName s!"y{number}" = s!"x{number}" ∧
      transposedName s!"s{number}" = s!"s{number}") ∧
    transposedRun.steps = run.steps.map (Step.rename transposedName) ∧
    EndAlike Report.Transposes (program.solve .dual options)
      (program.transposed.solve .primal options) ∧
    ∀ other : Program α, other.check = .ok () → other.objective = program.objective →
      other.constraints = program.constraints → other.rhs = program.rhs →
        other.solve .dual options = program.solve .dual options := by
  intro weights slacks run transposedRun
  have fits := (check_eq_ok_iff program).1 checked
  have transposedChecked := (check_eq_ok_iff program.transposed).2 fits.transposed
  have fixed : transposedName "RHS" = "RHS" := rfl
  have renamed := fits.rename_dualTableau
  have columns : program.transposed.primalTableau.columns =
      program.dualTableau.columns.map transposedName := by
    rw [← renamed, Tableau.columns_rename fixed]
  have steps : transposedRun.steps = run.steps.map (Step.rename transposedName) := by
    rw [← Tableau.steps_run_rename fixed, renamed]
  have ends : EndAlike (fun final other => final.rename transposedName = other) run.outcome
      transposedRun.outcome := by
    have matched := Tableau.matches_run_rename options fixed program.dualTableau
    rw [renamed] at matched
    exact matched.outcome
  refine ⟨transposedChecked, rfl, ?_, fun number => ⟨transposedName_weight number,
    transposedName_slack number⟩, steps, ?_, fun other => solve_dual_congr checked⟩
  · have structural : program.transposed.variableNames = numberedNames "x" program.rhs.length := rfl
    simp only [Tableau.columns, Tableau.names, primalTableau, structural, fits.rhs,
      length_constraints_transposed, slacks]
  · refine endAlike_solve .dual .primal checked transposedChecked ends ?_
    rintro final _ rfl
    refine ⟨steps, columns, ?_, rfl⟩
    change transposedRun.steps.length - 1 = run.steps.length - 1
    rw [steps, List.length_map]

/-- A minimum over three variables, with a lower bound and an equation, in tenths that doubles
only approximate. -/
def unevenBlend : Program Float where
  objective := [0.6, 0.5, 0.4]
  constraints := [[0.2, 0.1, 0.1], [0.1, 0.3, 0.1]]
  senses := [.atLeast, .equal]
  rhs := [0.4, 0.5]
  goal := .minimize
  names := ["wheat", "rye", "oats"]

/-- The dual method on `unevenBlend` brings in `y2` and then `y1`. The primal method on the
transposed program brings in `x2` and `x1`, and reports the same value. -/
theorem dual_solves_transposed_unevenBlend :
    unevenBlend.check = .ok () ∧ ∃ report transposedReport,
      unevenBlend.solve .dual .default = .ok report ∧
      unevenBlend.transposed.solve .primal .default = .ok transposedReport ∧
      report.steps.map (Option.map PivotInfo.entering ∘ Step.pivot) =
        [none, some "y2", some "y1"] ∧
      transposedReport.steps.map (Option.map PivotInfo.entering ∘ Step.pivot) =
        [none, some "x2", some "x1"] ∧
      transposedReport.solution.optimalValue = report.solution.optimalValue := by
  have checked : unevenBlend.check = .ok () := by decide
  have pivots : (unevenBlend.solve .dual .default).toOption.map
      (fun report => report.steps.map (Option.map PivotInfo.entering ∘ Step.pivot)) =
        some [none, some "y2", some "y1"] := by
    decide +kernel
  obtain ⟨-, -, -, -, -, solves, -⟩ := dual_solves_transposed unevenBlend .default checked
  generalize unevenBlend.solve .dual .default = solved at pivots solves ⊢
  generalize unevenBlend.transposed.solve .primal .default = transposedSolved at solves ⊢
  cases solves with
  | failed failure => cases pivots
  | @returned report transposedReport transposes =>
    have entered : report.steps.map (Option.map PivotInfo.entering ∘ Step.pivot) =
        [none, some "y2", some "y1"] := Option.some.inj pivots
    refine ⟨checked, report, transposedReport, rfl, rfl, entered, ?_, transposes.optimalValue⟩
    calc transposedReport.steps.map (Option.map PivotInfo.entering ∘ Step.pivot) =
          (report.steps.map (Option.map PivotInfo.entering ∘ Step.pivot)).map
            (Option.map transposedName) := by
          rw [transposes.steps, List.map_map, List.map_map]
          refine List.map_congr_left fun step _ => ?_
          cases pivot : step.pivot <;> simp [Step.rename, PivotInfo.rename, pivot]
      _ = [none, some "x2", some "x1"] := by
          rw [entered]
          decide

end Program

end Simplex
