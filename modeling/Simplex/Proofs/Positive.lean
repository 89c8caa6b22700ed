import Simplex.Proofs.DualMethod
import Simplex.Proofs.Unbounded

/-!
# Programs with positive coefficients

No variable of a standard program with positive coefficients can grow for ever, for the first
constraint already bounds all of them. A run of either method therefore never meets a column that
no row bounds: the ray of such a column would be a direction in which no left side grows, and
`eq_zero_of_dot_nonpos` says that this direction is zero.
-/

namespace Simplex

section Products

variable {coefficients direction : List Rat}

theorem dot_nonneg (positive : ∀ coefficient ∈ coefficients, 0 < coefficient)
    (nonnegative : Nonnegative direction) : 0 ≤ dot coefficients direction := by
  induction coefficients generalizing direction with
  | nil => exact le_rfl
  | cons coefficient coefficients ih =>
    cases direction with
    | nil => simp
    | cons value direction =>
      obtain ⟨leading, further⟩ := List.forall_mem_cons.1 positive
      obtain ⟨first, later⟩ := List.forall_mem_cons.1 nonnegative
      rw [dot_cons]
      exact add_nonneg (mul_nonneg leading.le first) (ih further later)

/-- Positive coefficients raise a left side along every non-negative direction but zero. -/
theorem eq_zero_of_dot_nonpos (positive : ∀ coefficient ∈ coefficients, 0 < coefficient)
    (nonnegative : Nonnegative direction) (fits : direction.length = coefficients.length)
    (lowers : dot coefficients direction ≤ 0) : ∀ value ∈ direction, value = 0 := by
  induction direction generalizing coefficients with
  | nil => simp
  | cons value direction ih =>
    cases coefficients with
    | nil => simp at fits
    | cons coefficient coefficients =>
      obtain ⟨leading, further⟩ := List.forall_mem_cons.1 positive
      obtain ⟨first, later⟩ := List.forall_mem_cons.1 nonnegative
      have product := mul_nonneg leading.le first
      have rest := dot_nonneg further later
      rw [dot_cons] at lowers
      have zero : coefficient * value = 0 := by linarith
      refine List.forall_mem_cons.2 ⟨?_, ih further later (by simpa using fits) (by linarith)⟩
      exact (mul_eq_zero.1 zero).resolve_left leading.ne'

theorem dot_eq_zero (coefficients : List Rat) (zero : ∀ value ∈ direction, value = 0) :
    dot coefficients direction = 0 := by
  induction coefficients generalizing direction with
  | nil => rfl
  | cons coefficient coefficients ih =>
    cases direction with
    | nil => simp
    | cons value direction =>
      obtain ⟨rfl, later⟩ := List.forall_mem_cons.1 zero
      rw [dot_cons, ih later, mul_zero, add_zero]

end Products

namespace Program

variable {program : Program Rat} {options : Options Rat} {column : Nat}

/-- The program and its transposed program are standard, and all coefficients are positive. -/
structure Positive (program : Program Rat) : Prop extends program.Standard where
  costs : Nonnegative program.objective
  coefficients : ∀ row ∈ program.constraints, ∀ coefficient ∈ row, 0 < coefficient

/-- The transposed program has the same coefficients. -/
theorem Positive.transposed (positive : program.Positive) (fits : program.Fits) :
    program.transposed.Positive where
  toStandard := standard_transposed positive.costs
  costs := positive.rhs
  coefficients := by
    intro row member coefficient listed
    obtain ⟨index, inside, rfl⟩ := List.mem_map.1 member
    obtain ⟨source, sourceMember, rfl⟩ := List.mem_map.1 listed
    have bound : index < source.length := by
      rw [fits.rows source sourceMember]
      exact List.mem_range.1 inside
    rw [List.getD_eq_getElem _ _ bound]
    exact positive.coefficients source sourceMember _ (List.getElem_mem bound)

/-- The primal method never finds a program with positive coefficients unbounded. -/
theorem Positive.outcome_run_ne_unbounded (positive : program.Positive) (fits : program.Fits)
    (tolerance : 0 ≤ options.tolerance) :
    (program.primalTableau.run options).outcome ≠ .error (.unbounded column) := by
  intro unbounded
  obtain ⟨-, direction, -, dimension, nonnegative, lowers, improves⟩ :=
    positive.toStandard.exists_ray fits tolerance unbounded
  obtain ⟨row, member⟩ := List.exists_mem_of_ne_nil _ fits.constraints
  have zero := eq_zero_of_dot_nonpos (positive.coefficients row member) nonnegative
    (dimension.trans (fits.rows row member).symm) (lowers row member)
  have still : program.value direction = 0 := dot_eq_zero _ zero
  rw [signedValue, still] at improves
  cases goal : program.goal <;> simp [goal] at improves

/-- Neither method ever finds a program with positive coefficients unbounded. -/
theorem Positive.solve_ne_unbounded (positive : program.Positive) (method : Method)
    (tolerance : 0 ≤ options.tolerance) :
    program.solve method options ≠ .error (.run (.unbounded column)) := by
  intro unbounded
  obtain ⟨tableau, checked, started, outcome⟩ := exists_tableau_of_solve unbounded
  have fits := (check_eq_ok_iff program).1 checked
  rw [tableau_eq_ok checked] at started
  obtain rfl := Except.ok.inj started
  cases method with
  | primal => exact positive.outcome_run_ne_unbounded fits tolerance outcome
  | dual =>
    -- The dual method makes the same pivots as the primal one on the transposed program.
    have fixed : transposedName "RHS" = "RHS" := rfl
    have alike := (Tableau.matches_run_rename options fixed program.dualTableau).outcome
    rw [fits.rename_dualTableau, show (program.dualTableau.run options).outcome = _ from outcome]
      at alike
    generalize transposedOutcome : (program.transposed.primalTableau.run options).outcome = other
      at alike
    cases alike with
    | failed =>
      exact (positive.transposed fits).outcome_run_ne_unbounded fits.transposed tolerance
        transposedOutcome

end Program

end Simplex
