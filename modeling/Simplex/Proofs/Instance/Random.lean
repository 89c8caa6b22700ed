import Simplex.Proofs.Instance.Draw
import Simplex.Proofs.Positive

/-!
# Random programs

A random program has positive coefficients, upper bounds only, and non-negative right sides.
Whatever fractions its data is drawn from, it passes the check, its auxiliary basis is feasible, and
read as a program over the rational numbers it is found unbounded by neither method:
`program_bounded`.
-/

namespace Simplex

open Double

namespace Program

/-- The program over the rational numbers that its doubles stand for. -/
def toRat (program : Program Float) : Program Rat where
  objective := program.objective.map Double.toRat
  constraints := program.constraints.map (·.map Double.toRat)
  senses := program.senses
  rhs := program.rhs.map Double.toRat
  goal := program.goal
  names := program.names

/-- The program bounds its variables from above only, and its coefficients, right sides and
objective entries lie in their intervals. -/
structure Generated (variableCount constraintCount : Nat) (program : Program Float) : Prop where
  objective : Sampler.Drawn variableCount 1 4 program.objective
  count : program.constraints.length = constraintCount
  constraints : ∀ row ∈ program.constraints, Sampler.Drawn variableCount (1 / 2) 5 row
  senses : program.senses = List.replicate constraintCount .atMost
  rhs : Sampler.Drawn constraintCount (2 * variableCount) (6 * variableCount) program.rhs
  names : program.names.length = variableCount

variable {program : Program Float} {variableCount constraintCount : Nat}

theorem Fits.toRat (fits : program.Fits) : program.toRat.Fits where
  objective := by simpa [Program.toRat] using fits.objective
  constraints := by simpa [Program.toRat] using fits.constraints
  names := by simpa [Program.toRat] using fits.names
  senses := by simpa [Program.toRat] using fits.senses
  rhs := by simpa [Program.toRat] using fits.rhs
  rows := by simpa [Program.toRat] using fits.rows

theorem Generated.fits (generated : Generated variableCount constraintCount program)
    (hasVariables : 0 < variableCount) (hasConstraints : 0 < constraintCount) : program.Fits where
  objective := by
    rw [← List.length_pos_iff, generated.objective.length]
    exact hasVariables
  constraints := by
    rw [← List.length_pos_iff, generated.count]
    exact hasConstraints
  names := .inr (generated.names.trans generated.objective.length.symm)
  senses := by rw [generated.senses, List.length_replicate, generated.count]
  rhs := generated.rhs.length.trans generated.count.symm
  rows row member := (generated.constraints row member).length.trans
    generated.objective.length.symm

/-- No right side is below zero, so no constraint is listed as infeasible. -/
theorem Generated.infeasibleRows_eq_nil
    (generated : Generated variableCount constraintCount program)
    (hasVariables : 0 < variableCount) : program.infeasibleRows = [] := by
  rw [infeasibleRows, List.filterMap_eq_nil_iff]
  intro relation listed
  obtain ⟨sense, bound⟩ := List.of_mem_zip (List.fst_mem_of_mem_zipIdx listed)
  rw [generated.senses] at sense
  have lies := generated.rhs.liesIn _ bound
  have nonnegative : ¬ relation.1.2 < 0 := by
    intro negative
    have below := toRat_le_toRat lies.finite standsFor_zero.finite (Double.le_of_lt negative)
    have positive : (0 : Rat) < 2 * variableCount := by positivity
    rw [standsFor_zero.toRat_eq] at below
    exact absurd (lies.least_le.trans below) (not_le.2 positive)
  simp [List.eq_of_mem_replicate sense, nonnegative]

/-- The exact program is standard with positive coefficients. -/
theorem Generated.positive (generated : Generated variableCount constraintCount program) :
    program.toRat.Positive where
  senses sense member := by
    change sense ∈ program.senses at member
    rw [generated.senses] at member
    exact List.eq_of_mem_replicate member
  rhs := List.forall_mem_map.2 fun bound member =>
    le_trans (by positivity) (generated.rhs.liesIn bound member).least_le
  costs := List.forall_mem_map.2 fun cost member =>
    zero_le_one.trans (generated.objective.liesIn cost member).least_le
  coefficients := by
    refine List.forall_mem_map.2 fun row member => ?_
    refine List.forall_mem_map.2 fun coefficient listed => ?_
    have lies := (generated.constraints row member).liesIn coefficient listed
    exact lt_of_lt_of_le (by norm_num) lies.least_le

end Program

namespace Sampler

variable {σ : Type} {sampler : Sampler σ Float} {state : σ} {variableCount constraintCount : Int}

/-- Coefficients are drawn from a half to five. -/
theorem spans_coefficients :
    Spans (Decimal.toFloat ⟨false, 5, -1⟩) (Decimal.toFloat ⟨false, 5, 0⟩) (1 / 2) 5 := by
  have half : StandsFor (Decimal.toFloat ⟨false, 5, -1⟩) (1 / 2) := by
    have numeral : Decimal.toFloat ⟨false, 5, -1⟩ = nearest (((5 : Nat) : Rat) / 10 ^ 1) :=
      toFloat_eq_nearest 5 (by decide) (by decide)
    have stands := standsFor_nearest (show 0 < 1 by decide) (by decide) (show -1074 ≤ -1 by decide)
      (by decide)
    norm_num at numeral stands
    rwa [numeral]
  have width := standsFor_nearest (show 0 < 9 by decide) (by decide) (show -1074 ≤ -1 by decide)
    (by decide)
  norm_num at width
  refine .of_ends half (standsFor_numeral (by decide) (by decide)) (by norm_num) (by norm_num) ?_
  norm_num
  exact width

/-- Objective entries are drawn from one to four. -/
theorem spans_objective :
    Spans (Decimal.toFloat ⟨false, 1, 0⟩) (Decimal.toFloat ⟨false, 4, 0⟩) 1 4 := by
  have one : StandsFor (Decimal.toFloat ⟨false, 1, 0⟩) 1 := by
    simpa using standsFor_numeral (show 0 < 1 by decide) (by decide)
  have width := standsFor_natCast (show 0 < 3 by decide) (by decide)
  refine .of_ends one (standsFor_numeral (by decide) (by decide)) (by norm_num) (by norm_num) ?_
  norm_num at width ⊢
  exact width

/-- The double that stands for a multiple of the number of variables, where there is one. -/
def multiple (variableCount factor : Int) : Float :=
  Decimal.toFloat (.ofInt variableCount) * Decimal.toFloat (.ofInt factor)

/-- Doubles stand for the ends of the interval of right-hand sides, as they do up to `2 ^ 50`
variables (`keepsEnds_of_le`). -/
structure KeepsEnds (variableCount : Int) : Prop where
  lower : StandsFor (multiple variableCount 2) (2 * variableCount)
  upper : StandsFor (multiple variableCount 6) (6 * variableCount)

/-- Multiples below `2 ^ 53` are exact. -/
theorem standsFor_multiple {count factor : Nat} (positive : 0 < count) (factorPositive : 0 < factor)
    (small : factor * count < 2 ^ 53) : StandsFor (multiple count factor) (factor * count) := by
  have numeral {count : Nat} (positive : 0 < count) (small : count < 2 ^ 53) :
      StandsFor (Decimal.toFloat (.ofInt count)) count := by
    have signless : Decimal.ofInt count = ⟨false, count, 0⟩ := by
      simp [Decimal.ofInt]
    rw [signless]
    exact standsFor_numeral positive small
  have first := numeral positive ((Nat.le_mul_of_pos_left _ factorPositive).trans_lt small)
  have second := numeral factorPositive ((Nat.le_mul_of_pos_right _ positive).trans_lt small)
  have product := standsFor_natCast (Nat.mul_pos factorPositive positive) small
  rw [multiple, mul_eq_nearest_of_pos (by rw [first.toRat_eq]; exact_mod_cast positive)
    (by rw [second.toRat_eq]; exact_mod_cast factorPositive), first.toRat_eq, second.toRat_eq,
    mul_comm]
  rwa [Nat.cast_mul] at product

/-- Up to `2 ^ 50` variables the ends of the interval of right-hand sides are doubles. -/
theorem keepsEnds_of_le {count : Nat} (positive : 0 < count) (few : count ≤ 2 ^ 50) :
    KeepsEnds count where
  lower := by simpa using standsFor_multiple positive (show 0 < 2 by decide) (by omega)
  upper := by simpa using standsFor_multiple positive (show 0 < 6 by decide) (by omega)

/-- Right-hand sides are drawn from twice to six times the number of variables. -/
theorem KeepsEnds.spans (ends : KeepsEnds variableCount) (positive : 0 < variableCount) :
    Spans (multiple variableCount 2) (multiple variableCount 6) (2 * variableCount)
      (6 * variableCount) := by
  have count : (0 : Rat) < variableCount := by exact_mod_cast positive
  refine .of_ends ends.lower ends.upper (by linarith) (by linarith) ?_
  have width : (6 * variableCount - 2 * variableCount : Rat) = 2 * (2 * variableCount) := by ring
  rw [width]
  refine ends.lower.double (by linarith) (show _ ≤ Double.toRat (multiple variableCount 6) from ?_)
  rw [ends.upper.toRat_eq]
  linarith

/-- A sampler that draws fractions draws every number of a program from its interval. -/
theorem generated_program (rounds : sampler.RoundsToThousandths)
    (draws : sampler.DrawsFractions state) (positive : 0 < variableCount)
    (ends : KeepsEnds variableCount) :
    (sampler.program variableCount constraintCount state).Generated variableCount.toNat
      constraintCount.toNat := by
  have count : ((variableCount.toNat : Int) : Rat) = variableCount := by
    rw [Int.toNat_of_nonneg positive.le]
  rw [Int.cast_natCast] at count
  let drawRow := repeatDraw
    (sampler.draw (Decimal.toFloat ⟨false, 5, -1⟩) (Decimal.toFloat ⟨false, 5, 0⟩))
    variableCount.toNat
  have row : ∀ state, sampler.DrawsFractions state →
      Drawn variableCount.toNat (1 / 2) 5 (drawRow state).1 ∧
        sampler.DrawsFractions (drawRow state).2 := fun state draws =>
    repeatDraw_draw rounds spans_coefficients ⟨500, by norm_num⟩ ⟨5000, by norm_num⟩
      variableCount.toNat draws
  obtain ⟨rowCount, rows, afterRows⟩ := repeatDraw_spec row constraintCount.toNat draws
  obtain ⟨bounds, afterRhs⟩ := repeatDraw_draw rounds (ends.spans positive)
    ⟨2000 * variableCount.toNat, by push_cast; rw [count]; ring⟩
    ⟨6000 * variableCount.toNat, by push_cast; rw [count]; ring⟩ constraintCount.toNat afterRows
  obtain ⟨costs, -⟩ := repeatDraw_draw rounds spans_objective ⟨1000, by norm_num⟩
    ⟨4000, by norm_num⟩ variableCount.toNat afterRhs
  exact ⟨costs, rowCount, rows, rfl, count.symm ▸ bounds, by simp [program, numberedNames]⟩

/-- Whatever fractions a random program is drawn from, it has the sizes asked for and all its data
lies in the intervals; it passes the check, and its auxiliary basis is feasible. Read as a program
over the rational numbers it is found unbounded by neither method, whatever the options are. -/
theorem program_bounded (sampler : Sampler σ Float) (state : σ) (hasVariables : 1 ≤ variableCount)
    (hasConstraints : 1 ≤ constraintCount) (draws : sampler.DrawsFractions state)
    (rounds : sampler.RoundsToThousandths) (ends : KeepsEnds variableCount) :
    let program := sampler.program variableCount constraintCount state
    program.check = .ok () ∧ program.infeasibleRows = [] ∧
    program.Generated variableCount.toNat constraintCount.toNat ∧
    program.toRat.check = .ok () ∧
    ∀ (method : Method) (options : Options Rat), 0 ≤ options.tolerance →
      ∀ column, program.toRat.solve method options ≠ .error (.run (.unbounded column)) := by
  intro program
  have generated : program.Generated variableCount.toNat constraintCount.toNat :=
    generated_program rounds draws hasVariables ends
  have fits := generated.fits (by omega) (by omega)
  exact ⟨(Program.check_eq_ok_iff program).2 fits, generated.infeasibleRows_eq_nil (by omega),
    generated, (Program.check_eq_ok_iff program.toRat).2 fits.toRat,
    fun method options tolerance column =>
      generated.positive.solve_ne_unbounded method tolerance⟩

/-- From the seed seven the twister draws a bounded program of three variables and two
constraints. -/
theorem program_bounded_seven : ∃ program, Program.random 3 2 7 = .ok program ∧
    program.check = .ok () ∧ program.infeasibleRows = [] ∧ program.Generated 3 2 ∧
    program.toRat.check = .ok () ∧
    ∀ (method : Method) (options : Options Rat), 0 ≤ options.tolerance →
      ∀ column, program.toRat.solve method options ≠ .error (.run (.unbounded column)) := by
  have size : SizeFault.find? 3 2 = none := by decide +kernel
  have ends : KeepsEnds 3 := keepsEnds_of_le (show 0 < 3 by decide) (by decide)
  refine ⟨twister.program 3 2 (.ofSeed 7), by rw [Program.random, size], ?_⟩
  exact program_bounded twister (.ofSeed 7) (by decide) (by decide) (twister_draws _) twister_rounds
    ends

end Sampler

end Simplex
