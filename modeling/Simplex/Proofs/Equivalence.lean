import Simplex.Proofs.Initial

/-!
# Recorded tables as forms of the program

Whatever relations a program has and however its run ends, every recorded table says
the same as the program: a point is feasible exactly when some non-negative auxiliary
values and some objective value solve the rows with it, and the objective value is then
the program's, with the sign of its goal.
-/

namespace Simplex

open Table

/-- The value that the auxiliary variable of a constraint takes. -/
def Sense.gap (sense : Sense) (left right : Rat) : Rat :=
  match sense with
  | .atMost => right - left
  | .atLeast => left - right
  | .equal => 0

/-- A relation holds exactly when a non-negative auxiliary value makes up the
difference. -/
theorem Sense.holds_of_auxiliary {sense : Sense} {left right auxiliary : Rat}
    (nonnegative : 0 ≤ auxiliary)
    (equation : left + Program.auxiliarySign sense * auxiliary = right) :
    sense.Holds left right := by
  cases sense <;> simp only [Sense.Holds, Program.auxiliarySign] at equation ⊢ <;> linarith

theorem Sense.Holds.gap {sense : Sense} {left right : Rat} (holds : sense.Holds left right) :
    0 ≤ sense.gap left right ∧
      left + Program.auxiliarySign sense * sense.gap left right = right := by
  cases sense <;>
    simp only [Sense.Holds, Sense.gap, Program.auxiliarySign] at holds ⊢ <;>
    constructor <;> linarith

/-- All tables of a run are row-equivalent to the first one. -/
theorem Tableau.rowEquivalent_frames {tableau : Tableau Rat} {height width : Nat}
    (options : Options Rat) (sized : tableau.table.Sized height width) (basis : List Nat) :
    ∀ frame ∈ (tableau.run options).frames basis,
      RowEquivalent height width tableau.table frame.table := by
  refine Tableau.frames_induction sized.rowEquivalent_self ?_
  intro frame row column equivalent chosen
  obtain ⟨inside, positive, -⟩ := ratio_le_of_leaving? chosen.leaving
  rw [equivalent.sized.height_eq] at inside
  exact equivalent.pivot inside.le positive.ne'

namespace Program

variable {program : Program Rat}

/-- The values that the auxiliary variables take at a point. -/
def gaps (program : Program Rat) (point : List Rat) : List Rat :=
  program.relations.map fun relation => relation.2.1.gap (dot relation.1 point) relation.2.2

theorem getD_gaps (point : List Rat) {index : Nat} {relation : List Rat × Sense × Rat}
    (listed : program.relations[index]? = some relation) :
    (program.gaps point).getD index 0 =
      relation.2.1.gap (dot relation.1 point) relation.2.2 := by
  simp [gaps, listed]

/-- The objective value that goes with a point in a table: the sign of the goal times the
objective. -/
def signedValue (program : Program Rat) (point : List Rat) : Rat :=
  match program.goal with
  | .maximize => program.value point
  | .minimize => -program.value point

theorem goalSign_mul_value_add_eq_zero_iff (point : List Rat) (objective : Rat) :
    goalSign program.goal * program.value point + objective = 0 ↔
      objective = program.signedValue point := by
  unfold signedValue
  cases program.goal <;> simp only [goalSign] <;> constructor <;> intro equation <;> linarith

/-- A recorded table has the solutions of the initial one. -/
theorem Fits.satisfied_recorded (fits : program.Fits) {options : Options Rat} {step : Step Rat}
    (recorded : step ∈ (program.primalTableau.run options).steps) {point slacks : List Rat}
    (dimension : point.length = program.objective.length)
    (count : slacks.length = program.constraints.length) (objective : Rat) :
    step.table.Satisfied (point ++ slacks ++ [objective]) ↔
      (∀ index relation, program.relations[index]? = some relation →
        dot relation.1 point + auxiliarySign relation.2.1 * slacks.getD index 0 = relation.2.2) ∧
      objective = program.signedValue point := by
  obtain ⟨frame, member, same⟩ :
      ∃ frame ∈ (program.primalTableau.run options).frames program.slackColumns,
        frame.table = step.table := Run.exists_frame_of_mem recorded
  have equivalent := Tableau.rowEquivalent_frames options fits.sized_primalTableau _ frame member
  have length : (point ++ slacks ++ [objective]).length =
      program.objective.length + program.constraints.length + 1 := by
    simp [dimension, count, Nat.add_assoc]
  rw [← same, equivalent.satisfied_iff fits.sized_primalTableau length,
    fits.satisfied_primalTableau dimension count, goalSign_mul_value_add_eq_zero_iff]

/-- Every recorded table is a form of the program. -/
theorem feasible_iff_recorded (program : Program Rat) (options : Options Rat)
    (checked : program.check = .ok ()) {step : Step Rat}
    (recorded : step ∈ (program.primalTableau.run options).steps) (point : List Rat)
    (dimension : point.length = program.objective.length) :
    (program.Feasible point ↔
      Nonnegative point ∧ ∃ slacks, slacks.length = program.constraints.length ∧
        Nonnegative slacks ∧ ∃ objective,
          step.table.Satisfied (point ++ slacks ++ [objective])) ∧
    ∀ slacks objective, slacks.length = program.constraints.length →
      step.table.Satisfied (point ++ slacks ++ [objective]) →
        objective = program.signedValue point := by
  have fits := (check_eq_ok_iff program).1 checked
  refine ⟨⟨?_, ?_⟩, ?_⟩
  · intro feasible
    have holds : ∀ relation ∈ program.relations,
        relation.2.1.Holds (dot relation.1 point) relation.2.2 := feasible.satisfied
    have count : (program.gaps point).length = program.constraints.length := by
      simp [gaps, fits.length_relations]
    refine ⟨feasible.nonnegative, program.gaps point, count, ?_, program.signedValue point, ?_⟩
    · intro gap member
      obtain ⟨relation, listed, rfl⟩ := List.mem_map.1 member
      exact (holds relation listed).gap.1
    · rw [fits.satisfied_recorded recorded dimension count]
      refine ⟨fun index relation listed => ?_, rfl⟩
      rw [getD_gaps point listed]
      exact (holds relation (List.mem_of_getElem? listed)).gap.2
  · rintro ⟨nonnegative, slacks, count, slacksNonnegative, objective, satisfied⟩
    rw [fits.satisfied_recorded recorded dimension count] at satisfied
    refine ⟨dimension, nonnegative, fun relation member => ?_⟩
    obtain ⟨index, listed⟩ := List.mem_iff_getElem?.1 member
    exact Sense.holds_of_auxiliary (nonnegative_iff_getD.1 slacksNonnegative index)
      (satisfied.1 index relation listed)
  · intro slacks objective count satisfied
    rw [fits.satisfied_recorded recorded dimension count] at satisfied
    exact satisfied.2

/-- A program with one constraint of every relation, which starts from an infeasible
basis. -/
def mixedRelations : Program Rat where
  objective := [3, 2]
  constraints := [[1, 1], [1, 0], [1, -1]]
  senses := [.atMost, .atLeast, .equal]
  rhs := [4, 1, 0]
  goal := .maximize
  names := []

/-- The table after the second pivot of `mixedRelations` shows that a point is feasible, and
its objective. -/
theorem feasible_mixedRelations :
    mixedRelations.check = .ok () ∧ mixedRelations.Feasible [2, 2] ∧
      ∃ step ∈ (mixedRelations.primalTableau.run .default).steps,
        ∀ slacks objective, slacks.length = 3 →
          step.table.Satisfied ([2, 2] ++ slacks ++ [objective]) → objective = 10 := by
  let steps := (mixedRelations.primalTableau.run .default).steps
  have checked : mixedRelations.check = .ok () := by decide
  have solved : ∃ step ∈ steps[2]?, step.table.Satisfied ([2, 2] ++ [0, 1, 0] ++ [10]) := by
    decide +kernel
  obtain ⟨step, third, satisfied⟩ := solved
  have recorded : step ∈ steps := List.mem_of_getElem? third
  obtain ⟨form, objective⟩ :=
    feasible_iff_recorded mixedRelations .default checked recorded [2, 2] rfl
  refine ⟨checked, form.2 ⟨by decide, [0, 1, 0], rfl, by decide, 10, satisfied⟩, step,
    recorded, fun slacks value count solution => ?_⟩
  rw [objective slacks value count solution]
  decide +kernel

end Program

end Simplex
