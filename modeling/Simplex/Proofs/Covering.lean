import Simplex.Proofs.Transposition

/-!
# Covering points and weights

A point covers the right sides of a program when every left side reaches its right side.
The weightings of the constraints that are feasible for the transposed program bound the
objective of every such point from below (`value_transposed_le`).
-/

namespace Simplex.Program

open Finset

variable {program : Program Rat} {point weights : List Rat} {index : Nat}

/-- The program of the same data that minimises the objective over lower bounds. -/
def covering (program : Program Rat) : Program Rat :=
  { program with
    senses := List.replicate program.constraints.length .atLeast
    goal := .minimize }

theorem Fits.covering (fits : program.Fits) : program.covering.Fits where
  objective := fits.objective
  constraints := fits.constraints
  names := fits.names
  senses := List.length_replicate
  rhs := fits.rhs
  rows := fits.rows

/-- A minimum over lower bounds is its own covering program. -/
theorem Fits.covering_eq (fits : program.Fits) (goal : program.goal = .minimize)
    (senses : ∀ sense ∈ program.senses, sense = .atLeast) : program.covering = program := by
  have replicated : program.senses =
      List.replicate program.constraints.length .atLeast :=
    List.eq_replicate_iff.2 ⟨fits.senses, senses⟩
  rw [Program.covering, ← replicated, ← goal]

/-- The coefficient of a variable in a constraint. -/
def coefficient (program : Program Rat) (row column : Nat) : Rat :=
  (program.coefficientColumn column).getD row 0

/-- The parts of a constraint by position. -/
theorem parts_of_relation {relation : List Rat × Sense × Rat}
    (listed : program.relations[index]? = some relation) :
    (∀ column, program.coefficient index column = relation.1.getD column 0) ∧
      program.rhs.getD index 0 = relation.2.2 := by
  obtain ⟨row, rest⟩ := List.getElem?_zip_eq_some.1 listed
  have rhs := (List.getElem?_zip_eq_some.1 rest).2
  refine ⟨fun column => ?_, ?_⟩
  · simp [coefficient, coefficientColumn, row]
  · simp [rhs]

/-- The left side of a constraint at a point. -/
theorem Fits.dot_eq_sum_coefficient (fits : program.Fits)
    {relation : List Rat × Sense × Rat}
    (listed : program.relations[index]? = some relation) (point : List Rat) :
    dot relation.1 point = ∑ column ∈ range program.objective.length,
      program.coefficient index column * point.getD column 0 := by
  have member := mem_of_mem_relations (List.mem_of_getElem? listed)
  rw [dot_eq_sum point (fits.rows _ member.1).le]
  exact sum_congr rfl fun column _ => by rw [(parts_of_relation listed).1]

/-- The covering points by position. -/
theorem Fits.feasible_covering_iff (fits : program.Fits) :
    program.covering.Feasible point ↔
      point.length = program.objective.length ∧ Nonnegative point ∧
        ∀ row < program.constraints.length, program.rhs.getD row 0 ≤
          ∑ column ∈ range program.objective.length,
            program.coefficient row column * point.getD column 0 := by
  have holds : ∀ {row relation}, program.covering.relations[row]? = some relation →
      (relation.2.1.Holds (dot relation.1 point) relation.2.2 ↔ program.rhs.getD row 0 ≤
        ∑ column ∈ range program.objective.length,
          program.coefficient row column * point.getD column 0) := by
    intro row relation listed
    have member := mem_of_mem_relations (List.mem_of_getElem? listed)
    rw [List.eq_of_mem_replicate member.2.1, Sense.Holds, ← (parts_of_relation listed).2,
      fits.covering.dot_eq_sum_coefficient listed]
    rfl
  constructor
  · intro feasible
    refine ⟨feasible.dimension, feasible.nonnegative, fun row inside => ?_⟩
    obtain ⟨relation, listed⟩ := fits.covering.exists_relation inside
    exact (holds listed).1 (feasible.satisfied relation (List.mem_of_getElem? listed))
  · rintro ⟨dimension, nonnegative, reaches⟩
    refine ⟨dimension, nonnegative, fun relation member => ?_⟩
    obtain ⟨row, listed⟩ := List.mem_iff_getElem?.1 member
    have inside := (List.getElem?_eq_some_iff.1 listed).1
    rw [fits.covering.length_relations] at inside
    exact (holds listed).2 (reaches row inside)

/-- The weights that are feasible for the transposed program, by position. -/
theorem bounds_of_feasible_transposed
    (feasible : program.transposed.Feasible weights) :
    ∀ column < program.objective.length,
      ∑ row ∈ range program.constraints.length,
        program.coefficient row column * weights.getD row 0 ≤
          program.objective.getD column 0 := by
  intro column inside
  have listed := getElem?_relations_transposed program column
  rw [List.getElem?_eq_getElem inside, Option.map_some] at listed
  have bound := feasible.satisfied _ (List.mem_of_getElem? listed)
  have length : (program.coefficientColumn column).length ≤ program.constraints.length := by
    simp [coefficientColumn]
  rw [Sense.Holds, dot_eq_sum weights length] at bound
  rwa [List.getD_eq_getElem _ _ inside]

/-- A feasible weighting of the right sides is at most the objective of a covering
point. -/
theorem Fits.value_transposed_le (fits : program.Fits)
    (weighting : program.transposed.Feasible weights)
    (covers : program.covering.Feasible point) :
    program.transposed.value weights ≤ program.value point := by
  obtain ⟨-, nonnegative, reaches⟩ := fits.feasible_covering_iff.1 covers
  have bounds := bounds_of_feasible_transposed weighting
  have weightsNonnegative := nonnegative_iff_getD.1 weighting.nonnegative
  have pointNonnegative := nonnegative_iff_getD.1 nonnegative
  have exchanged :
      ∑ row ∈ range program.constraints.length,
        (∑ column ∈ range program.objective.length,
          program.coefficient row column * point.getD column 0) * weights.getD row 0 =
      ∑ column ∈ range program.objective.length,
        (∑ row ∈ range program.constraints.length,
          program.coefficient row column * weights.getD row 0) * point.getD column 0 := by
    simp only [sum_mul]
    rw [sum_comm]
    apply sum_congr rfl
    intro column _
    apply sum_congr rfl
    intro row _
    ring
  calc program.transposed.value weights
      = ∑ row ∈ range program.constraints.length,
          program.rhs.getD row 0 * weights.getD row 0 := dot_eq_sum weights fits.rhs.le
    _ ≤ ∑ row ∈ range program.constraints.length,
          (∑ column ∈ range program.objective.length,
            program.coefficient row column * point.getD column 0) * weights.getD row 0 :=
        sum_le_sum fun row member => mul_le_mul_of_nonneg_right
          (reaches row (mem_range.1 member)) (weightsNonnegative row)
    _ = ∑ column ∈ range program.objective.length,
          (∑ row ∈ range program.constraints.length,
            program.coefficient row column * weights.getD row 0) * point.getD column 0 :=
        exchanged
    _ ≤ ∑ column ∈ range program.objective.length,
          program.objective.getD column 0 * point.getD column 0 :=
        sum_le_sum fun column member => mul_le_mul_of_nonneg_right
          (bounds column (mem_range.1 member)) (pointNonnegative column)
    _ = program.value point := (dot_eq_sum point le_rfl).symm

end Simplex.Program
