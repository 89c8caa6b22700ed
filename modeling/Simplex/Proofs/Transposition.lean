import Simplex.Proofs.Standard

/-!
# The transposed program

The tableau of the dual is the tableau of another program: the one that maximises the
right sides over the transposed constraints, each bounded by an objective coefficient.
With non-negative objective coefficients that program is standard, so what is known of
runs of standard programs applies to the dual method.
-/

namespace Simplex.Program

section Transposed

variable {α : Type} [Scalar α]

/-- The program over the constraints' weights: maximise the right sides, with the
coefficients that each variable has bounded by its objective coefficient. -/
def transposed (program : Program α) : Program α where
  objective := program.rhs
  constraints := (List.range program.objective.length).map program.coefficientColumn
  senses := List.replicate program.objective.length .atMost
  rhs := program.objective
  goal := .maximize
  names := []

variable {program : Program α}

@[simp] theorem length_constraints_transposed (program : Program α) :
    program.transposed.constraints.length = program.objective.length := by
  simp [transposed]

theorem Fits.length_objective_transposed (fits : program.Fits) :
    program.transposed.objective.length = program.constraints.length :=
  fits.rhs

theorem Fits.transposed (fits : program.Fits) : program.transposed.Fits where
  objective := by
    rw [← List.length_pos_iff, fits.length_objective_transposed, List.length_pos_iff]
    exact fits.constraints
  constraints := by
    rw [← List.length_pos_iff, length_constraints_transposed, List.length_pos_iff]
    exact fits.objective
  names := .inl rfl
  senses := by simp [Program.transposed]
  rhs := by simp [Program.transposed]
  rows := by
    intro row member
    obtain ⟨index, -, rfl⟩ := List.mem_map.1 member
    rw [fits.length_objective_transposed, coefficientColumn, List.length_map]

/-- The constraints of the transposed program: one for every variable. -/
theorem getElem?_relations_transposed (program : Program α) (index : Nat) :
    program.transposed.relations[index]? =
      program.objective[index]?.map fun coefficient =>
        (program.coefficientColumn index, .atMost, coefficient) := by
  by_cases inside : index < program.objective.length
  · simp [relations, transposed, List.zip, inside]
  · simp [relations, transposed, List.zip, inside]

/-- The table of the dual is that of the transposed program, as long as a factor of minus
one negates the right sides. -/
theorem table_dualTableau (program : Program α)
    (negates : ∀ bound ∈ program.rhs, (-1 : α) * bound = -bound) :
    program.dualTableau.table = program.transposed.primalTableau.table := by
  have constraints : (program.objective.mapIdx fun index coefficient =>
        program.coefficientColumn index ++ unitRow program.objective.length index 1 ++
          [0, coefficient]) =
      program.transposed.relations.mapIdx fun index relation =>
        constraintRow program.transposed.constraints.length index relation.1 relation.2.1
          relation.2.2 := by
    apply List.ext_getElem?
    intro index
    rw [List.getElem?_mapIdx, List.getElem?_mapIdx, getElem?_relations_transposed,
      Option.map_map, length_constraints_transposed]
    rfl
  have objective : program.rhs.map (- ·) =
      program.transposed.objective.map (goalSign program.transposed.goal * ·) :=
    List.map_congr_left fun bound member => (negates bound member).symm
  have rows := rows_primalTableau program.transposed
  rw [← constraints, ← objective, length_constraints_transposed] at rows
  exact congrArg Table.mk rows.symm

end Transposed

variable {program : Program Rat}

/-- In exact arithmetic the dual starts from the table of the transposed program. -/
theorem table_dualTableau_exact (program : Program Rat) :
    program.dualTableau.table = program.transposed.primalTableau.table :=
  table_dualTableau program fun _ _ => neg_one_mul _

/-- Non-negative objective coefficients make the transposed program standard. -/
theorem standard_transposed (costs : Nonnegative program.objective) :
    program.transposed.Standard where
  senses := by
    intro sense member
    exact List.eq_of_mem_replicate member
  rhs := costs

/-- The dual has as many candidates as the transposed program. -/
theorem Fits.candidates_dualTableau (fits : program.Fits) :
    program.dualTableau.candidates =
      program.transposed.objective.length + program.transposed.constraints.length := by
  rw [fits.length_objective_transposed, length_constraints_transposed]
  simp [Tableau.candidates, dualTableau, numberedNames]

end Simplex.Program
