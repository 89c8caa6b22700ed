import Simplex.Proofs.Dot
import Simplex.Tableau.Initial

/-!
# Points of a program

What it means for the lists of a program to fit together, for a point to satisfy
its constraints and for a point to be optimal. `check_eq_ok_iff` says that the
check accepts exactly the fitting programs, and `infeasibleRows_eq_nil_iff` that
nothing is listed exactly for the programs whose auxiliary basis is feasible.
-/

namespace Simplex

/-- No value is below zero. -/
def Nonnegative (values : List Rat) : Prop := ∀ value ∈ values, 0 ≤ value

instance (values : List Rat) : Decidable (Nonnegative values) :=
  inferInstanceAs (Decidable (∀ value ∈ values, 0 ≤ value))

theorem nonnegative_append {first second : List Rat} :
    Nonnegative (first ++ second) ↔ Nonnegative first ∧ Nonnegative second := by
  simp [Nonnegative, or_imp, forall_and]

/-- A list is non-negative when it is so at every position; past its end it reads as
zero. -/
theorem nonnegative_iff_getD {values : List Rat} :
    Nonnegative values ↔ ∀ index, 0 ≤ values.getD index 0 := by
  constructor
  · intro nonnegative index
    by_cases inside : index < values.length
    · rw [List.getD_eq_getElem _ _ inside]
      exact nonnegative _ (List.getElem_mem inside)
    · rw [List.getD_eq_default _ _ (by omega)]
  · intro positions value member
    obtain ⟨index, inside, rfl⟩ := List.getElem_of_mem member
    rw [← List.getD_eq_getElem _ 0 inside]
    exact positions index

/-- The relation holds between the two sides. -/
def Sense.Holds (sense : Sense) (left right : Rat) : Prop :=
  match sense with
  | .atMost => left ≤ right
  | .atLeast => right ≤ left
  | .equal => left = right

instance (sense : Sense) (left right : Rat) : Decidable (sense.Holds left right) :=
  match sense with
  | .atMost => inferInstanceAs (Decidable (left ≤ right))
  | .atLeast => inferInstanceAs (Decidable (right ≤ left))
  | .equal => inferInstanceAs (Decidable (left = right))

namespace Program

section Fitting

variable {α : Type}

/-- The lists of the program fit together. -/
structure Fits (program : Program α) : Prop where
  objective : program.objective ≠ []
  constraints : program.constraints ≠ []
  names : program.names = [] ∨ program.names.length = program.objective.length
  senses : program.senses.length = program.constraints.length
  rhs : program.rhs.length = program.constraints.length
  rows : ∀ row ∈ program.constraints, row.length = program.objective.length

theorem coefficientFault?_eq_none_iff (program : Program α) :
    program.coefficientFault? = none ↔
      ∀ row ∈ program.constraints, row.length = program.objective.length := by
  simp only [coefficientFault?, Option.map_eq_none_iff, List.find?_eq_none, bne_iff_ne,
    Decidable.not_not]
  constructor
  · intro equal row member
    obtain ⟨index, inside, rfl⟩ := List.getElem_of_mem member
    exact equal (program.constraints[index], index)
      (List.mk_mem_zipIdx_iff_getElem?.2 (List.getElem?_eq_getElem inside))
  · intro equal row member
    exact equal row.1 (List.fst_mem_of_mem_zipIdx member)

/-- The check accepts exactly the programs whose lists fit together. -/
theorem check_eq_ok_iff (program : Program α) : program.check = .ok () ↔ program.Fits := by
  have accepted : program.check = .ok () ↔ program.fault? = none := by
    unfold check
    cases program.fault? <;> simp
  rw [accepted]
  constructor
  · intro sound
    unfold fault? at sound
    split_ifs at sound with noObjective noConstraints wrongNames wrongCounts
    simp only [Bool.and_eq_true, Bool.not_eq_true', bne_iff_ne, List.isEmpty_eq_false_iff,
      not_and, Decidable.not_not] at wrongNames
    simp only [Bool.or_eq_true, bne_iff_ne, not_or, Decidable.not_not] at wrongCounts
    exact {
      objective := by simpa using noObjective
      constraints := by simpa using noConstraints
      names := or_iff_not_imp_left.2 wrongNames
      senses := wrongCounts.1
      rhs := wrongCounts.2
      rows := (coefficientFault?_eq_none_iff program).1 sound }
  · rintro ⟨objective, constraints, names, senses, rhs, rows⟩
    have coefficients := (coefficientFault?_eq_none_iff program).2 rows
    have named : (!program.names.isEmpty &&
        program.names.length != program.objective.length) = false := by
      rcases names with empty | length
      · simp [empty]
      · simp [length]
    simp [fault?, objective, constraints, named, senses, rhs, coefficients]

/-- The constraints of a program, each with its relation and its right side. -/
def relations (program : Program α) : List (List α × Sense × α) :=
  program.constraints.zip (program.senses.zip program.rhs)

variable {program : Program α}

theorem Fits.length_relations (fits : program.Fits) :
    program.relations.length = program.constraints.length := by
  simp [relations, fits.senses, fits.rhs]

/-- The variables of a fitting program have as many names as there are. -/
theorem Fits.length_variableNames (fits : program.Fits) :
    program.variableNames.length = program.objective.length := by
  rcases fits.names with empty | length
  · simp [variableNames, numberedNames, empty]
  · have nonempty : program.names ≠ [] := by
      intro empty
      have objective := fits.objective
      simp [empty, eq_comm, objective] at length
    simp [variableNames, nonempty, length]

/-- Every constraint of a fitting program is listed at its position. -/
theorem Fits.exists_relation (fits : program.Fits) {index : Nat}
    (inside : index < program.constraints.length) :
    ∃ relation, program.relations[index]? = some relation :=
  ⟨_, List.getElem?_eq_getElem (by rwa [fits.length_relations])⟩

/-- The parts of a constraint are listed in the program. -/
theorem mem_of_mem_relations {relation : List α × Sense × α}
    (member : relation ∈ program.relations) :
    relation.1 ∈ program.constraints ∧ relation.2.1 ∈ program.senses ∧
      relation.2.2 ∈ program.rhs := by
  obtain ⟨row, pair⟩ := List.of_mem_zip member
  exact ⟨row, List.of_mem_zip pair⟩

end Fitting

/-- The differences between the right sides and the left sides at a point. -/
def slacks (program : Program Rat) (point : List Rat) : List Rat :=
  program.relations.map fun relation => relation.2.2 - dot relation.1 point

/-- The objective at a point. -/
def value (program : Program Rat) (point : List Rat) : Rat := dot program.objective point

/-- The point is non-negative and satisfies every constraint with its own relation. -/
structure Feasible (program : Program Rat) (point : List Rat) : Prop where
  dimension : point.length = program.objective.length
  nonnegative : Nonnegative point
  satisfied : ∀ relation ∈ program.relations,
    relation.2.1.Holds (dot relation.1 point) relation.2.2

instance (program : Program Rat) (point : List Rat) : Decidable (program.Feasible point) :=
  decidable_of_iff
    (point.length = program.objective.length ∧ Nonnegative point ∧
      ∀ relation ∈ program.relations, relation.2.1.Holds (dot relation.1 point) relation.2.2)
    ⟨fun holds => ⟨holds.1, holds.2.1, holds.2.2⟩,
      fun feasible => ⟨feasible.dimension, feasible.nonnegative, feasible.satisfied⟩⟩

/-- A value of the objective is at least as good as another one. -/
def Goal.Prefers (goal : Goal) (better worse : Rat) : Prop :=
  match goal with
  | .maximize => worse ≤ better
  | .minimize => better ≤ worse

/-- The point is feasible and no feasible point has a better objective. -/
structure Optimal (program : Program Rat) (point : List Rat) : Prop where
  feasible : program.Feasible point
  best : ∀ other, program.Feasible other →
    Goal.Prefers program.goal (program.value point) (program.value other)

/-- Every constraint bounds its left side from above, and by no negative number: the
programs whose auxiliary basis is feasible. -/
structure Standard (program : Program Rat) : Prop where
  senses : ∀ sense ∈ program.senses, sense = .atMost
  rhs : Nonnegative program.rhs

/-- No constraint is listed as infeasible exactly when the program is standard. -/
theorem Fits.infeasibleRows_eq_nil_iff {program : Program Rat} (fits : program.Fits) :
    program.infeasibleRows = [] ↔ program.Standard := by
  have counts : program.senses.length = program.rhs.length := fits.senses.trans fits.rhs.symm
  have pointwise : program.infeasibleRows = [] ↔
      ∀ relation ∈ program.senses.zip program.rhs, relation.1 = .atMost ∧ 0 ≤ relation.2 := by
    simp only [infeasibleRows, List.filterMap_eq_nil_iff, ite_eq_right_iff, reduceCtorEq,
      imp_false, not_or, Decidable.not_not, not_lt]
    constructor
    · intro listed relation member
      obtain ⟨index, inside, rfl⟩ := List.getElem_of_mem member
      exact listed (_, index) (List.mk_mem_zipIdx_iff_getElem?.2 (List.getElem?_eq_getElem inside))
    · intro listed relation member
      exact listed relation.1 (List.fst_mem_of_mem_zipIdx member)
  rw [pointwise]
  constructor
  · intro listed
    have paired : ∀ index (senseInside : index < program.senses.length)
        (rhsInside : index < program.rhs.length),
        program.senses[index] = .atMost ∧ 0 ≤ program.rhs[index] := by
      intro index senseInside rhsInside
      refine listed (program.senses[index], program.rhs[index]) ?_
      rw [← List.getElem_zip (h := by simp; omega)]
      exact List.getElem_mem _
    constructor
    · intro sense member
      obtain ⟨index, inside, rfl⟩ := List.getElem_of_mem member
      exact (paired index inside (counts ▸ inside)).1
    · intro bound member
      obtain ⟨index, inside, rfl⟩ := List.getElem_of_mem member
      exact (paired index (counts ▸ inside) inside).2
  · rintro ⟨senses, rhs⟩ relation member
    have parts := List.of_mem_zip member
    exact ⟨senses _ parts.1, rhs _ parts.2⟩

end Program

end Simplex
