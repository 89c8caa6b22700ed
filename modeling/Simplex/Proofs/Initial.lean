import Simplex.Proofs.Feasible
import Simplex.Proofs.Point

/-!
# The initial tableau

The rows of the tableau that a program starts from, as equations and as columns.
`Fits.satisfied_primalTableau` says which equations they are for any mix of relations,
and `Standard.canonical_initialFrame` that a standard program starts in a canonical
frame with non-negative right-hand sides.
-/

namespace Simplex

/-- Outside the position of its value a unit row is zero. -/
theorem getD_unitRow (count position index : Nat) (value : Rat) :
    (unitRow count position value).getD index 0 =
      if index = position ∧ index < count then value else 0 := by
  by_cases inside : index < count
  · rw [List.getD_eq_getElem _ _ (by simpa [unitRow] using inside)]
    simp [unitRow, inside]
  · rw [List.getD_eq_default _ _ (by simpa [unitRow] using inside)]
    simp [inside]

/-- A unit row picks one value out of a list. -/
theorem dot_unitRow {count position : Nat} (inside : position < count) (value : Rat)
    (values : List Rat) :
    dot (unitRow count position value) values = value * values.getD position 0 := by
  have length : (unitRow count position value).length ≤ count := by simp [unitRow]
  have selected : ∀ index ∈ Finset.range count,
      (unitRow count position value).getD index 0 * values.getD index 0 =
        if index = position then value * values.getD index 0 else 0 := by
    intro index member
    rw [getD_unitRow]
    by_cases same : index = position
    · simp [same, inside]
    · simp [same]
  rw [dot_eq_sum values length, Finset.sum_congr rfl selected, Finset.sum_ite_eq',
    if_pos (Finset.mem_range.2 inside)]

/-- The left side of a row that is laid out as a tableau's, applied to values laid out
alike. -/
theorem dot_dropLast_layout {front middle point slacks : List Rat}
    (frontFits : front.length = point.length) (middleFits : middle.length = slacks.length)
    (factor rhs objective : Rat) :
    dot (front ++ middle ++ [factor, rhs]).dropLast (point ++ slacks ++ [objective]) =
      dot front point + dot middle slacks + factor * objective := by
  have left : (front ++ middle ++ [factor, rhs]).dropLast = front ++ (middle ++ [factor]) := by
    simp
  rw [left, List.append_assoc, dot_append _ _ frontFits, dot_append _ _ middleFits]
  simp
  ring

theorem getLastD_layout (front middle : List Rat) (factor rhs : Rat) :
    (front ++ middle ++ [factor, rhs]).getLastD 0 = rhs := by
  simp [List.getLastD_eq_getLast?]

theorem getD_layout_front (front middle : List Rat) (factor rhs : Rat) {index : Nat}
    (inside : index < front.length) :
    (front ++ middle ++ [factor, rhs]).getD index 0 = front.getD index 0 := by
  rw [List.append_assoc, List.getD_append _ _ _ _ inside]

theorem getD_layout_middle (front middle : List Rat) (factor rhs : Rat) {index : Nat}
    (inside : index < middle.length) :
    (front ++ middle ++ [factor, rhs]).getD (front.length + index) 0 = middle.getD index 0 := by
  rw [List.getD_append _ _ _ _ (by simpa using inside),
    List.getD_append_right _ _ _ _ (by omega)]
  simp

theorem getD_layout_factor (front middle : List Rat) (factor rhs : Rat) :
    (front ++ middle ++ [factor, rhs]).getD (front.length + middle.length) 0 = factor := by
  rw [List.getD_append_right _ _ _ _ (by simp)]
  simp

theorem getD_layout_rhs (front middle : List Rat) (factor rhs : Rat) :
    (front ++ middle ++ [factor, rhs]).getD (front.length + middle.length + 1) 0 = rhs := by
  have offset : front.length + middle.length + 1 - (front ++ middle).length = 1 := by
    rw [List.length_append]
    omega
  rw [List.getD_append_right _ _ _ _ (by rw [List.length_append]; omega), offset]
  rfl

namespace Program

/-- The columns of the auxiliary variables, in the order of the constraints. -/
def slackColumns {α : Type} (program : Program α) : List Nat :=
  (List.range program.constraints.length).map (program.objective.length + ·)

/-- The frame in which the program itself is first recorded. -/
def initialFrame {α : Type} [Scalar α] (program : Program α) : Frame α :=
  ⟨program.primalTableau.table, program.slackColumns⟩

section Rows

variable {α : Type} [Scalar α] {program : Program α}

/-- The rows of the tableau: one for every constraint and that of the objective. -/
theorem rows_primalTableau (program : Program α) :
    program.primalTableau.table.rows =
      (program.relations.mapIdx fun index relation =>
        constraintRow program.constraints.length index relation.1 relation.2.1 relation.2.2) ++
      [program.objective.map (goalSign program.goal * ·) ++
        List.replicate program.constraints.length 0 ++ [1, 0]] :=
  rfl

theorem row_primalTableau {index : Nat} {relation : List α × Sense × α}
    (listed : program.relations[index]? = some relation) :
    program.primalTableau.table.row index =
      constraintRow program.constraints.length index relation.1 relation.2.1 relation.2.2 := by
  obtain ⟨inside, rfl⟩ := List.getElem?_eq_some_iff.1 listed
  rw [Table.row, rows_primalTableau, List.getD_append _ _ _ _ (by simpa using inside),
    List.getD_eq_getElem _ _ (by simpa using inside), List.getElem_mapIdx]

theorem Fits.row_primalTableau_objective (fits : program.Fits) :
    program.primalTableau.table.row program.constraints.length =
      program.objective.map (goalSign program.goal * ·) ++
        List.replicate program.constraints.length 0 ++ [1, 0] := by
  rw [Table.row, rows_primalTableau,
    List.getD_append_right _ _ _ _ (by simp [fits.length_relations])]
  simp [fits.length_relations]

theorem Fits.sized_primalTableau (fits : program.Fits) :
    program.primalTableau.table.Sized program.constraints.length
      (program.objective.length + program.constraints.length + 2) := by
  refine .of_length_row ?_ fun index bound => ?_
  · simp [rows_primalTableau, fits.length_relations]
  · rcases bound.lt_or_eq with inside | rfl
    · obtain ⟨relation, listed⟩ := fits.exists_relation inside
      have member := mem_of_mem_relations (List.mem_of_getElem? listed)
      simp [row_primalTableau listed, constraintRow, unitRow, fits.rows _ member.1]
      omega
    · simp [fits.row_primalTableau_objective]
      omega

/-- The number of variables and constraints is the number of candidates. -/
theorem Fits.candidates_primalTableau (fits : program.Fits) :
    program.primalTableau.candidates =
      program.objective.length + program.constraints.length := by
  simp [Tableau.candidates, primalTableau, numberedNames, fits.length_variableNames]

end Rows

variable {program : Program Rat}

/-- The left side of a constraint's row, applied to values that are laid out alike. -/
theorem Fits.dot_row_primalTableau (fits : program.Fits) {index : Nat}
    {relation : List Rat × Sense × Rat} (listed : program.relations[index]? = some relation)
    {point slacks : List Rat} (dimension : point.length = program.objective.length)
    (count : slacks.length = program.constraints.length) (objective : Rat) :
    dot (program.primalTableau.table.row index).dropLast (point ++ slacks ++ [objective]) =
        dot relation.1 point + auxiliarySign relation.2.1 * slacks.getD index 0 ∧
      (program.primalTableau.table.row index).getLastD 0 = relation.2.2 := by
  have member := mem_of_mem_relations (List.mem_of_getElem? listed)
  have inside : index < program.constraints.length := by
    rw [← fits.length_relations]
    exact (List.getElem?_eq_some_iff.1 listed).1
  rw [row_primalTableau listed, constraintRow, getLastD_layout,
    dot_dropLast_layout ((fits.rows _ member.1).trans dimension.symm) (by simp [unitRow, count]),
    dot_unitRow inside]
  simp

/-- The left side of the objective row, applied to values that are laid out alike. -/
theorem Fits.dot_row_primalTableau_objective (fits : program.Fits) {point slacks : List Rat}
    (dimension : point.length = program.objective.length)
    (count : slacks.length = program.constraints.length) (objective : Rat) :
    dot (program.primalTableau.table.row program.constraints.length).dropLast
        (point ++ slacks ++ [objective]) =
          goalSign program.goal * program.value point + objective ∧
      (program.primalTableau.table.row program.constraints.length).getLastD 0 = 0 := by
  rw [fits.row_primalTableau_objective, getLastD_layout,
    dot_dropLast_layout (by simp [dimension]) (by simp [count]), dot_replicate_zero,
    dot_map_mul, value]
  simp

/-- The equations of the tableau: a constraint's auxiliary variable makes up the difference
between its two sides, and the objective variable that of the objective row. -/
theorem Fits.satisfied_primalTableau (fits : program.Fits) {point slacks : List Rat}
    (dimension : point.length = program.objective.length)
    (count : slacks.length = program.constraints.length) (objective : Rat) :
    program.primalTableau.table.Satisfied (point ++ slacks ++ [objective]) ↔
      (∀ index relation, program.relations[index]? = some relation →
        dot relation.1 point + auxiliarySign relation.2.1 * slacks.getD index 0 = relation.2.2) ∧
      goalSign program.goal * program.value point + objective = 0 := by
  have last := fits.dot_row_primalTableau_objective dimension count objective
  rw [fits.sized_primalTableau.satisfied_iff_row]
  constructor
  · intro solved
    refine ⟨fun index relation listed => ?_, ?_⟩
    · have inside := (List.getElem?_eq_some_iff.1 listed).1
      rw [fits.length_relations] at inside
      have sides := fits.dot_row_primalTableau listed dimension count objective
      rw [← sides.1, ← sides.2]
      exact solved index inside.le
    · rw [← last.1, ← last.2]
      exact solved _ le_rfl
  · rintro ⟨constraints, objectiveRow⟩ index bound
    rcases bound.lt_or_eq with inside | rfl
    · obtain ⟨relation, listed⟩ := fits.exists_relation inside
      have sides := fits.dot_row_primalTableau listed dimension count objective
      rw [sides.1, sides.2, constraints index relation listed]
    · rw [last.1, last.2, objectiveRow]

/-- The rows of the tableau applied to values that are laid out alike, with a factor for the
right-hand sides. -/
theorem Fits.product_primalTableau (fits : program.Fits) {point slacks : List Rat}
    (dimension : point.length = program.objective.length)
    (count : slacks.length = program.constraints.length) (objective last : Rat) :
    let vector := fun column => (point ++ slacks ++ [objective] ++ [last]).getD column 0
    (∀ index relation, program.relations[index]? = some relation →
      program.primalTableau.table.product vector index =
        dot relation.1 point + auxiliarySign relation.2.1 * slacks.getD index 0 +
          relation.2.2 * last) ∧
    program.primalTableau.table.product vector program.constraints.length =
      goalSign program.goal * program.value point + objective := by
  have length : (point ++ slacks ++ [objective]).length =
      program.objective.length + program.constraints.length + 1 := by
    simp [dimension, count, Nat.add_assoc]
  refine ⟨fun index relation listed => ?_, ?_⟩
  · have inside := (List.getElem?_eq_some_iff.1 listed).1
    rw [fits.length_relations] at inside
    have sides := fits.dot_row_primalTableau listed dimension count objective
    rw [fits.sized_primalTableau.product_concat length last inside.le, sides.1, sides.2]
  · have sides := fits.dot_row_primalTableau_objective dimension count objective
    rw [fits.sized_primalTableau.product_concat length last le_rfl, sides.1, sides.2, zero_mul,
      add_zero]

/-- The entries of a constraint's row after its coefficients. -/
theorem Fits.entry_primalTableau (fits : program.Fits) {index : Nat}
    {relation : List Rat × Sense × Rat} (listed : program.relations[index]? = some relation) :
    (∀ slack < program.constraints.length,
      program.primalTableau.table.entry index (program.objective.length + slack) =
        if slack = index then auxiliarySign relation.2.1 else 0) ∧
    program.primalTableau.table.entry index
      (program.objective.length + program.constraints.length) = 0 ∧
    program.primalTableau.table.entry index
      (program.objective.length + program.constraints.length + 1) = relation.2.2 := by
  have member := mem_of_mem_relations (List.mem_of_getElem? listed)
  have width : (unitRow program.constraints.length index
      (auxiliarySign relation.2.1 : Rat)).length = program.constraints.length := by
    simp [unitRow]
  rw [Table.entry, Table.entry, row_primalTableau listed, constraintRow, ← fits.rows _ member.1]
  refine ⟨fun slack inside => ?_, ?_, ?_⟩
  · rw [Table.entry, row_primalTableau listed, constraintRow]
    refine (getD_layout_middle _ _ _ _ (by rwa [width])).trans ?_
    rw [getD_unitRow]
    simp [inside]
  · have factor := getD_layout_factor relation.1
      (unitRow program.constraints.length index (auxiliarySign relation.2.1)) 0 relation.2.2
    rwa [width] at factor
  · have rhs := getD_layout_rhs relation.1
      (unitRow program.constraints.length index (auxiliarySign relation.2.1)) 0 relation.2.2
    rwa [width] at rhs

/-- The entries of a constraint's row before the auxiliary ones are its coefficients. -/
theorem Fits.entry_primalTableau_structural (fits : program.Fits) {index column : Nat}
    {relation : List Rat × Sense × Rat} (listed : program.relations[index]? = some relation)
    (inside : column < program.objective.length) :
    program.primalTableau.table.entry index column = relation.1.getD column 0 := by
  have member := mem_of_mem_relations (List.mem_of_getElem? listed)
  rw [Table.entry, row_primalTableau listed, constraintRow]
  exact getD_layout_front _ _ _ _ (by rwa [fits.rows _ member.1])

/-- The right-hand sides of the tableau are those of the program. -/
theorem Fits.rhs_primalTableau (fits : program.Fits) {index : Nat}
    {relation : List Rat × Sense × Rat} (listed : program.relations[index]? = some relation) :
    program.primalTableau.table.rhs index = relation.2.2 := by
  rw [Table.rhs, fits.sized_primalTableau.rhsColumn_eq]
  exact (fits.entry_primalTableau listed).2.2

/-- The entries of the objective row after its coefficients. -/
theorem Fits.cost_primalTableau (fits : program.Fits) :
    (∀ slack < program.constraints.length,
      program.primalTableau.table.entry program.constraints.length
        (program.objective.length + slack) = 0) ∧
    program.primalTableau.table.entry program.constraints.length
      (program.objective.length + program.constraints.length) = 1 := by
  have front : (program.objective.map (goalSign program.goal * ·)).length =
      program.objective.length := List.length_map _
  rw [Table.entry, fits.row_primalTableau_objective, ← front]
  refine ⟨fun slack inside => ?_, ?_⟩
  · rw [Table.entry, fits.row_primalTableau_objective]
    refine (getD_layout_middle _ _ _ _ (by simpa using inside)).trans ?_
    rw [List.getD_replicate _ inside]
  · have factor := getD_layout_factor (program.objective.map (goalSign program.goal * ·))
      (List.replicate program.constraints.length 0) 1 0
    rwa [List.length_replicate] at factor

/-- The first entries of the objective row are the objective with the sign of the goal, and
its right-hand side is zero. -/
theorem Fits.cost_primalTableau_structural (fits : program.Fits) :
    (∀ column < program.objective.length,
      program.primalTableau.table.entry program.constraints.length column =
        goalSign program.goal * program.objective.getD column 0) ∧
    program.primalTableau.table.entry program.constraints.length
      (program.objective.length + program.constraints.length + 1) = 0 := by
  have front : (program.objective.map (goalSign program.goal * ·)).length =
      program.objective.length := List.length_map _
  rw [Table.entry, fits.row_primalTableau_objective]
  constructor
  · intro column inside
    rw [Table.entry, fits.row_primalTableau_objective]
    refine (getD_layout_front _ _ _ _ (by rwa [front])).trans ?_
    rw [List.getD_eq_getElem _ _ (by rwa [front]), List.getD_eq_getElem _ _ inside,
      List.getElem_map]
  · have rhs := getD_layout_rhs (program.objective.map (goalSign program.goal * ·))
      (List.replicate program.constraints.length 0) 1 0
    rwa [front, List.length_replicate] at rhs

/-- The auxiliary column of a constraint. -/
theorem basic_initialFrame {row : Nat} (inside : row < program.constraints.length) :
    program.initialFrame.basic row = program.objective.length + row := by
  rw [Frame.basic, initialFrame, slackColumns, List.getD_eq_getElem _ _ (by simpa using inside)]
  simp

/-- A standard program starts in a canonical frame. -/
theorem Standard.canonical_initialFrame (standard : program.Standard) (fits : program.Fits) :
    program.initialFrame.Canonical program.constraints.length
      (program.objective.length + program.constraints.length) where
  sized := fits.sized_primalTableau
  tracked := by simp [initialFrame, slackColumns]
  candidate := by
    intro row inside
    rw [basic_initialFrame inside]
    omega
  unit := by
    intro row inside other bound
    rw [basic_initialFrame inside]
    rcases bound.lt_or_eq with constraint | rfl
    · obtain ⟨relation, listed⟩ := fits.exists_relation constraint
      have member := mem_of_mem_relations (List.mem_of_getElem? listed)
      refine ((fits.entry_primalTableau listed).1 row inside).trans ?_
      rw [standard.senses _ member.2.1]
      simp [auxiliarySign, eq_comm]
    · rw [if_neg (by omega)]
      exact fits.cost_primalTableau.1 row inside
  objective := by
    intro row bound
    rcases bound.lt_or_eq with constraint | rfl
    · obtain ⟨relation, listed⟩ := fits.exists_relation constraint
      rw [if_neg (by omega)]
      exact (fits.entry_primalTableau listed).2.1
    · rw [if_pos rfl]
      exact fits.cost_primalTableau.2

/-- A standard program starts with non-negative right-hand sides. -/
theorem Standard.rhsNonnegative_initialFrame (standard : program.Standard)
    (fits : program.Fits) : program.initialFrame.table.RhsNonnegative := by
  intro row inside
  have constraint : row < program.constraints.length :=
    fits.sized_primalTableau.height_eq ▸ inside
  obtain ⟨relation, listed⟩ := fits.exists_relation constraint
  have member := mem_of_mem_relations (List.mem_of_getElem? listed)
  rw [initialFrame, fits.rhs_primalTableau listed]
  exact standard.rhs _ member.2.2

end Program

end Simplex
