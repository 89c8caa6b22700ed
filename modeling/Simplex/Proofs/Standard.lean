import Simplex.Proofs.Equivalence

/-!
# Runs of standard programs

Every frame that a run from the tableau of a standard program reaches is canonical, has
non-negative right-hand sides and the solutions of the program (`Frame.Describes`). Its
basic point is feasible, and its objective row bounds the objective at every feasible
point.
-/

namespace Simplex

open Finset Table

/-- The frame is canonical and feasible, and its table is a form of the program. -/
structure Frame.Describes (program : Program Rat) (frame : Frame Rat) : Prop where
  canonical : frame.Canonical program.constraints.length
    (program.objective.length + program.constraints.length)
  feasible : frame.table.RhsNonnegative
  equivalent : RowEquivalent program.constraints.length
    (program.objective.length + program.constraints.length + 2)
    program.primalTableau.table frame.table

namespace Program

variable {program : Program Rat} {options : Options Rat}

/-- Every frame of a run from the table of a standard program describes it. -/
theorem Standard.describes_frames (standard : program.Standard) (fits : program.Fits)
    {tableau : Tableau Rat} (table : tableau.table = program.primalTableau.table)
    (candidates : tableau.candidates =
      program.objective.length + program.constraints.length) :
    ∀ frame ∈ (tableau.run options).frames program.slackColumns, frame.Describes program := by
  refine Tableau.frames_induction ?_ ?_
  · rw [table]
    exact ⟨standard.canonical_initialFrame fits, standard.rhsNonnegative_initialFrame fits,
      fits.sized_primalTableau.rowEquivalent_self⟩
  · intro frame row column describes chosen
    rw [candidates] at chosen
    obtain ⟨inside, candidate, positive, -⟩ := describes.canonical.chooses chosen
    exact ⟨describes.canonical.exchange inside candidate positive.ne',
      describes.feasible.pivot describes.canonical.sized chosen.leaving,
      describes.equivalent.pivot inside.le positive.ne'⟩

/-- A run that returns ends in a frame that describes the program and in which no objective
entry of a candidate is below minus the tolerance. -/
theorem Standard.describes_final (standard : program.Standard) (fits : program.Fits)
    {tableau final : Tableau Rat} (table : tableau.table = program.primalTableau.table)
    (candidates : tableau.candidates =
      program.objective.length + program.constraints.length)
    (returned : (tableau.run options).outcome = .ok final) :
    ∃ frame ∈ (tableau.run options).frames program.slackColumns,
      frame.Describes program ∧ final.table = frame.table ∧
      frame.basis = (tableau.run options).basis program.slackColumns ∧
      ∀ column < program.objective.length + program.constraints.length,
        -options.tolerance ≤ frame.table.cost column := by
  obtain ⟨last, ends, basis, outcome⟩ :=
    Tableau.ends_run options tableau program.slackColumns
  have recorded := List.mem_of_getLast? ends
  have describes := standard.describes_frames fits table candidates last recorded
  rw [returned, candidates] at outcome
  exact ⟨last, recorded, describes, outcome.1, basis,
    (describes.canonical.sized.entering?_eq_none_iff (by omega)).1 outcome.2⟩

theorem getD_slacks (point : List Rat) {index : Nat} {relation : List Rat × Sense × Rat}
    (listed : program.relations[index]? = some relation) :
    (program.slacks point).getD index 0 = relation.2.2 - dot relation.1 point := by
  simp [slacks, listed]

theorem Fits.length_slacks (fits : program.Fits) (point : List Rat) :
    (program.slacks point).length = program.constraints.length := by
  simp [slacks, fits.length_relations]

theorem Standard.sense_eq (standard : program.Standard) {relation : List Rat × Sense × Rat}
    (member : relation ∈ program.relations) : relation.2.1 = .atMost :=
  standard.senses _ (mem_of_mem_relations member).2.1

/-- At a non-negative point a standard program is feasible exactly when no slack is
negative. -/
theorem Standard.feasible_iff (standard : program.Standard) {point : List Rat}
    (dimension : point.length = program.objective.length) :
    program.Feasible point ↔ Nonnegative point ∧ Nonnegative (program.slacks point) := by
  have constraints : Nonnegative (program.slacks point) ↔ ∀ relation ∈ program.relations,
      relation.2.1.Holds (dot relation.1 point) relation.2.2 := by
    rw [Nonnegative, slacks, List.forall_mem_map]
    refine forall₂_congr fun relation member => ?_
    rw [standard.sense_eq member, Sense.Holds, sub_nonneg]
  rw [constraints]
  exact ⟨fun feasible => ⟨feasible.nonnegative, feasible.satisfied⟩,
    fun holds => ⟨dimension, holds.1, holds.2⟩⟩

/-- Values solve the tableau of a standard program exactly when they are a point, its
slacks and its objective. -/
theorem Standard.satisfied_primalTableau_iff (standard : program.Standard) (fits : program.Fits)
    {point slacks : List Rat} (dimension : point.length = program.objective.length)
    (count : slacks.length = program.constraints.length) (objective : Rat) :
    program.primalTableau.table.Satisfied (point ++ slacks ++ [objective]) ↔
      slacks = program.slacks point ∧ objective = program.signedValue point := by
  rw [fits.satisfied_primalTableau dimension count, goalSign_mul_value_add_eq_zero_iff]
  refine and_congr_left fun _ => ?_
  constructor
  · intro equations
    refine List.ext_getElem (by rw [count, fits.length_slacks]) fun index inside other => ?_
    obtain ⟨relation, listed⟩ := fits.exists_relation (count ▸ inside)
    have equation := equations index relation listed
    rw [standard.sense_eq (List.mem_of_getElem? listed), auxiliarySign, one_mul] at equation
    rw [← List.getD_eq_getElem _ 0 inside, ← List.getD_eq_getElem _ 0 other,
      getD_slacks point listed]
    linarith
  · rintro rfl index relation listed
    rw [standard.sense_eq (List.mem_of_getElem? listed), auxiliarySign, one_mul,
      getD_slacks point listed]
    ring

end Program

namespace Frame.Describes

variable {program : Program Rat} {frame : Frame Rat}

/-- Non-negative values that solve the rows consist of a feasible point and its slacks, with
its objective after them. -/
theorem feasible_of_satisfied (describes : frame.Describes program)
    (standard : program.Standard) (fits : program.Fits) {values : List Rat} {objective : Rat}
    (length : values.length = program.objective.length + program.constraints.length)
    (nonnegative : Nonnegative values)
    (satisfied : frame.table.Satisfied (values ++ [objective])) :
    ∃ point, values = point ++ program.slacks point ∧ program.Feasible point ∧
      objective = program.signedValue point := by
  obtain ⟨point, slacks, rfl, dimension, count⟩ := exists_append_of_length length
  have fitting : (point ++ slacks ++ [objective]).length =
      program.objective.length + program.constraints.length + 1 := by
    rw [List.length_append, length, List.length_singleton]
  rw [describes.equivalent.satisfied_iff fits.sized_primalTableau fitting,
    standard.satisfied_primalTableau_iff fits dimension count] at satisfied
  obtain ⟨rfl, objective⟩ := satisfied
  exact ⟨point, rfl,
    (standard.feasible_iff dimension).2 (nonnegative_append.1 nonnegative), objective⟩

/-- The basic point consists of a feasible point and its slacks, and the objective row
shows its objective. -/
theorem exists_point (describes : frame.Describes program) (standard : program.Standard)
    (fits : program.Fits) :
    ∃ point, frame.point (program.objective.length + program.constraints.length) =
        point ++ program.slacks point ∧
      program.Feasible point ∧
      frame.table.rhs program.constraints.length = program.signedValue point :=
  describes.feasible_of_satisfied standard fits (frame.length_point _)
    (describes.canonical.nonnegative_point describes.feasible)
    describes.canonical.satisfied_point

/-- Where no candidate's objective entry is below minus the tolerance, the objective row
bounds the objective at every feasible point, up to the tolerance on every unit of a
candidate. -/
theorem signedValue_le (describes : frame.Describes program) (standard : program.Standard)
    (fits : program.Fits) {tolerance : Rat}
    (optimal : ∀ column < program.objective.length + program.constraints.length,
      -tolerance ≤ frame.table.cost column)
    {point : List Rat} (feasible : program.Feasible point) :
    program.signedValue point ≤ frame.table.rhs program.constraints.length +
      tolerance * (point.sum + (program.slacks point).sum) := by
  let candidates := program.objective.length + program.constraints.length
  let values := point ++ program.slacks point
  have nonnegative : Nonnegative values :=
    nonnegative_append.2 ((standard.feasible_iff feasible.dimension).1 feasible)
  have length : values.length = candidates := by
    simp [values, candidates, feasible.dimension, fits.length_slacks]
  have fitting : (values ++ [program.signedValue point]).length = candidates + 1 := by
    simp [length]
  have satisfied : frame.table.Satisfied (values ++ [program.signedValue point]) := by
    rw [describes.equivalent.satisfied_iff fits.sized_primalTableau fitting]
    exact (standard.satisfied_primalTableau_iff fits feasible.dimension
      (fits.length_slacks point) _).2 ⟨rfl, rfl⟩
  have equation := describes.canonical.objective_of_satisfied length satisfied
  have costs : -(tolerance * values.sum) ≤
      ∑ column ∈ range candidates, frame.table.cost column * values.getD column 0 := by
    rw [sum_eq_sum_getD, length, mul_sum, ← sum_neg_distrib]
    apply sum_le_sum
    intro column member
    have scaled := mul_le_mul_of_nonneg_right (optimal column (mem_range.1 member))
      (nonnegative_iff_getD.1 nonnegative column)
    linarith
  have total : values.sum = point.sum + (program.slacks point).sum := List.sum_append
  rw [total] at costs
  linarith

end Frame.Describes

end Simplex
