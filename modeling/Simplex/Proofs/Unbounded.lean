import Simplex.Proofs.Solving
import Simplex.Proofs.Standard

/-!
# Unbounded objectives

A column that improves the objective and that no row bounds is a way to improve it for ever:
its variable grows, every basic variable grows with it or stays, and all rows still hold. A
standard program whose run ends at such a column has feasible points of any objective.
-/

namespace Simplex

open Finset

namespace Frame

variable {frame : Frame Rat} {height candidates source : Nat}

/-- How the candidates change when one of them grows by one and the basic ones make up for
it. -/
def ray (frame : Frame Rat) (candidates source : Nat) : List Rat :=
  (List.range candidates).map fun column => -frame.balance candidates source column

@[simp] theorem length_ray (frame : Frame Rat) (candidates source : Nat) :
    (frame.ray candidates source).length = candidates := by
  simp [ray]

theorem getD_ray (frame : Frame Rat) {candidates column : Nat} (source : Nat)
    (inside : column < candidates) :
    (frame.ray candidates source).getD column 0 = -frame.balance candidates source column := by
  simp [ray, inside]

namespace Canonical

/-- Where no row bounds a nonbasic column, nothing falls when it grows. -/
theorem nonnegative_ray (canonical : frame.Canonical height candidates)
    (nonbasic : source ∉ frame.basis)
    (unbounded : ∀ row < height, frame.table.entry row source ≤ 0) :
    Nonnegative (frame.ray candidates source) := by
  rw [Nonnegative, ray, List.forall_mem_map]
  intro column member
  have inside := List.mem_range.1 member
  by_cases basic : column ∈ frame.basis
  · obtain ⟨row, rowInside, rfl⟩ := canonical.mem_basis_iff.1 basic
    have different : frame.basic row ≠ source := fun same => nonbasic (same ▸ basic)
    rw [canonical.balance_basic rowInside, if_neg different, sub_zero]
    exact neg_nonneg.2 (unbounded row rowInside)
  · rw [canonical.balance_nonbasic basic inside.ne, neg_neg]
    split_ifs <;> norm_num

/-- The ray of a column and the change of the objective solve the homogeneous equations of
all rows. -/
theorem annihilates_ray (canonical : frame.Canonical height candidates)
    (inside : source < candidates) :
    frame.table.Annihilates fun column =>
      (frame.ray candidates source ++ [-frame.table.cost source] ++ [0]).getD column 0 := by
  have vanish := canonical.annihilates_balance (inside.trans (by omega))
  have negated : frame.table.Annihilates fun column =>
      0 - frame.balance candidates source column := by
    intro row bound
    rw [Table.product_sub, vanish row bound]
    simp [Table.product]
  refine (Table.annihilates_congr fun column bound => ?_).1 negated
  rw [canonical.sized.width_eq] at bound
  rw [zero_sub]
  rcases lt_or_ge column candidates with candidate | past
  · rw [List.append_assoc, List.getD_append _ _ _ _ (by simpa using candidate),
      getD_ray _ _ candidate]
  · rw [List.append_assoc, List.getD_append_right _ _ _ _ (by simpa using past), length_ray]
    obtain rfl | rfl : column = candidates ∨ column = candidates + 1 := by omega
    · rw [canonical.balance_objective inside.ne]
      simp
    · rw [canonical.balance_nonbasic (canonical.notMem_basis (by omega)) (by omega),
        if_neg (by omega)]
      simp

end Canonical

/-- In a frame of a standard program, a column that improves the objective and that no row
bounds gives a direction in which every constraint keeps holding and the objective
improves. -/
theorem Describes.exists_direction {program : Program Rat} (describes : frame.Describes program)
    (standard : program.Standard) (fits : program.Fits)
    (inside : source < program.objective.length + program.constraints.length)
    (improving : frame.table.cost source < 0)
    (unbounded : ∀ row < program.constraints.length, frame.table.entry row source ≤ 0) :
    ∃ direction, direction.length = program.objective.length ∧ Nonnegative direction ∧
      (∀ coefficients ∈ program.constraints, dot coefficients direction ≤ 0) ∧
      0 < program.signedValue direction := by
  have canonical := describes.canonical
  let candidates := program.objective.length + program.constraints.length
  obtain ⟨direction, slacks, split, dimension, count⟩ :=
    exists_append_of_length (frame.length_ray candidates source)
  have nonbasic : source ∉ frame.basis := by
    intro basic
    obtain ⟨row, rowInside, rfl⟩ := canonical.mem_basis_iff.1 basic
    exact improving.ne (canonical.cost_basic rowInside)
  have nonnegative := canonical.nonnegative_ray nonbasic unbounded
  have vanish := (describes.equivalent.annihilates _).1 (canonical.annihilates_ray inside)
  change Nonnegative (frame.ray candidates source) at nonnegative
  rw [split, nonnegative_append] at nonnegative
  change program.primalTableau.table.Annihilates fun column =>
    (frame.ray candidates source ++ [-frame.table.cost source] ++ [0]).getD column 0 at vanish
  rw [split] at vanish
  obtain ⟨constraintRows, objectiveRow⟩ :=
    fits.product_primalTableau dimension count (-frame.table.cost source) 0
  have height := fits.sized_primalTableau.height_eq
  refine ⟨direction, dimension, nonnegative.1, ?_, ?_⟩
  · intro coefficients member
    obtain ⟨index, rowInside, rfl⟩ := List.getElem_of_mem member
    obtain ⟨relation, listed⟩ := fits.exists_relation rowInside
    have own : program.constraints[index] = relation.1 := by
      have row := (List.getElem?_zip_eq_some.1 listed).1
      rwa [List.getElem?_eq_getElem rowInside, Option.some.injEq] at row
    have equation := constraintRows index relation listed
    rw [vanish index (by omega), standard.sense_eq (List.mem_of_getElem? listed),
      Program.auxiliarySign] at equation
    have slack := nonnegative_iff_getD.1 nonnegative.2 index
    rw [own]
    linarith
  · rw [vanish _ height.ge, eq_comm, Program.goalSign_mul_value_add_eq_zero_iff] at objectiveRow
    rw [← objectiveRow]
    exact neg_pos.2 improving

end Frame

namespace Program

variable {program : Program Rat} {point direction : List Rat}

/-- A standard program stays feasible along a non-negative direction that raises no left
side. -/
theorem Standard.feasible_along (standard : program.Standard) (feasible : program.Feasible point)
    (dimension : direction.length = program.objective.length) (nonnegative : Nonnegative direction)
    (lowers : ∀ coefficients ∈ program.constraints, dot coefficients direction ≤ 0)
    {times : Rat} (forward : 0 ≤ times) : program.Feasible (along point direction times) := by
  have fits : point.length = direction.length := feasible.dimension.trans dimension.symm
  refine ⟨by simp [feasible.dimension, dimension], ?_, fun relation member => ?_⟩
  · intro value member
    obtain ⟨index, inside, rfl⟩ := List.getElem_of_mem member
    have bound : index < point.length ∧ index < direction.length := by
      simpa using inside
    simp only [along, List.getElem_zipWith]
    exact add_nonneg (feasible.nonnegative _ (List.getElem_mem bound.1))
      (mul_nonneg forward (nonnegative _ (List.getElem_mem bound.2)))
  · have holds := feasible.satisfied relation member
    have change := mul_nonneg forward
      (neg_nonneg.2 (lowers relation.1 (mem_of_mem_relations member).1))
    rw [standard.sense_eq member, Sense.Holds] at holds ⊢
    rw [dot_along relation.1 fits]
    linarith

theorem signedValue_along (fits : point.length = direction.length) (times : Rat) :
    program.signedValue (along point direction times) =
      program.signedValue point + times * program.signedValue direction := by
  unfold signedValue value
  rw [dot_along _ fits]
  cases program.goal with
  | maximize => rfl
  | minimize => ring

/-- A run of a standard program that ends unbounded leaves a feasible point and an improving
direction. -/
theorem Standard.exists_ray (standard : program.Standard) (fits : program.Fits)
    {options : Options Rat} (tolerance : 0 ≤ options.tolerance) {column : Nat}
    (unbounded : (program.primalTableau.run options).outcome = .error (.unbounded column)) :
    ∃ point direction, program.Feasible point ∧ direction.length = program.objective.length ∧
      Nonnegative direction ∧
      (∀ coefficients ∈ program.constraints, dot coefficients direction ≤ 0) ∧
      0 < program.signedValue direction := by
  obtain ⟨last, ends, -, outcome⟩ :=
    Tableau.ends_run options program.primalTableau program.slackColumns
  have describes := standard.describes_frames fits rfl fits.candidates_primalTableau last
    (List.mem_of_getLast? ends)
  rw [unbounded, fits.candidates_primalTableau] at outcome
  have sized := describes.canonical.sized
  obtain ⟨candidate, improving⟩ := sized.cost_of_entering? (by omega) outcome.1
  have bounded := Table.leaving?_eq_none_iff.1 outcome.2
  rw [sized.height_eq] at bounded
  obtain ⟨point, -, feasible, -⟩ := describes.exists_point standard fits
  obtain ⟨direction, properties⟩ :=
    describes.exists_direction standard fits candidate (by linarith) bounded
  exact ⟨point, direction, feasible, properties⟩

/-- When the primal method finds a standard program unbounded, the program has a feasible
point and a direction along which every point is feasible and the objective improves without
end. -/
theorem ray_of_unbounded_solve (program : Program Rat) (options : Options Rat)
    (senses : ∀ sense ∈ program.senses, sense = .atMost) (rhs : Nonnegative program.rhs)
    (tolerance : 0 ≤ options.tolerance) {column : Nat}
    (unbounded : program.solve .primal options = .error (.run (.unbounded column))) :
    (∃ point direction, program.Feasible point ∧
      direction.length = program.objective.length ∧ Nonnegative direction ∧
      (∀ coefficients ∈ program.constraints, dot coefficients direction ≤ 0) ∧
      (match program.goal with
        | .maximize => 0 < program.value direction
        | .minimize => program.value direction < 0) ∧
      ∀ times, 0 ≤ times → program.Feasible (along point direction times) ∧
        program.value (along point direction times) =
          program.value point + times * program.value direction) ∧
    ∀ bound, ∃ point, program.Feasible point ∧
      match program.goal with
      | .maximize => bound < program.value point
      | .minimize => program.value point < bound := by
  obtain ⟨tableau, checked, started, outcome⟩ := exists_tableau_of_solve unbounded
  have fits := (check_eq_ok_iff program).1 checked
  have standard : program.Standard := ⟨senses, rhs⟩
  obtain rfl : program.primalTableau = tableau := by
    simpa [Program.tableau, checked] using started
  obtain ⟨point, direction, feasible, dimension, nonnegative, lowers, improves⟩ :=
    standard.exists_ray fits tolerance outcome
  have lengths : point.length = direction.length := feasible.dimension.trans dimension.symm
  have stays : ∀ {times}, 0 ≤ times → program.Feasible (along point direction times) :=
    standard.feasible_along feasible dimension nonnegative lowers
  refine ⟨⟨point, direction, feasible, dimension, nonnegative, lowers, ?_, ?_⟩, ?_⟩
  · unfold signedValue at improves
    cases goal : program.goal <;> simp only [goal] at improves ⊢ <;> linarith
  · intro times forward
    exact ⟨stays forward, dot_along _ lengths times⟩
  · intro bound
    -- Far enough along the direction every signed objective is exceeded.
    have exceeds : ∀ level, ∃ other, program.Feasible other ∧
        level < program.signedValue other := by
      intro level
      let rise := |level - program.signedValue point| + 1
      have positive : 0 < rise := by positivity
      refine ⟨_, stays (div_nonneg positive.le improves.le), ?_⟩
      rw [signedValue_along lengths, div_mul_cancel₀ _ improves.ne']
      have gap := le_abs_self (level - program.signedValue point)
      linarith
    unfold signedValue at exceeds
    cases goal : program.goal with
    | maximize =>
      simp only [goal] at exceeds
      exact exceeds bound
    | minimize =>
      simp only [goal] at exceeds
      obtain ⟨other, otherFeasible, above⟩ := exceeds (-bound)
      exact ⟨other, otherFeasible, neg_lt_neg_iff.1 above⟩

/-- A program whose single constraint bounds one variable only from the other's side, written
as a minimum. -/
def openWedge : Program Rat where
  objective := [-1, -1]
  constraints := [[1, -1]]
  senses := [.atMost]
  rhs := [1]
  goal := .minimize
  names := []

/-- One pivot leads `openWedge` to its unbounded column, so its objective has no least
value. -/
theorem ray_openWedge :
    openWedge.solve .primal .default = .error (.run (.unbounded 1)) ∧
      ∀ bound, ∃ point, openWedge.Feasible point ∧ openWedge.value point < bound := by
  have unbounded : openWedge.solve .primal .default = .error (.run (.unbounded 1)) := by
    decide +kernel
  have tolerance : (0 : Rat) ≤ (Options.default : Options Rat).tolerance := by decide +kernel
  exact ⟨unbounded,
    (ray_of_unbounded_solve openWedge .default (by decide) (by decide) tolerance unbounded).2⟩

end Program

end Simplex
