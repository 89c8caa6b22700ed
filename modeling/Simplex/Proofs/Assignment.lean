import Simplex.Proofs.Factorization
import Simplex.Proofs.Reading
import Simplex.Proofs.Standard

/-!
# Assignments of right-hand sides

A reading of a table gives the right-hand side of every constraint row to a column picked
for it, which `Frame.taken` says for the scan of the unit columns. Where the picked columns
are unit vectors up to a gap, the rows hold up to the gap, and so do the constraints of a
standard program that the table belongs to.
-/

namespace Simplex

open Finset

namespace Table

/-- The value of a column when every constraint row gives its right-hand side to the column
picked for it. -/
def assigned (table : Table Rat) (pick : Nat → Nat) (column : Nat) : Rat :=
  ∑ row ∈ range table.height, if pick row = column then table.rhs row else 0

/-- The values of the candidates. -/
def assignment (table : Table Rat) (pick : Nat → Nat) (candidates : Nat) : List Rat :=
  (List.range candidates).map (table.assigned pick)

variable {table : Table Rat} {pick : Nat → Nat} {height candidates row column : Nat} {gap : Rat}

@[simp] theorem length_assignment (table : Table Rat) (pick : Nat → Nat) (candidates : Nat) :
    (table.assignment pick candidates).length = candidates := by
  simp [assignment]

theorem getD_assignment (inside : column < candidates) :
    (table.assignment pick candidates).getD column 0 = table.assigned pick column := by
  simp [assignment, inside]

theorem assigned_nonneg (feasible : table.RhsNonnegative) (pick : Nat → Nat) (column : Nat) :
    0 ≤ table.assigned pick column := by
  apply sum_nonneg
  intro row member
  split_ifs
  · exact feasible row (mem_range.1 member)
  · exact le_rfl

theorem nonnegative_assignment (feasible : table.RhsNonnegative) (pick : Nat → Nat)
    (candidates : Nat) : Nonnegative (table.assignment pick candidates) := by
  rw [Nonnegative, assignment, List.forall_mem_map]
  exact fun column _ => assigned_nonneg feasible pick column

/-- The difference between the two sides of a row at the assigned values. -/
theorem Sized.product_assignment (sized : table.Sized height (candidates + 2))
    (inside : ∀ row < height, pick row < candidates) (objective : Rat) (row : Nat) :
    table.product (fun column =>
        (table.assignment pick candidates ++ [objective] ++ [-1]).getD column 0) row =
      (∑ other ∈ range height, table.entry row (pick other) * table.rhs other) +
        table.entry row candidates * objective - table.rhs row := by
  have vector : ∀ column < table.width,
      (table.assignment pick candidates ++ [objective] ++ [-1]).getD column 0 =
        (∑ other ∈ range height, if pick other = column then table.rhs other else 0) +
          (if column = candidates then objective else 0) -
            if column = candidates + 1 then 1 else 0 := by
    intro column bound
    rw [sized.width_eq] at bound
    have unpicked : candidates ≤ column →
        (∑ other ∈ range height, if pick other = column then table.rhs other else 0) = 0 := by
      intro past
      refine sum_eq_zero fun other member => if_neg ?_
      have picked := inside other (mem_range.1 member)
      omega
    rw [getD_append_objective (length_assignment _ _ _)]
    rcases lt_trichotomy column candidates with before | own | last
    · rw [if_pos before, getD_assignment before, assigned, sized.height_eq,
        if_neg before.ne, if_neg (by omega), add_zero, sub_zero]
    · rw [if_neg own.not_lt, if_pos own, unpicked own.ge, if_pos own, if_neg (by omega),
        zero_add, sub_zero]
    · rw [if_neg last.not_gt, if_neg last.ne', if_pos (by omega), unpicked last.le,
        if_neg last.ne', if_pos (by omega), zero_add, zero_sub]
  rw [product_congr vector, product_sub, product_add,
    sized.product_scatter fun other bound => (inside other bound).trans (by omega),
    sized.product_single (by omega), sized.product_single (by omega), mul_one, rhs,
    sized.rhsColumn_eq]

/-- Where the picked columns are unit vectors up to a gap, a constraint row without an entry
for the objective holds up to the gap times all right-hand sides. -/
theorem Sized.abs_product_assignment_le (sized : table.Sized height (candidates + 2))
    (feasible : table.RhsNonnegative) (inside : ∀ row < height, pick row < candidates)
    (bound : row < height) (constraint : table.entry row candidates = 0)
    (near : ∀ other < height,
      |table.entry row (pick other) - if row = other then 1 else 0| ≤ gap) (objective : Rat) :
    |table.product (fun column =>
        (table.assignment pick candidates ++ [objective] ++ [-1]).getD column 0) row| ≤
      gap * ∑ other ∈ range height, table.rhs other := by
  have deviation : table.product (fun column =>
        (table.assignment pick candidates ++ [objective] ++ [-1]).getD column 0) row =
      ∑ other ∈ range height,
        (table.entry row (pick other) - if row = other then 1 else 0) * table.rhs other := by
    rw [sized.product_assignment inside, constraint, zero_mul, add_zero]
    simp only [sub_mul, sum_sub_distrib, ite_mul, one_mul, zero_mul]
    rw [sum_ite_eq, if_pos (mem_range.2 bound)]
  rw [deviation]
  calc |∑ other ∈ range height,
          (table.entry row (pick other) - if row = other then 1 else 0) * table.rhs other|
      ≤ ∑ other ∈ range height,
          |(table.entry row (pick other) - if row = other then 1 else 0) * table.rhs other| :=
        abs_sum_le_sum_abs _ _
    _ ≤ ∑ other ∈ range height, gap * table.rhs other := by
        apply sum_le_sum
        intro other member
        have nonnegative := feasible other (sized.height_eq ▸ mem_range.1 member)
        rw [abs_mul, abs_of_nonneg nonnegative]
        exact mul_le_mul_of_nonneg_right (near other (mem_range.1 member)) nonnegative
    _ = gap * ∑ other ∈ range height, table.rhs other := (mul_sum _ _ _).symm

/-- Values that unit columns assign solve the rows, with the objective that the objective row
shows once the costs of those columns are taken off. -/
theorem Sized.satisfied_assignment (sized : table.Sized height (candidates + 2))
    (objective : ∀ row ≤ height, table.entry row candidates = if row = height then 1 else 0)
    (inside : ∀ row < height, pick row < candidates)
    (unit : ∀ row < height, ∀ other < height,
      table.entry other (pick row) = if other = row then 1 else 0) :
    table.Satisfied (table.assignment pick candidates ++
      [table.rhs height - ∑ row ∈ range height, table.cost (pick row) * table.rhs row]) := by
  rw [sized.satisfied_iff_annihilates (by simp)]
  intro row bound
  rw [sized.height_eq] at bound
  rw [sized.product_assignment inside, objective row bound]
  rcases bound.lt_or_eq with constraint | rfl
  · have own : ∑ other ∈ range height, table.entry row (pick other) * table.rhs other =
        if row < height then table.rhs row else 0 :=
      sum_entry_place fun other member _ => unit other member row constraint
    rw [own, if_pos constraint, if_neg constraint.ne, zero_mul, add_zero, sub_self]
  · simp only [cost, sized.height_eq, if_true]
    ring

end Table

namespace Frame

/-- The column that the scan of the first columns takes for a row; where it takes none, the
basic column. -/
def taken (frame : Frame Rat) (columns structural row : Nat) : Nat :=
  (frame.table.basicColumn? Table.unitTolerance columns structural row).getD (frame.basic row)

namespace Canonical

variable {frame : Frame Rat} {height candidates columns structural row column : Nat}

/-- The basic column of a row is one of its unit columns. -/
theorem isUnitColumn_basic (canonical : frame.Canonical height candidates)
    (inside : row < height) :
    frame.table.IsUnitColumn Table.unitTolerance row (frame.basic row) := by
  have constraint : row < frame.table.height := canonical.sized.height_eq.symm ▸ inside
  rw [Table.isUnitColumn_iff constraint, canonical.sized.height_eq]
  intro other bound
  rw [canonical.unit row inside other bound.le, sub_self, abs_zero]
  exact Table.unitTolerance_pos

/-- The column taken for a row is one of its unit columns. -/
theorem isUnitColumn_taken (canonical : frame.Canonical height candidates)
    (inside : row < height) :
    frame.table.IsUnitColumn Table.unitTolerance row (frame.taken columns structural row) := by
  unfold taken
  cases basic : frame.table.basicColumn? Table.unitTolerance columns structural row with
  | none => exact canonical.isUnitColumn_basic inside
  | some column => exact (Table.isUnitColumn_of_basicColumn? basic).2

theorem taken_lt (canonical : frame.Canonical height candidates) (fits : columns ≤ candidates)
    (inside : row < height) : frame.taken columns structural row < candidates := by
  unfold taken
  cases basic : frame.table.basicColumn? Table.unitTolerance columns structural row with
  | none => exact canonical.candidate row inside
  | some column => exact (Table.isUnitColumn_of_basicColumn? basic).1.trans_le fits

/-- Among the scanned columns the scan itself decides which one is taken. -/
theorem taken_eq_iff (canonical : frame.Canonical height candidates) (inside : row < height)
    (scanned : column < columns) :
    frame.taken columns structural row = column ↔
      frame.table.basicColumn? Table.unitTolerance columns structural row = some column := by
  unfold taken
  cases basic : frame.table.basicColumn? Table.unitTolerance columns structural row with
  | some other => simp
  | none =>
    have different : frame.basic row ≠ column := by
      rintro rfl
      exact Table.basicColumn?_eq_none_iff.1 basic _ scanned (canonical.isUnitColumn_basic inside)
    simp [different]

/-- The column taken for a row is nearly its unit vector. -/
theorem abs_entry_taken_sub_le (canonical : frame.Canonical height candidates)
    (inside : row < height) {other : Nat} (bound : other < height) :
    |frame.table.entry other (frame.taken columns structural row) -
      if other = row then 1 else 0| ≤ Table.unitTolerance := by
  rw [← canonical.sized.height_eq] at bound
  have constraint : row < frame.table.height := canonical.sized.height_eq.symm ▸ inside
  exact ((Table.isUnitColumn_iff constraint).1 (canonical.isUnitColumn_taken inside) other bound).le

/-- Where the scanned columns are separated, the column taken for a row is its unit vector. -/
theorem entry_taken (canonical : frame.Canonical height candidates)
    (separated : frame.table.Separated columns) (inside : row < height) {other : Nat}
    (bound : other < height) :
    frame.table.entry other (frame.taken columns structural row) =
      if other = row then 1 else 0 := by
  unfold taken
  cases basic : frame.table.basicColumn? Table.unitTolerance columns structural row with
  | none => exact canonical.unit row inside other bound.le
  | some column =>
    obtain ⟨scanned, unit⟩ := Table.isUnitColumn_of_basicColumn? basic
    rw [← canonical.sized.height_eq] at inside bound
    exact separated.entry_eq scanned inside unit other bound

/-- Values that unit columns of a canonical frame assign solve its rows. -/
theorem satisfied_assignment (canonical : frame.Canonical height candidates) {pick : Nat → Nat}
    (inside : ∀ row < height, pick row < candidates)
    (unit : ∀ row < height, ∀ other < height,
      frame.table.entry other (pick row) = if other = row then 1 else 0) :
    frame.table.Satisfied (frame.table.assignment pick candidates ++
      [frame.table.rhs height -
        ∑ row ∈ range height, frame.table.cost (pick row) * frame.table.rhs row]) :=
  canonical.sized.satisfied_assignment canonical.objective inside unit

/-- Where the scanned columns are separated and all of them structural, a column with a cost is
taken only for a row whose basic column is not scanned. -/
theorem le_basic_of_cost_taken_ne_zero (canonical : frame.Canonical height candidates)
    (separated : frame.table.Separated columns) (inside : row < height)
    (costly : frame.table.cost (frame.taken columns columns row) ≠ 0) :
    frame.taken columns columns row < columns ∧ columns ≤ frame.basic row := by
  unfold taken at costly ⊢
  cases basic : frame.table.basicColumn? Table.unitTolerance columns columns row with
  | none =>
    rw [basic, Option.getD_none, canonical.cost_basic inside] at costly
    exact absurd rfl costly
  | some column =>
    rw [basic, Option.getD_some] at costly
    have scanned := (Table.isUnitColumn_of_basicColumn? basic).1
    refine ⟨scanned, not_lt.1 fun free => costly ?_⟩
    have vanishes : |frame.table.cost (frame.basic row)| < Table.unitTolerance := by
      rw [canonical.cost_basic inside, abs_zero]
      exact Table.unitTolerance_pos
    have small := (Table.cost_of_basicColumn? basic free (canonical.isUnitColumn_basic inside)
      free vanishes).2
    exact separated.zero _ le_rfl column scanned small

/-- The value written for a scanned column is the one that the taken columns assign to it. -/
theorem lastWritten_basicWrites_eq (canonical : frame.Canonical height candidates)
    {tableau : Tableau Rat} (table : tableau.table = frame.table)
    (distinct : tableau.names.Nodup) (fits : columns ≤ tableau.candidates)
    (scanned : column < columns) :
    Tableau.lastWritten (tableau.basicWrites columns) (tableau.names.getD column "") =
      frame.table.assigned (frame.taken columns tableau.structural.length) column := by
  rw [Tableau.lastWritten_basicWrites distinct fits scanned, table, Table.assigned]
  apply sum_congr rfl
  intro row member
  have inside : row < height := canonical.sized.height_eq ▸ mem_range.1 member
  simp only [canonical.taken_eq_iff inside scanned]

end Canonical

end Frame

namespace Program

variable {program : Program Rat}

/-- The magnitudes of a constraint's row under the candidates: those of its coefficients and
the one of its auxiliary variable. -/
theorem Standard.sum_abs_entry (standard : program.Standard) (fits : program.Fits) {index : Nat}
    {relation : List Rat × Sense × Rat} (listed : program.relations[index]? = some relation) :
    ∑ column ∈ range (program.objective.length + program.constraints.length),
      |program.primalTableau.table.entry index column| = absSum relation.1 + 1 := by
  have member := mem_of_mem_relations (List.mem_of_getElem? listed)
  have inside := (List.getElem?_eq_some_iff.1 listed).1
  rw [fits.length_relations] at inside
  rw [sum_range_add, absSum_eq_sum, fits.rows _ member.1]
  congr 1
  · apply sum_congr rfl
    intro column structural
    rw [fits.entry_primalTableau_structural listed (mem_range.1 structural)]
  · have auxiliary : ∀ slack ∈ range program.constraints.length,
        |program.primalTableau.table.entry index (program.objective.length + slack)| =
          if slack = index then 1 else 0 := by
      intro slack slackMember
      rw [(fits.entry_primalTableau listed).1 slack (mem_range.1 slackMember),
        standard.sense_eq (List.mem_of_getElem? listed), auxiliarySign]
      split_ifs <;> simp
    rw [sum_congr rfl auxiliary, sum_ite_eq', if_pos (mem_range.2 inside)]

end Program

/-- An initial constraint row holds at the assigned values up to the gap of the picked columns
times all right-hand sides and all entries of the row. -/
theorem Frame.Canonical.abs_product_initial_assignment_le {frame : Frame Rat}
    {initial : Table Rat} {height candidates row : Nat} {pick : Nat → Nat} {gap : Rat}
    (canonical : frame.Canonical height candidates)
    (equivalent : Table.RowEquivalent height (candidates + 2) initial frame.table)
    (sized : initial.Sized height (candidates + 2)) (feasible : frame.table.RhsNonnegative)
    (nonnegative : 0 ≤ gap) (inside : ∀ row < height, pick row < candidates)
    (near : ∀ row < height, ∀ other < height,
      |frame.table.entry other (pick row) - if other = row then 1 else 0| ≤ gap)
    (bound : row < height) (constraint : initial.entry row candidates = 0) :
    |initial.product (fun column =>
        (frame.table.assignment pick candidates ++ [0] ++ [-1]).getD column 0) row| ≤
      (∑ column ∈ range candidates, |initial.entry row column|) *
        (gap * ∑ other ∈ range height, frame.table.rhs other) := by
  have total : 0 ≤ ∑ other ∈ range height, frame.table.rhs other := by
    apply sum_nonneg
    intro other member
    exact feasible other (canonical.sized.height_eq.symm ▸ mem_range.1 member)
  refine canonical.abs_product_initial_le equivalent sized (mul_nonneg nonnegative total) ?_
    bound.le constraint
  intro other otherBound
  refine canonical.sized.abs_product_assignment_le feasible inside otherBound ?_ ?_ 0
  · rw [canonical.objective other otherBound.le, if_neg otherBound.ne]
  · exact fun row rowBound => near row rowBound other otherBound

/-- In a frame of a standard program, columns that are picked for the rows and are unit
vectors up to a gap assign values that satisfy every constraint up to the gap times all
right-hand sides of the frame and the size of the constraint. -/
theorem Frame.Describes.dot_assigned_le {program : Program Rat} {frame : Frame Rat}
    (describes : frame.Describes program) (standard : program.Standard) (fits : program.Fits)
    {pick : Nat → Nat} {gap : Rat} (nonnegative : 0 ≤ gap)
    (inside : ∀ row < program.constraints.length,
      pick row < program.objective.length + program.constraints.length)
    (near : ∀ row < program.constraints.length, ∀ other < program.constraints.length,
      |frame.table.entry other (pick row) - if other = row then 1 else 0| ≤ gap) :
    ∀ relation ∈ program.relations,
      dot relation.1 ((List.range program.objective.length).map (frame.table.assigned pick)) ≤
        relation.2.2 + gap * (∑ row ∈ range program.constraints.length, frame.table.rhs row) *
          (absSum relation.1 + 1) := by
  intro relation member
  obtain ⟨index, listed⟩ := List.mem_iff_getElem?.1 member
  have bound := (List.getElem?_eq_some_iff.1 listed).1
  rw [fits.length_relations] at bound
  let candidates := program.objective.length + program.constraints.length
  let point := (List.range program.objective.length).map (frame.table.assigned pick)
  let slacks := (List.range program.constraints.length).map fun slack =>
    frame.table.assigned pick (program.objective.length + slack)
  have split : frame.table.assignment pick candidates = point ++ slacks := by
    simp [Table.assignment, candidates, List.range_add, point, slacks]
  have slack : 0 ≤ slacks.getD index 0 := by
    apply nonnegative_iff_getD.1
    rw [Nonnegative, List.forall_mem_map]
    exact fun slack _ => Table.assigned_nonneg describes.feasible pick _
  have initial := describes.canonical.abs_product_initial_assignment_le describes.equivalent
    fits.sized_primalTableau describes.feasible nonnegative inside near bound
    (fits.entry_primalTableau listed).2.1
  have dimension : point.length = program.objective.length := by simp [point]
  have count : slacks.length = program.constraints.length := by simp [slacks]
  have equation := (fits.product_primalTableau dimension count 0 (-1)).1 index relation listed
  rw [standard.sum_abs_entry fits listed, split, equation, standard.sense_eq member,
    Program.auxiliarySign] at initial
  have upper := (le_abs_self _).trans initial
  change dot relation.1 point ≤ _
  linarith

end Simplex
