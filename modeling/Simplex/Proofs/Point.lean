import Simplex.Proofs.Canonical
import Simplex.Proofs.Feasible

/-!
# The basic point

The point that a table and its basic columns describe: every basic column has the
right-hand side of its row and every other candidate is zero. In a canonical frame it
solves all rows, with the objective-row value for the objective variable.
-/

namespace Simplex

/-- The candidates' values when every basic column takes the right-hand side of its row
and the others are zero. -/
def Table.basicPoint {α : Type} [Scalar α] (table : Table α) (basis : List Nat)
    (candidates : Nat) : List α :=
  (List.range candidates).map fun column =>
    match basis.idxOf? column with
    | some row => table.rhs row
    | none => 0

@[simp] theorem Table.length_basicPoint {α : Type} [Scalar α] (table : Table α)
    (basis : List Nat) (candidates : Nat) :
    (table.basicPoint basis candidates).length = candidates := by
  simp [Table.basicPoint]

namespace Frame

/-- The basic point of a frame. -/
def point (frame : Frame Rat) (candidates : Nat) : List Rat :=
  frame.table.basicPoint frame.basis candidates

variable {frame : Frame Rat} {height candidates row column : Nat}

@[simp] theorem length_point (frame : Frame Rat) (candidates : Nat) :
    (frame.point candidates).length = candidates :=
  Table.length_basicPoint _ _ _

namespace Canonical

/-- The basic point is the balance of the right-hand column. -/
theorem getD_point (canonical : frame.Canonical height candidates)
    (inside : column < candidates) :
    (frame.point candidates).getD column 0 = frame.balance candidates (candidates + 1) column := by
  have listed : column < (frame.point candidates).length := by simpa using inside
  rw [List.getD_eq_getElem _ _ listed]
  simp only [point, Table.basicPoint, List.getElem_map, List.getElem_range]
  cases found : frame.basis.idxOf? column with
  | none =>
    have nonbasic : column ∉ frame.basis := List.idxOf?_eq_none_iff.1 found
    rw [canonical.balance_nonbasic nonbasic (by omega), if_neg (by omega), neg_zero]
  | some row =>
    obtain ⟨tracked, basic, -⟩ := List.idxOf?_eq_some_iff.1 found
    have own : frame.basic row = column := (List.getD_eq_getElem _ _ tracked).trans basic
    rw [← own, canonical.balance_basic (canonical.tracked ▸ tracked), own, if_neg (by omega),
      sub_zero]
    exact canonical.rhs_eq row

/-- The column that is basic in a row has the right-hand side of that row. -/
theorem getD_point_basic (canonical : frame.Canonical height candidates)
    (inside : row < height) :
    (frame.point candidates).getD (frame.basic row) 0 = frame.table.rhs row := by
  have candidate := canonical.candidate row inside
  rw [canonical.getD_point candidate, canonical.balance_basic inside, if_neg (by omega),
    sub_zero, canonical.rhs_eq]

/-- The entry of the basic point for a column that is listed as basic. -/
theorem getElem?_point (canonical : frame.Canonical height candidates)
    (basic : frame.basis[row]? = some column) :
    (frame.point candidates)[column]? = some (frame.table.rhs row) := by
  obtain ⟨inside, listed⟩ := List.getElem?_eq_some_iff.1 basic
  have own : frame.basic row = column := (List.getD_eq_getElem _ _ inside).trans listed
  rw [canonical.tracked] at inside
  have present : column < (frame.point candidates).length := by
    rw [length_point, ← own]
    exact canonical.candidate row inside
  rw [List.getElem?_eq_getElem present, ← List.getD_eq_getElem _ 0 present, ← own,
    canonical.getD_point_basic inside]

/-- The basic point of a frame with non-negative right-hand sides is non-negative. -/
theorem nonnegative_point (canonical : frame.Canonical height candidates)
    (feasible : frame.table.RhsNonnegative) : Nonnegative (frame.point candidates) := by
  rw [nonnegative_iff_getD]
  intro column
  by_cases inside : column < candidates
  · by_cases basic : column ∈ frame.basis
    · obtain ⟨row, rowInside, rfl⟩ := canonical.mem_basis_iff.1 basic
      rw [canonical.getD_point_basic rowInside]
      exact feasible row (by rwa [canonical.sized.height_eq])
    · rw [canonical.getD_point inside, canonical.balance_nonbasic basic (by omega),
        if_neg (by omega), neg_zero]
  · rw [List.getD_eq_default]
    simpa using inside

/-- The basic point and the objective-row value solve all rows. -/
theorem satisfied_point (canonical : frame.Canonical height candidates) :
    frame.table.Satisfied (frame.point candidates ++ [frame.table.rhs height]) := by
  have length : (frame.point candidates ++ [frame.table.rhs height]).length = candidates + 1 := by
    simp
  have vanish := canonical.annihilates_balance (lt_add_one (candidates + 1))
  rw [canonical.sized.satisfied_iff_annihilates length]
  refine (Table.annihilates_congr fun column inside => ?_).1 vanish
  rw [canonical.sized.width_eq] at inside
  rw [Table.getD_append_objective (frame.length_point candidates)]
  split_ifs with before own last
  · exact (canonical.getD_point before).symm
  · rw [own, canonical.balance_objective (by omega), canonical.cost_eq, ← canonical.rhs_eq]
  · rw [last, canonical.balance_nonbasic (canonical.notMem_basis (by omega)) (by omega), if_pos rfl]
  · omega

/-- In a solution of all rows the objective row gives the objective. -/
theorem objective_of_satisfied (canonical : frame.Canonical height candidates)
    {values : List Rat} (length : values.length = candidates) {objective : Rat}
    (satisfied : frame.table.Satisfied (values ++ [objective])) :
    objective = frame.table.rhs height -
      ∑ column ∈ Finset.range candidates, frame.table.cost column * values.getD column 0 := by
  rw [canonical.sized.satisfied_iff_annihilates (by simp [length])] at satisfied
  have equation := canonical.objective_of_annihilates satisfied
  have listed : ∑ column ∈ Finset.range candidates,
        frame.table.cost column * (values ++ [objective] ++ [-1]).getD column 0 =
      ∑ column ∈ Finset.range candidates, frame.table.cost column * values.getD column 0 := by
    apply Finset.sum_congr rfl
    intro column member
    rw [Table.getD_append_objective length, if_pos (Finset.mem_range.1 member)]
  rw [listed, Table.getD_append_objective length, Table.getD_append_objective length,
    if_neg (lt_irrefl _), if_pos rfl, if_neg (by omega), if_neg (by omega), if_pos rfl] at equation
  linarith

end Canonical

end Frame

end Simplex
