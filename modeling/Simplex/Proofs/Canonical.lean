import Simplex.Proofs.Frame
import Simplex.Proofs.Table.Equations
import Simplex.Proofs.Table.Ratio

/-!
# Canonical frames

In a canonical frame the basic columns are unit vectors, the objective row included,
and the column of the objective variable is the unit vector of the objective row. A
pivot keeps this (`Canonical.exchange`).

All vectors on which the rows of a canonical frame vanish come from one construction:
`Frame.balance` lets the basic columns and the objective make up for one column.
-/

namespace Simplex

open Finset

namespace Frame

variable {frame : Frame Rat} {options : Options Rat} {height candidates row column : Nat}

/-- Every row has a basic column, which is its unit vector over all rows, and the column
after the candidates is the unit vector of the objective row. -/
structure Canonical (height candidates : Nat) (frame : Frame Rat) : Prop where
  sized : frame.table.Sized height (candidates + 2)
  tracked : frame.basis.length = height
  candidate : ∀ row < height, frame.basic row < candidates
  unit : ∀ row < height, ∀ other ≤ height,
    frame.table.entry other (frame.basic row) = if other = row then 1 else 0
  objective : ∀ row ≤ height,
    frame.table.entry row candidates = if row = height then 1 else 0

namespace Canonical

theorem rhs_eq (canonical : frame.Canonical height candidates) (row : Nat) :
    frame.table.rhs row = frame.table.entry row (candidates + 1) := by
  rw [Table.rhs, canonical.sized.rhsColumn_eq]

theorem cost_eq (canonical : frame.Canonical height candidates) (column : Nat) :
    frame.table.cost column = frame.table.entry height column := by
  rw [Table.cost, canonical.sized.height_eq]

theorem cost_basic (canonical : frame.Canonical height candidates) (inside : row < height) :
    frame.table.cost (frame.basic row) = 0 := by
  rw [canonical.cost_eq, canonical.unit row inside height le_rfl, if_neg (by omega)]

/-- Different rows have different basic columns. -/
theorem basic_inj (canonical : frame.Canonical height candidates) {first second : Nat}
    (firstInside : first < height) (secondInside : second < height) :
    frame.basic first = frame.basic second ↔ first = second := by
  refine ⟨fun same => ?_, fun same => by rw [same]⟩
  have own := canonical.unit first firstInside first (by omega)
  have shared := canonical.unit second secondInside first (by omega)
  rw [← same, own, if_pos rfl] at shared
  by_contra different
  rw [if_neg different] at shared
  exact one_ne_zero shared

theorem mem_basis_iff (canonical : frame.Canonical height candidates) :
    column ∈ frame.basis ↔ ∃ row < height, frame.basic row = column := by
  rw [List.mem_iff_getElem]
  constructor
  · rintro ⟨row, inside, rfl⟩
    exact ⟨row, canonical.tracked ▸ inside, List.getD_eq_getElem _ _ inside⟩
  · rintro ⟨row, inside, rfl⟩
    have tracked : row < frame.basis.length := canonical.tracked ▸ inside
    exact ⟨row, tracked, (List.getD_eq_getElem _ _ tracked).symm⟩

/-- What a chosen pivot of a canonical frame satisfies. -/
theorem chooses (canonical : frame.Canonical height candidates)
    (chosen : frame.Chooses options candidates row column) :
    row < height ∧ column < candidates ∧ 0 < frame.table.entry row column ∧
      frame.table.cost column < -options.tolerance := by
  obtain ⟨inside, positive, -⟩ := Table.ratio_le_of_leaving? chosen.leaving
  obtain ⟨candidate, improving⟩ :=
    canonical.sized.cost_of_entering? (by omega) chosen.entering
  exact ⟨canonical.sized.height_eq ▸ inside, candidate, positive, improving⟩

/-- The basic column of a row after a pivot. -/
theorem basic_exchange (canonical : frame.Canonical height candidates) (inside : row < height)
    (other : Nat) :
    (frame.exchange row column).basic other =
      if other = row then column else frame.basic other := by
  have tracked : row < frame.basis.length := canonical.tracked ▸ inside
  simp only [basic, Frame.exchange, List.getD_eq_getElem?_getD, List.getElem?_set, tracked]
  by_cases same : row = other
  · simp [same]
  · simp [same, Ne.symm same]

/-- A pivot on a constraint row and a candidate keeps a frame canonical. -/
theorem exchange (canonical : frame.Canonical height candidates) (inside : row < height)
    (candidate : column < candidates) (nonzero : frame.table.entry row column ≠ 0) :
    (frame.exchange row column).Canonical height candidates where
  sized := canonical.sized.pivot column inside.le
  tracked := by simp [Frame.exchange, canonical.tracked]
  candidate := by
    intro other otherInside
    rw [canonical.basic_exchange inside]
    split_ifs
    · exact candidate
    · exact canonical.candidate other otherInside
  unit := by
    intro basicRow basicInside other otherInside
    rw [canonical.basic_exchange inside]
    by_cases same : basicRow = row
    · rw [if_pos same, same]
      exact canonical.sized.entry_pivot_column inside.le nonzero other
    · have vanishes : frame.table.entry row (frame.basic basicRow) = 0 := by
        rw [canonical.unit basicRow basicInside row inside.le, if_neg (Ne.symm same)]
      rw [if_neg same]
      exact (canonical.sized.entry_pivot_of_eq_zero column inside.le vanishes other).trans
        (canonical.unit basicRow basicInside other otherInside)
  objective := by
    intro other otherInside
    have vanishes : frame.table.entry row candidates = 0 := by
      rw [canonical.objective row inside.le, if_neg (by omega)]
    exact (canonical.sized.entry_pivot_of_eq_zero column inside.le vanishes other).trans
      (canonical.objective other otherInside)

/-- The objective row as an equation for the objective column. -/
theorem objective_of_annihilates (canonical : frame.Canonical height candidates)
    {vector : Nat → Rat} (vanish : frame.table.Annihilates vector) :
    vector candidates = -(∑ column ∈ range candidates, frame.table.cost column * vector column) -
      frame.table.rhs height * vector (candidates + 1) := by
  have equation := vanish height (by rw [canonical.sized.height_eq])
  rw [Table.product, canonical.sized.width_eq, sum_range_succ, sum_range_succ,
    canonical.objective height le_rfl, if_pos rfl, ← canonical.rhs_eq] at equation
  simp only [canonical.cost_eq]
  linarith

end Canonical

/-- The vector with minus one at a column at which all rows vanish: the basic columns and
the objective column make up for that column, and everything else is zero. -/
def balance (frame : Frame Rat) (candidates source column : Nat) : Rat :=
  (∑ row ∈ range frame.table.height,
      if frame.basic row = column then frame.table.entry row source else 0) +
    (if column = candidates then frame.table.cost source else 0) -
    if column = source then 1 else 0

namespace Canonical

variable {source : Nat}

/-- The entries of a row in the basic columns select the weight of that row. -/
theorem sum_entry_basic (canonical : frame.Canonical height candidates) (weight : Nat → Rat)
    (bound : row ≤ height) :
    ∑ other ∈ range height, frame.table.entry row (frame.basic other) * weight other =
      if row < height then weight row else 0 :=
  Table.sum_entry_place fun other inside _ => canonical.unit other inside row bound

/-- Every row of a canonical frame vanishes on the balance of a column. -/
theorem annihilates_balance (canonical : frame.Canonical height candidates)
    (inside : source < candidates + 2) :
    frame.table.Annihilates (frame.balance candidates source) := by
  intro row bound
  rw [canonical.sized.height_eq] at bound
  have basicInside : ∀ other < frame.table.height, frame.basic other < candidates + 2 := by
    intro other otherInside
    rw [canonical.sized.height_eq] at otherInside
    have candidate := canonical.candidate other otherInside
    omega
  have parts : frame.table.product (frame.balance candidates source) row =
      (if row < height then frame.table.entry row source else 0) +
        frame.table.entry row candidates * frame.table.cost source -
          frame.table.entry row source * 1 := by
    rw [← canonical.sum_entry_basic (fun other => frame.table.entry other source) bound,
      ← canonical.sized.product_single (by omega) (frame.table.cost source),
      ← canonical.sized.product_single inside 1, ← canonical.sized.height_eq,
      ← canonical.sized.product_scatter basicInside, ← Table.product_add, ← Table.product_sub]
    rfl
  rw [parts, canonical.objective row bound, canonical.cost_eq]
  rcases bound.lt_or_eq with constraint | rfl
  · simp [constraint, constraint.ne]
  · simp

theorem balance_basic (canonical : frame.Canonical height candidates) (inside : row < height) :
    frame.balance candidates source (frame.basic row) =
      frame.table.entry row source - if frame.basic row = source then 1 else 0 := by
  have candidate := canonical.candidate row inside
  have selected : (∑ other ∈ range height,
      if frame.basic other = frame.basic row then frame.table.entry other source else 0) =
      frame.table.entry row source := by
    rw [sum_eq_single_of_mem row (mem_range.2 inside)]
    · rw [if_pos rfl]
    · intro other member different
      rw [if_neg]
      rwa [canonical.basic_inj (mem_range.1 member) inside]
  rw [balance, canonical.sized.height_eq, selected, if_neg candidate.ne, add_zero]

theorem balance_nonbasic (canonical : frame.Canonical height candidates)
    (nonbasic : column ∉ frame.basis) (ordinary : column ≠ candidates) :
    frame.balance candidates source column = -if column = source then 1 else 0 := by
  have absent : (∑ row ∈ range height,
      if frame.basic row = column then frame.table.entry row source else 0) = 0 := by
    refine sum_eq_zero fun row member => if_neg fun same => nonbasic ?_
    exact canonical.mem_basis_iff.2 ⟨row, mem_range.1 member, same⟩
  rw [balance, canonical.sized.height_eq, absent, if_neg ordinary]
  simp

theorem notMem_basis (canonical : frame.Canonical height candidates)
    (outside : candidates ≤ column) : column ∉ frame.basis := by
  rw [canonical.mem_basis_iff]
  rintro ⟨row, inside, rfl⟩
  exact absurd (canonical.candidate row inside) (by omega)

theorem balance_objective (canonical : frame.Canonical height candidates)
    (different : source ≠ candidates) :
    frame.balance candidates source candidates = frame.table.cost source := by
  have absent : (∑ row ∈ range height,
      if frame.basic row = candidates then frame.table.entry row source else 0) = 0 := by
    refine sum_eq_zero fun row member => if_neg ?_
    exact (canonical.candidate row (mem_range.1 member)).ne
  rw [balance, canonical.sized.height_eq, absent, if_pos rfl, if_neg different.symm]
  simp

end Canonical

end Frame

end Simplex
