import Simplex.Proofs.Canonical

/-!
# The initial rows from the rows of a frame

A canonical frame that is row-equivalent to an initial table gives the initial rows back:
each is a combination of the frame's rows, and the weights are its own entries in the basic
columns and in the column of the objective. Whatever vector the frame's rows nearly vanish
on, the initial rows therefore nearly vanish on as well.
-/

namespace Simplex

open Finset

namespace Frame.Canonical

variable {frame : Frame Rat} {initial : Table Rat} {height candidates row : Nat}

/-- An initial row, applied to a vector, from the rows of the frame. -/
theorem product_initial (canonical : frame.Canonical height candidates)
    (equivalent : Table.RowEquivalent height (candidates + 2) initial frame.table)
    (sized : initial.Sized height (candidates + 2)) (vector : Nat → Rat) (bound : row ≤ height) :
    initial.product vector row =
      (∑ other ∈ range height,
        initial.entry row (frame.basic other) * frame.table.product vector other) +
      initial.entry row candidates * frame.table.product vector height := by
  -- The frame's rows vanish on what is left when the basic columns and the objective take
  -- their parts of the vector; so do the initial rows.
  let part column :=
    (∑ other ∈ range height,
      if frame.basic other = column then frame.table.product vector other else 0) +
    if column = candidates then frame.table.product vector height else 0
  have basicInside : ∀ other < height, frame.basic other < candidates + 2 := by
    intro other inside
    have candidate := canonical.candidate other inside
    omega
  have applied : ∀ {table : Table Rat}, table.Sized height (candidates + 2) → ∀ index,
      table.product (fun column => vector column - part column) index =
        table.product vector index -
          ((∑ other ∈ range height,
            table.entry index (frame.basic other) * frame.table.product vector other) +
          table.entry index candidates * frame.table.product vector height) := by
    intro table tableSized index
    rw [Table.product_sub, Table.product_add, tableSized.product_scatter basicInside,
      tableSized.product_single (by omega)]
  have vanish : frame.table.Annihilates fun column => vector column - part column := by
    intro index inside
    rw [canonical.sized.height_eq] at inside
    rw [applied canonical.sized, canonical.sum_entry_basic _ inside,
      canonical.objective index inside]
    rcases inside.lt_or_eq with constraint | rfl
    · simp [constraint, constraint.ne]
    · simp
  have initially := (equivalent.annihilates _).1 vanish row (by rwa [sized.height_eq])
  rw [applied sized, sub_eq_zero] at initially
  exact initially

/-- The initial entries of a column that is the unit vector of a row over the constraint rows:
those of the row's basic column, and its objective entry in addition. -/
theorem entry_initial_of_unit (canonical : frame.Canonical height candidates)
    (equivalent : Table.RowEquivalent height (candidates + 2) initial frame.table)
    (sized : initial.Sized height (candidates + 2)) {column : Nat} (inside : row < height)
    (candidate : column < candidates)
    (unit : ∀ other < height, frame.table.entry other column = if other = row then 1 else 0)
    {index : Nat} (bound : index ≤ height) :
    initial.entry index column =
      initial.entry index (frame.basic row) +
        initial.entry index candidates * frame.table.cost column := by
  have single := canonical.product_initial equivalent sized
    (fun other => if other = column then 1 else 0) bound
  simp only [sized.product_single (candidate.trans (by omega)),
    canonical.sized.product_single (candidate.trans (by omega)), mul_one] at single
  rw [single, canonical.cost_eq]
  congr 1
  rw [sum_eq_single_of_mem row (mem_range.2 inside), unit row inside, if_pos rfl, mul_one]
  intro other member different
  rw [unit other (mem_range.1 member), if_neg different, mul_zero]

/-- Where the constraint rows of the frame vanish on a vector up to a gap, so does an initial
constraint row up to the gap times the sum of its entries. -/
theorem abs_product_initial_le (canonical : frame.Canonical height candidates)
    (equivalent : Table.RowEquivalent height (candidates + 2) initial frame.table)
    (sized : initial.Sized height (candidates + 2)) {vector : Nat → Rat} {gap : Rat}
    (nonnegative : 0 ≤ gap) (near : ∀ other < height, |frame.table.product vector other| ≤ gap)
    (bound : row ≤ height) (constraint : initial.entry row candidates = 0) :
    |initial.product vector row| ≤
      (∑ column ∈ range candidates, |initial.entry row column|) * gap := by
  have basics : ∑ other ∈ range height, |initial.entry row (frame.basic other)| ≤
      ∑ column ∈ range candidates, |initial.entry row column| := by
    have distinct : Set.InjOn frame.basic (range height) := by
      intro first firstMember second secondMember same
      exact (canonical.basic_inj (mem_range.1 firstMember) (mem_range.1 secondMember)).1 same
    rw [← sum_image (f := fun column => |initial.entry row column|) distinct]
    refine sum_le_sum_of_subset_of_nonneg ?_ fun _ _ _ => abs_nonneg _
    intro column member
    obtain ⟨other, inside, rfl⟩ := mem_image.1 member
    exact mem_range.2 (canonical.candidate other (mem_range.1 inside))
  rw [canonical.product_initial equivalent sized vector bound, constraint, zero_mul, add_zero]
  calc |∑ other ∈ range height,
          initial.entry row (frame.basic other) * frame.table.product vector other|
      ≤ ∑ other ∈ range height,
          |initial.entry row (frame.basic other) * frame.table.product vector other| :=
        abs_sum_le_sum_abs _ _
    _ ≤ ∑ other ∈ range height, |initial.entry row (frame.basic other)| * gap := by
        apply sum_le_sum
        intro other member
        rw [abs_mul]
        exact mul_le_mul_of_nonneg_left (near other (mem_range.1 member)) (abs_nonneg _)
    _ = (∑ other ∈ range height, |initial.entry row (frame.basic other)|) * gap :=
        (sum_mul _ _ _).symm
    _ ≤ (∑ column ∈ range candidates, |initial.entry row column|) * gap :=
        mul_le_mul_of_nonneg_right basics nonnegative

end Frame.Canonical

end Simplex
