import Simplex.Proofs.Dot
import Simplex.Proofs.Table.Sized

/-!
# The equations of a table

Every row of a table is a linear equation between the values of its columns and the
right-hand side. A pivot replaces the equations by others with the same solutions:
`annihilates_pivot_iff` says so for all vectors over the columns, the right-hand
column included, so that it covers the homogeneous equations as well.
-/

namespace Simplex.Table

/-- The values solve every row, read as an equation between its columns and its
right-hand side. -/
def Satisfied (table : Table Rat) (values : List Rat) : Prop :=
  ∀ row ∈ table.rows, dot row.dropLast values = row.getLastD 0

instance (table : Table Rat) (values : List Rat) : Decidable (table.Satisfied values) :=
  inferInstanceAs (Decidable (∀ row ∈ table.rows, dot row.dropLast values = row.getLastD 0))

/-- A row applied to a vector over all columns. -/
def product (table : Table Rat) (vector : Nat → Rat) (row : Nat) : Rat :=
  ∑ column ∈ Finset.range table.width, table.entry row column * vector column

/-- Every row vanishes on the vector. -/
def Annihilates (table : Table Rat) (vector : Nat → Rat) : Prop :=
  ∀ row ≤ table.height, table.product vector row = 0

variable {table : Table Rat} {height width : Nat}

/-- Only the values at the columns of the table matter. -/
theorem product_congr {first second : Nat → Rat}
    (agree : ∀ column < table.width, first column = second column) (row : Nat) :
    table.product first row = table.product second row := by
  apply Finset.sum_congr rfl
  intro column member
  rw [agree column (Finset.mem_range.1 member)]

theorem annihilates_congr {first second : Nat → Rat}
    (agree : ∀ column < table.width, first column = second column) :
    table.Annihilates first ↔ table.Annihilates second := by
  simp only [Annihilates, product_congr agree]

theorem product_add (first second : Nat → Rat) (row : Nat) :
    table.product (fun column => first column + second column) row =
      table.product first row + table.product second row := by
  simp only [product, mul_add, Finset.sum_add_distrib]

theorem product_sub (first second : Nat → Rat) (row : Nat) :
    table.product (fun column => first column - second column) row =
      table.product first row - table.product second row := by
  simp only [product, mul_sub, Finset.sum_sub_distrib]

/-- A row applied to weights that are put at places of the table. -/
theorem Sized.product_scatter (sized : table.Sized height width) {place : Nat → Nat} {count : Nat}
    (inside : ∀ index < count, place index < width) (weight : Nat → Rat) (row : Nat) :
    table.product (fun column =>
        ∑ index ∈ Finset.range count, if place index = column then weight index else 0) row =
      ∑ index ∈ Finset.range count, table.entry row (place index) * weight index := by
  simp only [product, sized.width_eq, Finset.mul_sum, mul_ite, mul_zero]
  rw [Finset.sum_comm]
  apply Finset.sum_congr rfl
  intro index member
  rw [Finset.sum_ite_eq,
    if_pos (Finset.mem_range.2 (inside index (Finset.mem_range.1 member)))]

/-- The entries of a row at places where only that of its own is one select the weight of the
row. -/
theorem sum_entry_place {place : Nat → Nat} {weight : Nat → Rat} {row : Nat}
    (units : ∀ index < height, weight index ≠ 0 →
      table.entry row (place index) = if row = index then 1 else 0) :
    ∑ index ∈ Finset.range height, table.entry row (place index) * weight index =
      if row < height then weight row else 0 := by
  have selected : ∀ index ∈ Finset.range height,
      table.entry row (place index) * weight index = if row = index then weight row else 0 := by
    intro index member
    by_cases same : row = index
    · by_cases absent : weight index = 0
      · rw [if_pos same, same, absent, mul_zero]
      · rw [units index (Finset.mem_range.1 member) absent, if_pos same, if_pos same, one_mul, same]
    · by_cases absent : weight index = 0
      · rw [if_neg same, absent, mul_zero]
      · rw [units index (Finset.mem_range.1 member) absent, if_neg same, if_neg same, zero_mul]
  rw [Finset.sum_congr rfl selected, Finset.sum_ite_eq]
  simp only [Finset.mem_range]

/-- A row applied to one weight. -/
theorem Sized.product_single (sized : table.Sized height width) {place : Nat}
    (inside : place < width) (weight : Rat) (row : Nat) :
    table.product (fun column => if column = place then weight else 0) row =
      table.entry row place * weight := by
  simp only [product, sized.width_eq, mul_ite, mul_zero]
  rw [Finset.sum_ite_eq', if_pos (Finset.mem_range.2 inside)]

/-- The rows after a pivot, applied to a vector. -/
theorem Sized.product_pivot (sized : table.Sized height width) {pivotRow : Nat}
    (pivotColumn : Nat) (inside : pivotRow ≤ height) (vector : Nat → Rat) (row : Nat) :
    (table.pivot pivotRow pivotColumn).product vector row =
      if row = pivotRow then table.product vector pivotRow / table.entry pivotRow pivotColumn
      else table.product vector row - table.entry row pivotColumn *
        (table.product vector pivotRow / table.entry pivotRow pivotColumn) := by
  have pivoted := sized.pivot pivotColumn inside
  simp only [product, pivoted.width_eq, sized.width_eq,
    sized.entry_pivot pivotColumn inside]
  split_ifs with same
  · rw [Finset.sum_div]
    apply Finset.sum_congr rfl
    intro column _
    ring
  · rw [Finset.sum_div, Finset.mul_sum, ← Finset.sum_sub_distrib]
    apply Finset.sum_congr rfl
    intro column _
    ring

/-- A pivot keeps the vectors on which all rows vanish. -/
theorem Sized.annihilates_pivot_iff (sized : table.Sized height width)
    {pivotRow pivotColumn : Nat} (inside : pivotRow ≤ height)
    (nonzero : table.entry pivotRow pivotColumn ≠ 0) (vector : Nat → Rat) :
    (table.pivot pivotRow pivotColumn).Annihilates vector ↔ table.Annihilates vector := by
  simp only [Annihilates, height_pivot, sized.height_eq,
    sized.product_pivot pivotColumn inside]
  constructor
  · intro vanish
    have pivotVanishes : table.product vector pivotRow = 0 := by
      have normalized := vanish pivotRow inside
      rw [if_pos rfl, div_eq_zero_iff] at normalized
      exact normalized.resolve_right nonzero
    intro row bound
    by_cases same : row = pivotRow
    · rw [same, pivotVanishes]
    · have eliminated := vanish row bound
      rw [if_neg same, pivotVanishes] at eliminated
      simpa using eliminated
  · intro vanish row bound
    rw [vanish row bound, vanish pivotRow inside]
    simp

/-- The equations of a table, by the positions of its rows. -/
theorem Sized.satisfied_iff_row (sized : table.Sized height width) (values : List Rat) :
    table.Satisfied values ↔
      ∀ row ≤ height, dot (table.row row).dropLast values = (table.row row).getLastD 0 := by
  constructor
  · intro solved row bound
    have present : row < table.rows.length := by
      rw [sized.count]
      omega
    rw [row_eq_getElem present]
    exact solved _ (List.getElem_mem present)
  · intro solved row member
    obtain ⟨index, present, rfl⟩ := List.getElem_of_mem member
    have bound : index ≤ height := by
      rw [sized.count] at present
      omega
    rw [← row_eq_getElem present]
    exact solved index bound

/-- A row applied to values that are followed by one for the right-hand column. -/
theorem Sized.product_concat (sized : table.Sized height (width + 1)) {values : List Rat}
    (fits : values.length = width) (last : Rat) {row : Nat} (bound : row ≤ height) :
    table.product (fun column => (values ++ [last]).getD column 0) row =
      dot (table.row row).dropLast values + (table.row row).getLastD 0 * last := by
  have length := sized.length_row bound
  have nonempty : table.row row ≠ [] := by
    intro empty
    simp [empty] at length
  obtain ⟨front, rhs, split⟩ : ∃ front rhs, table.row row = front ++ [rhs] :=
    ⟨_, _, (List.dropLast_append_getLast nonempty).symm⟩
  have frontLength : front.length = values.length := by
    simp [split] at length
    omega
  rw [product, sized.width_eq]
  change ∑ column ∈ Finset.range (width + 1), (table.row row).getD column 0 * _ = _
  rw [← dot_eq_sum _ (le_of_eq length), split, List.dropLast_concat, List.getLastD_concat,
    dot_append _ _ frontLength]
  simp

/-- Values solve the rows exactly when the rows vanish on the values followed by minus
one. -/
theorem Sized.satisfied_iff_annihilates (sized : table.Sized height (width + 1))
    {values : List Rat} (fits : values.length = width) :
    table.Satisfied values ↔
      table.Annihilates fun column => (values ++ [-1]).getD column 0 := by
  rw [sized.satisfied_iff_row, Annihilates, sized.height_eq]
  refine forall₂_congr fun row bound => ?_
  rw [sized.product_concat fits (-1) bound, mul_neg_one, ← sub_eq_add_neg, sub_eq_zero]

/-- The vector that stands for values and an objective, by position. -/
theorem getD_append_objective {values : List Rat} (length : values.length = width)
    (objective : Rat) (column : Nat) :
    (values ++ [objective] ++ [-1]).getD column 0 =
      if column < width then values.getD column 0
      else if column = width then objective
      else if column = width + 1 then -1 else 0 := by
  subst length
  split_ifs with before own last
  · rw [List.append_assoc, List.getD_append _ _ _ _ before]
  · simp [own]
  · simp [last]
  · rw [List.getD_eq_default]
    simp
    omega

/-- Another table of the same size has the same solutions, also of the homogeneous
equations. -/
structure RowEquivalent (height width : Nat) (table other : Table Rat) : Prop where
  sized : other.Sized height width
  annihilates : ∀ vector, other.Annihilates vector ↔ table.Annihilates vector

theorem Sized.rowEquivalent_self (sized : table.Sized height width) :
    RowEquivalent height width table table :=
  ⟨sized, fun _ => Iff.rfl⟩

/-- A pivot leads to a row-equivalent table. -/
theorem RowEquivalent.pivot {other : Table Rat}
    (equivalent : RowEquivalent height width table other)
    {pivotRow pivotColumn : Nat} (inside : pivotRow ≤ height)
    (nonzero : other.entry pivotRow pivotColumn ≠ 0) :
    RowEquivalent height width table (other.pivot pivotRow pivotColumn) where
  sized := equivalent.sized.pivot pivotColumn inside
  annihilates := fun vector =>
    (equivalent.sized.annihilates_pivot_iff inside nonzero vector).trans
      (equivalent.annihilates vector)

/-- Row-equivalent tables are satisfied by the same values. -/
theorem RowEquivalent.satisfied_iff {other : Table Rat}
    (equivalent : RowEquivalent height (width + 1) table other)
    (sized : table.Sized height (width + 1)) {values : List Rat}
    (fits : values.length = width) : other.Satisfied values ↔ table.Satisfied values := by
  rw [equivalent.sized.satisfied_iff_annihilates fits, sized.satisfied_iff_annihilates fits]
  exact equivalent.annihilates _

end Simplex.Table
