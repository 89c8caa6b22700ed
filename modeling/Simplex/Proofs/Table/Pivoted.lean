import Simplex.Proofs.Table.Equations

/-!
# Tables reached by pivots

Any number of pivots may be made on constraint rows, in any order and on any non-zero entries.
They do not change what a table gives when it is applied to a vector on which the pivoted rows
vanish, the objective row included. Two tables reached from one are therefore equal as soon as
every row that either was pivoted on has a column that is its unit vector in both
(`Pivoted.eq_of_units`).
-/

namespace Simplex.Table

/-- The tables that pivots on non-zero entries of constraint rows lead to, each with the positions
of the pivots. -/
inductive Pivoted (start : Table Rat) : List (Nat × Nat) → Table Rat → Prop where
  | initial : Pivoted start [] start
  | pivot {positions table row column} (pivoted : Pivoted start positions table)
      (inside : row < table.height) (nonzero : table.entry row column ≠ 0) :
      Pivoted start (positions ++ [(row, column)]) (table.pivot row column)

/-- The column is the unit vector of the row over all rows, that of the objective included. -/
def HasUnit (table : Table Rat) (row column : Nat) : Prop :=
  ∀ other ≤ table.height, table.entry other column = if other = row then 1 else 0

instance (table : Table Rat) (row column : Nat) : Decidable (table.HasUnit row column) :=
  decidable_of_iff (∀ other < table.height + 1,
      table.entry other column = if other = row then 1 else 0)
    (by simp only [HasUnit, Nat.lt_succ_iff])

/-- The constraint rows of a kind vanish on the vector. -/
def VanishesOn (table : Table Rat) (kind : Nat → Prop) (vector : Nat → Rat) : Prop :=
  ∀ row < table.height, kind row → table.product vector row = 0

variable {start table other : Table Rat} {positions otherPositions : List (Nat × Nat)}
  {height width row column : Nat} {kind : Nat → Prop} {vector : Nat → Rat}

/-- Tables of one size are equal if their entries are. -/
theorem Sized.ext (sized : table.Sized height width) (otherSized : other.Sized height width)
    (entries : ∀ row ≤ height, ∀ column < width, table.entry row column = other.entry row column) :
    table = other := by
  have rows : table.rows = other.rows := by
    refine List.ext_getElem (sized.count.trans otherSized.count.symm) fun row inside present => ?_
    have count := sized.count
    have bound : row ≤ height := by omega
    rw [← row_eq_getElem inside, ← row_eq_getElem present]
    have length := sized.length_row bound
    have otherLength := otherSized.length_row bound
    refine List.ext_getElem (length.trans otherLength.symm) fun column front otherFront => ?_
    have entry := entries row bound column (length ▸ front)
    rwa [Table.entry, Table.entry, List.getD_eq_getElem _ _ front,
      List.getD_eq_getElem _ _ otherFront] at entry
  exact congrArg Table.mk rows

/-- The place of a unit column lies inside the table. -/
theorem HasUnit.lt_width (unit : table.HasUnit row column) (sized : table.Sized height width)
    (inside : row < height) : column < width := by
  by_contra outside
  have one := unit row (sized.height_eq ▸ inside.le)
  rw [sized.entry_of_width_le row (not_lt.1 outside), if_pos rfl] at one
  exact zero_ne_one one

theorem Pivoted.sized (pivoted : Pivoted start positions table)
    (sized : start.Sized height width) : table.Sized height width := by
  induction pivoted with
  | initial => exact sized
  | pivot pivoted inside nonzero ih => exact ih.pivot _ (ih.height_eq ▸ inside.le)

/-- A pivot on a row that vanishes on a vector does not change the other products. -/
theorem Sized.product_pivot_of_eq_zero (sized : table.Sized height width) (column : Nat)
    (inside : row ≤ height) (vanishes : table.product vector row = 0) (index : Nat) :
    (table.pivot row column).product vector index = table.product vector index := by
  rw [sized.product_pivot column inside, vanishes]
  split_ifs with same
  · rw [same, vanishes, zero_div]
  · rw [zero_div, mul_zero, sub_zero]

/-- A pivoted row vanishes only where it did before. -/
theorem Sized.product_eq_zero_of_pivot (sized : table.Sized height width) (inside : row ≤ height)
    (nonzero : table.entry row column ≠ 0)
    (vanishes : (table.pivot row column).product vector row = 0) :
    table.product vector row = 0 := by
  rw [sized.product_pivot column inside, if_pos rfl, div_eq_zero_iff] at vanishes
  exact vanishes.resolve_right nonzero

/-- On a vector on which the rows of the pivots vanish at the start, all products stay. -/
theorem Pivoted.product_eq_of_start (pivoted : Pivoted start positions table)
    (sized : start.Sized height width) (kinds : ∀ position ∈ positions, kind position.1)
    (vanishes : start.VanishesOn kind vector) (index : Nat) :
    table.product vector index = start.product vector index := by
  induction pivoted generalizing index with
  | initial => rfl
  | @pivot positions table row column pivoted inside nonzero ih =>
    have earlier := ih fun position member => kinds position (List.mem_append_left _ member)
    have reached := pivoted.sized sized
    rw [reached.height_eq] at inside
    have zero : table.product vector row = 0 := by
      rw [earlier row]
      exact vanishes row (sized.height_eq ▸ inside) (kinds (row, column) (by simp))
    rw [reached.product_pivot_of_eq_zero column inside.le zero, earlier index]

/-- On a vector on which the rows of the pivots vanish at the end, all products have stayed. -/
theorem Pivoted.product_eq (pivoted : Pivoted start positions table)
    (sized : start.Sized height width) (kinds : ∀ position ∈ positions, kind position.1)
    (vanishes : table.VanishesOn kind vector) (index : Nat) :
    table.product vector index = start.product vector index := by
  induction pivoted generalizing index with
  | initial => rfl
  | @pivot positions table row column pivoted inside nonzero ih =>
    have reached := pivoted.sized sized
    have bound := inside
    rw [reached.height_eq] at inside
    have zero : table.product vector row = 0 := by
      refine reached.product_eq_zero_of_pivot inside.le nonzero (vanishes row ?_ ?_)
      · rwa [height_pivot]
      · exact kinds (row, column) (by simp)
    have stays := reached.product_pivot_of_eq_zero column inside.le zero
    rw [stays index]
    refine ih (fun position member => kinds position (List.mem_append_left _ member)) ?_ index
    intro other otherInside otherKind
    rw [← stays other]
    exact vanishes other (by rwa [height_pivot]) otherKind

/-- Two tables reached from one are equal if every row that is pivoted on has a column that is its
unit vector in both. -/
theorem Pivoted.eq_of_units (pivoted : Pivoted start positions table) (kind : Nat → Prop)
    (otherPivoted : Pivoted start otherPositions other) (sized : start.Sized height width)
    (kinds : ∀ position ∈ positions, kind position.1)
    (otherKinds : ∀ position ∈ otherPositions, kind position.1)
    (units : ∀ row < height, kind row →
      ∃ column, table.HasUnit row column ∧ other.HasUnit row column) : table = other := by
  classical
  have tableSized := pivoted.sized sized
  have otherSized := otherPivoted.sized sized
  refine tableSized.ext otherSized fun row bound source sourceInside => ?_
  have places : ∀ index < height, ∃ column < width,
      kind index → table.HasUnit index column ∧ other.HasUnit index column := by
    intro index inside
    by_cases pivotable : kind index
    · obtain ⟨column, unit, otherUnit⟩ := units index inside pivotable
      exact ⟨column, unit.lt_width tableSized inside, fun _ => ⟨unit, otherUnit⟩⟩
    · exact ⟨source, sourceInside, fun kinds => absurd kinds pivotable⟩
  choose! place placeInside placeUnits using places
  -- The unit columns make up for the source column on all rows that are pivoted on.
  let weight := fun index => if kind index then table.entry index source else 0
  let vector := fun column => (if column = source then (1 : Rat) else 0) -
    ∑ index ∈ Finset.range height, if place index = column then weight index else 0
  have present : ∀ {index}, weight index ≠ 0 → kind index := fun nonzero =>
    of_not_not fun other => nonzero (if_neg other)
  have product : ∀ {reached : Table Rat}, reached.Sized height width →
      (∀ index < height, kind index → reached.HasUnit index (place index)) →
      ∀ index ≤ height, reached.product vector index =
        reached.entry index source - if index < height then weight index else 0 := by
    intro reached reachedSized reachedUnits index indexBound
    rw [product_sub, reachedSized.product_single sourceInside, mul_one,
      reachedSized.product_scatter placeInside, sum_entry_place fun other inside nonzero => ?_]
    exact reachedUnits other inside (present nonzero) index (reachedSized.height_eq ▸ indexBound)
  have tableProduct := product tableSized fun index inside pivotable =>
    (placeUnits index inside pivotable).1
  have otherProduct := product otherSized fun index inside pivotable =>
    (placeUnits index inside pivotable).2
  have vanishes : table.VanishesOn kind vector := by
    intro index inside pivotable
    rw [tableSized.height_eq] at inside
    rw [tableProduct index inside.le, if_pos inside]
    exact sub_eq_zero.2 (if_pos pivotable).symm
  have started : start.VanishesOn kind vector := by
    intro index inside pivotable
    rw [← pivoted.product_eq sized kinds vanishes index]
    exact vanishes index (tableSized.height_eq ▸ sized.height_eq ▸ inside) pivotable
  have same : table.product vector row = other.product vector row := by
    rw [pivoted.product_eq sized kinds vanishes, otherPivoted.product_eq_of_start sized otherKinds
      started]
  rw [tableProduct row bound, otherProduct row bound] at same
  linarith

end Simplex.Table
