import Simplex.Proofs.Selection
import Simplex.Table.UnitColumn

/-!
# The columns taken as basic

The column taken for a row is one of its unit columns, and there is one exactly when the row
has any. In exact arithmetic a unit column is within the tolerance of the unit vector, so
that no column is taken for two rows, and a structural column without cost is taken where
there is one. In a separated table the unit columns are exact.
-/

namespace Simplex.Table

section Scanned

variable {α : Type} [Scalar α] {table : Table α} {tolerance : α}
  {columns structural row column : Nat}

theorem mem_unitColumns :
    column ∈ table.unitColumns tolerance columns row ↔
      column < columns ∧ table.IsUnitColumn tolerance row column := by
  simp [unitColumns]

/-- The column taken for a row is a structural unit column without cost, or there is no such column
and it is the first of the cheapest unit columns. -/
theorem basicColumn?_cases
    (basic : table.basicColumn? tolerance columns structural row = some column) :
    (column ∈ table.unitColumns tolerance columns row ∧ column < structural ∧
      Scalar.magnitude (table.cost column) < tolerance) ∨
    ((∀ other ∈ table.unitColumns tolerance columns row,
        ¬ (other < structural ∧ Scalar.magnitude (table.cost other) < tolerance)) ∧
      Selection.firstLeast? ((table.unitColumns tolerance columns row).map fun other =>
        (other, Scalar.magnitude (table.cost other))) = some column) := by
  rw [basicColumn?_eq] at basic
  split at basic
  · rename_i first found
    obtain rfl := Option.some.inj basic
    have costless := List.find?_some found
    exact .inl ⟨List.mem_of_find?_eq_some found, of_decide_eq_true costless⟩
  · rename_i absent
    exact .inr ⟨fun other member => by simpa using List.find?_eq_none.1 absent other member, basic⟩

/-- The column taken for a row is one of its unit columns. -/
theorem isUnitColumn_of_basicColumn?
    (basic : table.basicColumn? tolerance columns structural row = some column) :
    column < columns ∧ table.IsUnitColumn tolerance row column := by
  rw [← mem_unitColumns]
  rcases basicColumn?_cases basic with ⟨member, -⟩ | ⟨-, picked⟩
  · exact member
  · obtain ⟨cost, least⟩ := Selection.exists_mem_of_firstLeast? picked
    obtain ⟨listed, member, pair⟩ := List.mem_map.1 least
    rwa [← (Prod.mk.inj pair).1]

/-- The positions found are the constraint rows with the columns taken for them. -/
theorem mem_basicColumns {position : Nat × Nat} :
    position ∈ table.basicColumns tolerance columns structural ↔
      position.1 < table.height ∧
        table.basicColumn? tolerance columns structural position.1 = some position.2 := by
  simp only [basicColumns, List.mem_filterMap, List.mem_range, Option.map_eq_some_iff]
  constructor
  · rintro ⟨row, inside, column, basic, rfl⟩
    exact ⟨inside, basic⟩
  · rintro ⟨inside, basic⟩
    exact ⟨position.1, inside, position.2, basic, rfl⟩

end Scanned

variable {table : Table Rat} {tolerance : Rat} {columns structural row column : Nat}

theorem magnitude_eq_abs (value : Rat) : Scalar.magnitude value = |value| := by
  unfold Scalar.magnitude
  split_ifs with negative
  · rw [abs_of_neg negative]
  · rw [abs_of_nonneg (not_lt.1 negative)]

theorem negligible_iff {value : Rat} : Negligible tolerance value ↔ |value| < tolerance := by
  rw [Negligible, magnitude_eq_abs, not_le]

/-- A unit column is within the tolerance of the unit vector of its row. -/
theorem isUnitColumn_iff (inside : row < table.height) :
    table.IsUnitColumn tolerance row column ↔ ∀ other < table.height,
      |table.entry other column - if other = row then 1 else 0| < tolerance := by
  simp only [IsUnitColumn, negligible_iff]
  constructor
  · rintro ⟨own, others⟩ other otherInside
    by_cases same : other = row
    · rwa [if_pos same, same]
    · rw [if_neg same, sub_zero]
      exact others other otherInside same
  · intro near
    refine ⟨by simpa using near row inside, fun other otherInside different => ?_⟩
    simpa [different] using near other otherInside

/-- A column is the unit column of one row at most, for a tolerance up to a half. -/
theorem row_eq_of_isUnitColumn (half : tolerance ≤ 1 / 2) {other : Nat}
    (inside : row < table.height) (first : table.IsUnitColumn tolerance row column)
    (second : table.IsUnitColumn tolerance other column) : row = other := by
  by_contra different
  have own := negligible_iff.1 first.1
  have foreign := negligible_iff.1 (second.2 row inside different)
  rw [abs_lt] at own foreign
  linarith

/-- No column is taken for a row exactly when the row has no unit column. -/
theorem basicColumn?_eq_none_iff :
    table.basicColumn? tolerance columns structural row = none ↔
      ∀ column < columns, ¬ table.IsUnitColumn tolerance row column := by
  have nothing : table.unitColumns tolerance columns row = [] ↔
      ∀ column < columns, ¬ table.IsUnitColumn tolerance row column := by
    simp only [List.eq_nil_iff_forall_not_mem, mem_unitColumns, not_and]
  rw [← nothing]
  rw [basicColumn?_eq]
  split
  · rename_i free first
    have member := List.mem_of_find?_eq_some first
    simp [List.ne_nil_of_mem member]
  · rw [Selection.firstLeast?_eq_none_iff, List.map_eq_nil_iff]

/-- Where a row has a structural unit column without cost, the column taken for it is one. -/
theorem cost_of_basicColumn?
    (basic : table.basicColumn? tolerance columns structural row = some column) {free : Nat}
    (inside : free < columns) (unit : table.IsUnitColumn tolerance row free)
    (listed : free < structural) (vanishes : |table.cost free| < tolerance) :
    column < structural ∧ |table.cost column| < tolerance := by
  have cases := basicColumn?_cases basic
  simp only [magnitude_eq_abs] at cases
  rcases cases with ⟨-, costless⟩ | ⟨costly, -⟩
  · exact costless
  · exact absurd ⟨listed, vanishes⟩ (costly free (mem_unitColumns.2 ⟨inside, unit⟩))

theorem unitTolerance_pos : 0 < (unitTolerance : Rat) := by
  decide +kernel

theorem unitTolerance_le_half : (unitTolerance : Rat) ≤ 1 / 2 := by
  decide +kernel

/-- What is within the tolerance of zero in the first columns is zero, and what is within the
tolerance of one in their constraint rows is one. -/
structure Separated (table : Table Rat) (columns : Nat) : Prop where
  zero : ∀ row ≤ table.height, ∀ column < columns,
    |table.entry row column| < unitTolerance → table.entry row column = 0
  one : ∀ row < table.height, ∀ column < columns,
    |table.entry row column - 1| < unitTolerance → table.entry row column = 1

instance (table : Table Rat) (columns : Nat) : Decidable (table.Separated columns) :=
  decidable_of_iff
    ((∀ row ≤ table.height, ∀ column < columns,
        |table.entry row column| < unitTolerance → table.entry row column = 0) ∧
      ∀ row < table.height, ∀ column < columns,
        |table.entry row column - 1| < unitTolerance → table.entry row column = 1)
    ⟨fun both => ⟨both.1, both.2⟩, fun separated => ⟨separated.zero, separated.one⟩⟩

/-- In a separated table a unit column is a unit vector. -/
theorem Separated.entry_eq (separated : table.Separated columns) (inside : column < columns)
    (rowInside : row < table.height) (unit : table.IsUnitColumn unitTolerance row column) :
    ∀ other < table.height, table.entry other column = if other = row then 1 else 0 := by
  intro other otherInside
  have near := (isUnitColumn_iff rowInside).1 unit other otherInside
  split_ifs at near ⊢ with same
  · exact separated.one other otherInside column inside near
  · exact separated.zero other otherInside.le column inside (by simpa using near)

end Simplex.Table
