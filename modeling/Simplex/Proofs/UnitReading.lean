import Simplex.Proofs.Assignment
import Simplex.Proofs.Table.Pivoted

/-!
# Tables that are read by their unit columns

A separated table in which every constraint row has a unit column without cost may have several
of them for a row: a column that stands twice, or the ones of an alternate optimum. The column
that the reading takes is always one of them, since its cost is the least there is. No column
serves two rows, so every row gives its right-hand side to a column of its own, and with the value
of the objective row all equations of the table hold. That much is true of any choice among the
unit columns.
-/

namespace Simplex

open Finset

namespace Table

variable {table : Table Rat} {height columns structural row column other : Nat} {tolerance : Rat}

/-- The column taken for a row has a cost within the tolerance, or none of the row's unit columns
has a smaller one. -/
theorem cost_lt_or_le_of_basicColumn?
    (basic : table.basicColumn? tolerance columns structural row = some column)
    (inside : other < columns) (unit : table.IsUnitColumn tolerance row other) :
    |table.cost column| < tolerance ∨ |table.cost column| ≤ |table.cost other| := by
  have cases := basicColumn?_cases basic
  simp only [magnitude_eq_abs] at cases
  rcases cases with ⟨-, -, small⟩ | ⟨-, picked⟩
  · exact .inl small
  · obtain ⟨cost, least⟩ := Selection.firstLeast?_eq_some picked
    obtain ⟨listed, -, pair⟩ := List.mem_map.1 least.mem
    obtain ⟨rfl, rfl⟩ := Prod.mk.inj pair
    have candidate := List.mem_map_of_mem (f := fun column => (column, |table.cost column|))
      (mem_unitColumns.2 ⟨inside, unit⟩)
    exact .inr (least.le (Selection.ordered_exact _) _ candidate)

/-- A unit vector over all rows is within the tolerance of the unit vector. -/
theorem HasUnit.isUnitColumn (unit : table.HasUnit row column) (inside : row < table.height) :
    table.IsUnitColumn unitTolerance row column := by
  rw [isUnitColumn_iff inside]
  intro other bound
  rw [unit other bound.le, sub_self, abs_zero]
  exact unitTolerance_pos

theorem HasUnit.cost_eq_zero (unit : table.HasUnit row column) (inside : row < table.height) :
    table.cost column = 0 :=
  (unit _ le_rfl).trans (if_neg inside.ne')

/-- In a separated table the column taken for a row that has a unit column without cost is one. -/
theorem Separated.hasUnit_of_basicColumn? (separated : table.Separated columns)
    (rowInside : row < table.height)
    (basic : table.basicColumn? unitTolerance columns structural row = some column)
    (inside : other < columns) (unit : table.HasUnit row other) :
    column < columns ∧ table.HasUnit row column := by
  obtain ⟨scanned, near⟩ := isUnitColumn_of_basicColumn? basic
  have vanishes : table.cost column = 0 := by
    rcases cost_lt_or_le_of_basicColumn? basic inside (unit.isUnitColumn rowInside) with
      small | least
    · exact separated.zero _ le_rfl column scanned small
    · rw [unit.cost_eq_zero rowInside, abs_zero] at least
      exact abs_nonpos_iff.1 least
  refine ⟨scanned, fun index bound => ?_⟩
  rcases bound.lt_or_eq with constraint | rfl
  · exact separated.entry_eq scanned rowInside near index constraint
  · rw [if_neg rowInside.ne']
    exact vanishes

/-- Where a row has a unit column without cost, one is taken for it. -/
theorem Separated.exists_basicColumn? (separated : table.Separated columns)
    (rowInside : row < table.height) (inside : other < columns) (unit : table.HasUnit row other) :
    ∃ column, table.basicColumn? unitTolerance columns structural row = some column ∧
      column < columns ∧ table.HasUnit row column := by
  cases basic : table.basicColumn? unitTolerance columns structural row with
  | none => exact absurd (unit.isUnitColumn rowInside) (basicColumn?_eq_none_iff.1 basic _ inside)
  | some column =>
    exact ⟨column, rfl, separated.hasUnit_of_basicColumn? rowInside basic inside unit⟩

/-- A column is the unit vector of one constraint row at most. -/
theorem HasUnit.row_eq (first : table.HasUnit row column) (second : table.HasUnit other column)
    (inside : row < table.height) : row = other := by
  by_contra different
  have own := first row inside.le
  have foreign := second row inside.le
  rw [if_pos rfl] at own
  rw [own, if_neg different] at foreign
  exact one_ne_zero foreign

/-- A unit vector without cost among the first columns is picked for every constraint row. -/
def PicksUnits (table : Table Rat) (columns : Nat) (pick : Nat → Nat) : Prop :=
  ∀ row < table.height, pick row < columns ∧ table.HasUnit row (pick row)

variable {pick : Nat → Nat}

/-- Where every constraint row of a separated table has a unit column without cost, the columns
taken for the rows are such columns. -/
theorem Separated.exists_picksUnits (separated : table.Separated columns)
    (covered : ∀ row < table.height, ∃ column < columns, table.HasUnit row column)
    (structural : Nat) :
    ∃ pick, table.PicksUnits columns pick ∧ ∀ row < table.height,
      table.basicColumn? unitTolerance columns structural row = some (pick row) := by
  have taken : ∀ row, ∃ column, row < table.height →
      table.basicColumn? unitTolerance columns structural row = some column ∧
        column < columns ∧ table.HasUnit row column := by
    intro row
    by_cases inside : row < table.height
    · obtain ⟨other, bound, unit⟩ := covered row inside
      obtain ⟨column, found⟩ := separated.exists_basicColumn? inside bound unit
      exact ⟨column, fun _ => found⟩
    · exact ⟨0, fun outside => absurd outside inside⟩
  choose pick taken using taken
  exact ⟨pick, fun row inside => (taken row inside).2, fun row inside => (taken row inside).1⟩

/-- No column is picked for two rows. -/
theorem PicksUnits.row_eq (picks : table.PicksUnits columns pick) (inside : row < table.height)
    (bound : other < table.height) (same : pick row = pick other) : row = other := by
  have unit := (picks row inside).2
  rw [same] at unit
  exact unit.row_eq (picks other bound).2 inside

/-- A column picked for a row is assigned the right-hand side of the row. -/
theorem PicksUnits.assigned_pick (picks : table.PicksUnits columns pick)
    (inside : row < table.height) : table.assigned pick (pick row) = table.rhs row := by
  rw [assigned, sum_eq_single_of_mem row (mem_range.2 inside), if_pos rfl]
  intro other member different
  exact if_neg fun same => different (picks.row_eq (mem_range.1 member) inside same)

/-- A column that is picked for no row is assigned zero. -/
theorem assigned_eq_zero (unpicked : ∀ row < table.height, pick row ≠ column) :
    table.assigned pick column = 0 :=
  sum_eq_zero fun row member => if_neg (unpicked row (mem_range.1 member))

/-- Whichever unit columns without cost are picked, the values they assign solve all rows with the
value of the objective row. -/
theorem PicksUnits.satisfied (picks : table.PicksUnits columns pick)
    (sized : table.Sized height (columns + 2))
    (objective : ∀ row ≤ height, table.entry row columns = if row = height then 1 else 0) :
    table.Satisfied (table.assignment pick columns ++ [table.rhs table.height]) := by
  rw [PicksUnits, sized.height_eq] at picks
  have solved := sized.satisfied_assignment objective (fun row inside => (picks row inside).1)
    fun row inside other bound =>
      (picks row inside).2 other (bound.le.trans_eq sized.height_eq.symm)
  rwa [sum_eq_zero fun row member => ?_, sub_zero, ← sized.height_eq] at solved
  have inside := mem_range.1 member
  rw [(picks row inside).2.cost_eq_zero (inside.trans_eq sized.height_eq.symm), zero_mul]

end Table

namespace Tableau

variable {tableau : Tableau Rat} {height : Nat}

/-- Where the names differ and a column is taken for every row, the primal reading lists the values
that these columns assign. -/
theorem values_primalReading (distinct : tableau.names.Nodup) {pick : Nat → Nat}
    (taken : ∀ row < tableau.table.height,
      tableau.table.basicColumn? Table.unitTolerance tableau.candidates
        tableau.structural.length row = some (pick row)) (goal : Goal) :
    (tableau.primalReading goal).values =
      tableau.names.zip (tableau.table.assignment pick tableau.candidates) := by
  have length := tableau.length_names
  refine List.ext_getElem (by simp [primalReading, length]) fun column inside _ => ?_
  have listed : column < tableau.names.length := by simpa [primalReading] using inside
  have written := lastWritten_basicWrites distinct le_rfl (length ▸ listed)
  rw [List.getD_eq_getElem _ _ listed] at written
  have assigned : tableau.table.assigned pick column = ∑ row ∈ range tableau.table.height,
      if tableau.table.basicColumn? Table.unitTolerance tableau.candidates
        tableau.structural.length row = some column then tableau.table.rhs row else 0 := by
    apply sum_congr rfl
    intro row member
    simp only [taken row (mem_range.1 member), Option.some.injEq]
  simp [primalReading, Table.assignment, written, assigned]

/-- The values in a zip of names, by position. -/
theorem getElem?_zip_assignment {pick : Nat → Nat} {column : Nat}
    (inside : column < tableau.candidates) :
    (tableau.names.zip (tableau.table.assignment pick tableau.candidates))[column]? =
      some (tableau.names.getD column "", tableau.table.assigned pick column) := by
  have listed : column < tableau.names.length := inside.trans_eq tableau.length_names.symm
  rw [List.getElem?_zip_eq_some]
  simp [Table.assignment, inside, listed]

/-- Take a separated table whose constraint rows all have a unit column without cost among the
candidates, under different names. Then the primal reading gives every row's right-hand side to
such a column, another one for every row, and zero to the other candidates. These values solve all
rows of the table with the value of the objective row, and so do those that any other choice of
unit columns assigns. -/
theorem primalReading_solves (goal : Goal)
    (sized : tableau.table.Sized height (tableau.candidates + 2))
    (distinct : tableau.names.Nodup)
    (objective : ∀ row ≤ height,
      tableau.table.entry row tableau.candidates = if row = height then 1 else 0)
    (covered : ∀ row < height, ∃ column < tableau.candidates, tableau.table.HasUnit row column)
    (separated : tableau.table.Separated tableau.candidates) :
    ∃ pick : Nat → Nat,
      (∀ row < height,
        pick row < tableau.candidates ∧ tableau.table.HasUnit row (pick row) ∧
          (tableau.primalReading goal).values[pick row]? =
            some (tableau.names.getD (pick row) "", tableau.table.rhs row)) ∧
      (∀ row < height, ∀ other < height, pick row = pick other → row = other) ∧
      (∀ column < tableau.candidates, (∀ row < height, pick row ≠ column) →
        (tableau.primalReading goal).values[column]? = some (tableau.names.getD column "", 0)) ∧
      (tableau.primalReading goal).values.map Prod.fst = tableau.names ∧
      tableau.table.Satisfied
        ((tableau.primalReading goal).values.map Prod.snd ++ [tableau.table.rhs height]) ∧
      (∀ choice, tableau.table.PicksUnits tableau.candidates choice → tableau.table.Satisfied
        (tableau.table.assignment choice tableau.candidates ++ [tableau.table.rhs height])) ∧
      (tableau.primalReading goal).optimalValue =
        match goal with
        | .maximize => tableau.table.rhs height
        | .minimize => -tableau.table.rhs height := by
  obtain rfl := sized.height_eq
  have length := tableau.length_names
  obtain ⟨pick, picks, taken⟩ := separated.exists_picksUnits covered tableau.structural.length
  have values := values_primalReading distinct taken goal
  have assignment : (tableau.primalReading goal).values.map Prod.snd =
      tableau.table.assignment pick tableau.candidates := by
    rw [values, List.map_snd_zip (by simp [length])]
  refine ⟨pick, fun row inside => ?_, fun row inside other bound => picks.row_eq inside bound,
    fun column inside unpicked => ?_, ?_, ?_, fun choice chosen => ?_, ?_⟩
  · obtain ⟨bound, unit⟩ := picks row inside
    refine ⟨bound, unit, ?_⟩
    rw [values, getElem?_zip_assignment bound, picks.assigned_pick inside]
  · rw [values, getElem?_zip_assignment inside, Table.assigned_eq_zero unpicked]
  · rw [values, List.map_fst_zip (by simp [length])]
  · rw [assignment]
    exact picks.satisfied sized objective
  · exact chosen.satisfied sized objective
  · cases goal <;> rfl

/-- A final table with an alternate optimum: `x1` and `s1` are both unit vectors of the first row
without cost, and of the two of the second row only that of `x2` has none. -/
def alternateOptimum : Tableau Rat where
  table := ⟨[[1, 0, 1, 0, 0, 4], [0, 1, 0, 1, 0, 3 / 2], [0, 0, 0, 5, 1, 7]]⟩
  structural := ["x1", "x2"]
  auxiliary := ["s1", "s2"]
  objectiveLabel := "Z"
  basis := ["s1", "x2"]

theorem primalReading_solves_alternateOptimum :
    alternateOptimum.names.Nodup ∧ alternateOptimum.table.Separated alternateOptimum.candidates ∧
      alternateOptimum.table.PicksUnits alternateOptimum.candidates (fun row => 2 - row) ∧
      alternateOptimum.table.Satisfied
        ((alternateOptimum.primalReading .maximize).values.map Prod.snd ++ [7]) ∧
      alternateOptimum.table.Satisfied
        (alternateOptimum.table.assignment (fun row => 2 - row) alternateOptimum.candidates ++
          [7]) := by
  have sized : alternateOptimum.table.Sized 2 (alternateOptimum.candidates + 2) :=
    ⟨by decide, by decide⟩
  have distinct : alternateOptimum.names.Nodup := by decide
  have covered : ∀ row < 2, ∃ column < alternateOptimum.candidates,
      alternateOptimum.table.HasUnit row column := by decide +kernel
  have separated : alternateOptimum.table.Separated alternateOptimum.candidates := by
    decide +kernel
  have picks : alternateOptimum.table.PicksUnits alternateOptimum.candidates
      (fun row => 2 - row) := by
    unfold Table.PicksUnits
    decide +kernel
  obtain ⟨-, -, -, -, -, solved, others, -⟩ :=
    primalReading_solves .maximize sized distinct (by decide +kernel) covered separated
  exact ⟨distinct, separated, picks, solved, others _ picks⟩

end Tableau

end Simplex
