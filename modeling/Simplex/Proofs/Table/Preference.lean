import Mathlib
import Simplex.Proofs.Table.UnitColumn

/-!
# Which basic column is preferred

The columns of a row are scanned in order, so what is found first is least: the first structural
unit column without cost, and otherwise the first of the cheapest unit columns. `ChosenFor` says
this of a column without a scan, and `basicColumns_preferred` that the positions found are exactly
those of the preferred columns. For tolerances up to a half no column is found twice.
-/

namespace Simplex

section Scanned

variable {positions : List Nat} {position : Nat}

/-- In an increasing list the first position of a kind is the least one. -/
theorem find?_eq_some_iff_isLeast {kind : Nat → Bool} (increasing : positions.Pairwise (· < ·)) :
    positions.find? kind = some position ↔
      IsLeast {candidate | candidate ∈ positions ∧ kind candidate = true} position := by
  have least {found : Nat} (first : positions.find? kind = some found) :
      IsLeast {candidate | candidate ∈ positions ∧ kind candidate = true} found := by
    refine ⟨⟨List.mem_of_find?_eq_some first, List.find?_some first⟩, ?_⟩
    obtain ⟨-, before, after, rfl, absent⟩ := List.find?_eq_some_iff_append.1 first
    rintro candidate ⟨member, holds⟩
    rcases List.mem_append.1 member with earlier | rest
    · exact absurd holds (by simpa using absent candidate earlier)
    · rcases List.mem_cons.1 rest with rfl | later
      · exact le_rfl
      · exact (List.rel_of_pairwise_cons (List.pairwise_append.1 increasing).2.1 later).le
  refine ⟨least, fun isLeast => ?_⟩
  cases found : positions.find? kind with
  | none => exact absurd isLeast.1.2 (List.find?_eq_none.1 found position isLeast.1.1)
  | some first => rw [(least found).unique isLeast]

/-- In an increasing list the position picked for its value is the least one among those of the
smallest value. -/
theorem firstLeast?_eq_some_iff_isLeast {value : Nat → Rat}
    (increasing : positions.Pairwise (· < ·)) :
    Selection.firstLeast? (positions.map fun position => (position, value position)) =
        some position ↔
      IsLeast {candidate | candidate ∈ positions ∧
        ∀ other ∈ positions, value candidate ≤ value other} position := by
  have least {picked : Nat}
      (found : Selection.firstLeast? (positions.map fun position => (position, value position)) =
        some picked) :
      IsLeast {candidate | candidate ∈ positions ∧
        ∀ other ∈ positions, value candidate ≤ value other} picked := by
    obtain ⟨cost, first⟩ := Selection.firstLeast?_eq_some found
    have smallest := first.le (Selection.ordered_exact _)
    obtain ⟨before, after, listed, greater, -⟩ := first
    obtain ⟨front, back, rfl, frontMap, backMap⟩ := List.map_eq_append_iff.1 listed
    obtain ⟨middle, rest, rfl, same, -⟩ := List.map_eq_cons_iff.1 backMap
    obtain ⟨rfl, rfl⟩ := Prod.mk.inj same
    refine ⟨⟨by simp, fun other member => ?_⟩, ?_⟩
    · exact smallest _ (List.mem_map_of_mem member)
    · rintro candidate ⟨member, cheapest⟩
      rcases List.mem_append.1 member with earlier | rest
      · have more := greater _ (frontMap ▸ List.mem_map_of_mem earlier)
        exact absurd (cheapest middle (by simp)) (not_le.2 more)
      · rcases List.mem_cons.1 rest with rfl | later
        · exact le_rfl
        · exact (List.rel_of_pairwise_cons (List.pairwise_append.1 increasing).2.1 later).le
  refine ⟨least, fun isLeast => ?_⟩
  cases found :
      Selection.firstLeast? (positions.map fun position => (position, value position)) with
  | none =>
    have nothing := List.map_eq_nil_iff.1 (Selection.firstLeast?_eq_none_iff.1 found)
    exact absurd isLeast.1.1 (by simp [nothing])
  | some picked => rw [(least found).unique isLeast]

end Scanned

namespace Table

variable {table : Table Rat} {tolerance : Rat} {columns structural row column : Nat}

/-- The column is one of the first `columns` ones, and over the constraint rows it is within the
tolerance of the unit vector of the row. -/
def UnitFor (table : Table Rat) (tolerance : Rat) (columns row column : Nat) : Prop :=
  column < columns ∧ ∀ other < table.height,
    |table.entry other column - if other = row then 1 else 0| < tolerance

/-- The column is a structural unit column of the row without cost. -/
def FreeFor (table : Table Rat) (tolerance : Rat) (columns structural row column : Nat) : Prop :=
  table.UnitFor tolerance columns row column ∧ column < structural ∧
    |table.cost column| < tolerance

/-- No unit column of the row has a smaller cost in magnitude than this one. -/
def CheapestFor (table : Table Rat) (tolerance : Rat) (columns row column : Nat) : Prop :=
  table.UnitFor tolerance columns row column ∧
    ∀ other, table.UnitFor tolerance columns row other → |table.cost column| ≤ |table.cost other|

/-- The column that is preferred among the unit columns of a row: the first structural one without
cost, or the first of the cheapest where there is none. -/
inductive ChosenFor (table : Table Rat) (tolerance : Rat) (columns structural row column : Nat) :
    Prop
  | free (least : IsLeast {free | table.FreeFor tolerance columns structural row free} column)
  | cheapest (costly : ∀ other, ¬ table.FreeFor tolerance columns structural row other)
      (least : IsLeast {cheapest | table.CheapestFor tolerance columns row cheapest} column)

theorem ChosenFor.unitFor (preferred : table.ChosenFor tolerance columns structural row column) :
    table.UnitFor tolerance columns row column := by
  cases preferred with
  | free least => exact least.1.1
  | cheapest costly least => exact least.1.1

theorem pairwise_unitColumns (table : Table Rat) (tolerance : Rat) (columns row : Nat) :
    (table.unitColumns tolerance columns row).Pairwise (· < ·) :=
  List.pairwise_lt_range.filter _

theorem mem_unitColumns_iff_unitFor (inside : row < table.height) :
    column ∈ table.unitColumns tolerance columns row ↔
      table.UnitFor tolerance columns row column := by
  rw [mem_unitColumns, isUnitColumn_iff inside, UnitFor]

/-- The column taken for a constraint row is the preferred one. -/
theorem basicColumn?_eq_some_iff_chosenFor (inside : row < table.height) :
    table.basicColumn? tolerance columns structural row = some column ↔
      table.ChosenFor tolerance columns structural row column := by
  have increasing := table.pairwise_unitColumns tolerance columns row
  have free : ∀ candidate, (candidate ∈ table.unitColumns tolerance columns row ∧
      decide (candidate < structural ∧ |table.cost candidate| < tolerance) = true) ↔
        table.FreeFor tolerance columns structural row candidate := by
    intro candidate
    rw [mem_unitColumns_iff_unitFor inside, decide_eq_true_eq, FreeFor]
  simp only [basicColumn?_eq, magnitude_eq_abs]
  split
  · rename_i first found
    rw [find?_eq_some_iff_isLeast increasing] at found
    simp only [free] at found
    rw [Option.some.injEq]
    constructor
    · rintro rfl
      exact .free found
    · rintro (least | ⟨costly, -⟩)
      · exact found.unique least
      · exact absurd found.1 (costly first)
  · rename_i absent
    have costly : ∀ other, ¬ table.FreeFor tolerance columns structural row other := by
      intro other isFree
      obtain ⟨member, holds⟩ := (free other).2 isFree
      exact List.find?_eq_none.1 absent other member holds
    rw [firstLeast?_eq_some_iff_isLeast increasing]
    simp only [mem_unitColumns_iff_unitFor inside]
    exact ⟨.cheapest costly, fun preferred => preferred.casesOn
      (fun least => absurd least.1 (costly column)) fun _ least => least⟩

/-- The positions found are in the order of the rows, with one column for a row at most. -/
theorem pairwise_basicColumns (table : Table Rat) (tolerance : Rat) (columns structural : Nat) :
    (table.basicColumns tolerance columns structural).Pairwise
      fun earlier later => earlier.1 < later.1 := by
  refine List.Pairwise.filterMap _ ?_ List.pairwise_lt_range
  intro earlier later before first firstFound second secondFound
  obtain ⟨column, -, rfl⟩ := Option.map_eq_some_iff.1 firstFound
  obtain ⟨other, -, rfl⟩ := Option.map_eq_some_iff.1 secondFound
  exact before

/-- The positions found in a table hold every constraint row that has a unit column among those
scanned, once and in order, each with the column that is preferred. If the tolerance is at most a
half, no column is found for two rows. -/
theorem basicColumns_preferred (table : Table Rat) {tolerance : Rat} (half : tolerance ≤ 1 / 2)
    (columns structural : Nat) :
    (∀ row, (∃ column, (row, column) ∈ table.basicColumns tolerance columns structural) ↔
      row < table.height ∧ ∃ column, table.UnitFor tolerance columns row column) ∧
    (∀ row column, (row, column) ∈ table.basicColumns tolerance columns structural ↔
      row < table.height ∧ table.ChosenFor tolerance columns structural row column) ∧
    ((table.basicColumns tolerance columns structural).Pairwise
      fun earlier later => earlier.1 < later.1) ∧
    ∀ row other column, (row, column) ∈ table.basicColumns tolerance columns structural →
      (other, column) ∈ table.basicColumns tolerance columns structural → row = other := by
  have found : ∀ row column, (row, column) ∈ table.basicColumns tolerance columns structural ↔
      row < table.height ∧ table.ChosenFor tolerance columns structural row column := by
    intro row column
    rw [mem_basicColumns]
    exact and_congr_right basicColumn?_eq_some_iff_chosenFor
  refine ⟨fun row => ?_, found, table.pairwise_basicColumns tolerance columns structural,
    fun row other column first second => ?_⟩
  · constructor
    · rintro ⟨column, member⟩
      obtain ⟨inside, preferred⟩ := (found row column).1 member
      exact ⟨inside, column, preferred.unitFor⟩
    · rintro ⟨inside, column, unit⟩
      have present : table.basicColumn? tolerance columns structural row ≠ none := by
        rw [Ne, basicColumn?_eq_none_iff]
        exact fun absent => absent column unit.1 ((isUnitColumn_iff inside).2 unit.2)
      obtain ⟨taken, basic⟩ := Option.ne_none_iff_exists'.1 present
      exact ⟨taken, mem_basicColumns.2 ⟨inside, basic⟩⟩
  · obtain ⟨inside, preferred⟩ := (found row column).1 first
    obtain ⟨bound, otherChosen⟩ := (found other column).1 second
    exact row_eq_of_isUnitColumn half inside ((isUnitColumn_iff inside).2 preferred.unitFor.2)
      ((isUnitColumn_iff bound).2 otherChosen.unitFor.2)

/-- For the first row three columns are unit vectors within a tenth: the first one has a cost, the
second one is structural with a cost within a tenth, and the third one has none at all. For the
second row only the last column is close to its unit vector. -/
def closeUnits : Table Rat :=
  ⟨[[1, 1, 1, 1 / 20, 3], [0, -1 / 20, 0, 19 / 20, 5], [1 / 2, 1 / 20, 0, 2, 7]]⟩

/-- In `closeUnits` the second column is preferred to the first, which was met before, and to the
third, which is cheaper. -/
theorem basicColumns_preferred_closeUnits :
    closeUnits.basicColumns (1 / 10) 4 2 = [(0, 1), (1, 3)] ∧
      closeUnits.ChosenFor (1 / 10) 4 2 0 1 ∧ closeUnits.ChosenFor (1 / 10) 4 2 1 3 ∧
      ∀ row, (row, 1) ∈ closeUnits.basicColumns (1 / 10) 4 2 → row = 0 := by
  have found : closeUnits.basicColumns (1 / 10) 4 2 = [(0, 1), (1, 3)] := by decide +kernel
  obtain ⟨-, preferred, -, once⟩ :=
    basicColumns_preferred closeUnits (by norm_num : (1 / 10 : Rat) ≤ 1 / 2) 4 2
  have first : (0, 1) ∈ closeUnits.basicColumns (1 / 10) 4 2 := by
    rw [found]
    decide
  have second : (1, 3) ∈ closeUnits.basicColumns (1 / 10) 4 2 := by
    rw [found]
    decide
  exact ⟨found, ((preferred 0 1).1 first).2, ((preferred 1 3).1 second).2,
    fun row member => once row 0 1 member first⟩

end Table

end Simplex
