import Simplex.Proofs.Table.UnitColumn
import Simplex.Solution

/-!
# Values under names

The readings of a final tableau look values up by name. Numbered names of equally long
letters differ when their letters or their numbers do, so the dual reading shows under the
name of every auxiliary variable the objective entry of its column.
-/

namespace Simplex

/-- A numbered name determines its letter and its number. -/
theorem numberedName_inj {first second : String} {left right : Nat}
    (equallyLong : first.length = second.length)
    (same : s!"{first}{left}" = s!"{second}{right}") : first = second ∧ left = right := by
  have characters := congrArg String.toList same
  rw [String.toList_append, String.toList_append] at characters
  rw [← String.length_toList, ← String.length_toList] at equallyLong
  obtain ⟨letters, numbers⟩ := List.append_inj characters equallyLong
  exact ⟨String.toList_inj.1 letters, Nat.repr_injective (String.toList_inj.1 numbers)⟩

theorem mem_numberedNames {letter name : String} {count : Nat} :
    name ∈ numberedNames letter count ↔ ∃ index < count, s!"{letter}{index + 1}" = name := by
  simp [numberedNames]

/-- A numbered name is its letter with the digits of its number. -/
theorem toList_numberedName {letter : String} {first : Char} (single : letter.toList = [first])
    (number : Nat) : (s!"{letter}{number}").toList = first :: (toString number).toList := by
  rw [String.toList_append, toString, instToStringString, single]
  rfl

/-- A numbered name starts with its letter. -/
theorem head?_of_mem_numberedNames {letter name : String} {first : Char}
    (single : letter.toList = [first]) {count : Nat} (member : name ∈ numberedNames letter count) :
    name.toList.head? = some first := by
  obtain ⟨index, -, rfl⟩ := mem_numberedNames.1 member
  rw [toList_numberedName single, List.head?_cons]

/-- Names that are numbered alike are renamed together. -/
theorem map_numberedNames {letter renamed : String} {naming : String → String}
    (renames : ∀ number : Nat, naming s!"{letter}{number}" = s!"{renamed}{number}")
    (count : Nat) :
    (numberedNames letter count).map naming = numberedNames renamed count := by
  rw [numberedNames, numberedNames, List.map_map]
  exact List.map_congr_left fun index _ => renames (index + 1)

/-- The numbered name at a position. -/
theorem getElem?_numberedNames (letter : String) {count index : Nat} (inside : index < count) :
    (numberedNames letter count)[index]? = some s!"{letter}{index + 1}" := by
  simp [numberedNames, inside]

theorem nodup_numberedNames (letter : String) (count : Nat) :
    (numberedNames letter count).Nodup := by
  refine List.Nodup.map (fun first second same => ?_) List.nodup_range
  exact Nat.add_right_cancel (numberedName_inj rfl same).2

/-- Numbered names of equally long letters that differ have nothing in common. -/
theorem disjoint_numberedNames {first second : String} (equallyLong : first.length = second.length)
    (different : first ≠ second) (left right : Nat) :
    (numberedNames first left).Disjoint (numberedNames second right) := by
  intro name firstNamed secondNamed
  obtain ⟨index, -, rfl⟩ := mem_numberedNames.1 firstNamed
  obtain ⟨other, -, same⟩ := mem_numberedNames.1 secondNamed
  exact different (numberedName_inj equallyLong same.symm).1

/-- A key that is not written is not found from the last write back either. -/
theorem lookup_reverse_eq_none {α : Type} {writes : List (String × α)} {name : String}
    (absent : ∀ pair ∈ writes, pair.1 ≠ name) : writes.reverse.lookup name = none := by
  rw [List.lookup_eq_none_iff]
  intro pair member
  exact bne_iff_ne.2 (absent pair (List.mem_reverse.1 member)).symm

namespace Solution

/-- A solution that lists a function of the names has its values under them. -/
theorem valueOf?_map {α : Type} {optimalValue : α} {names : List String} (read : String → α)
    {name : String} (listed : name ∈ names) :
    valueOf? ⟨optimalValue, names.map fun name => (name, read name)⟩ name =
      some (read name) := by
  induction names with
  | nil => cases listed
  | cons first names ih =>
    rw [valueOf?, List.map_cons, List.lookup_cons]
    by_cases same : name = first
    · simp [same]
    · rw [beq_eq_false_iff_ne.2 same]
      exact ih (List.mem_of_ne_of_mem same listed)

/-- Cleaning a solution cleans the values under all names. -/
theorem valueOf?_cleaned_map {α : Type} [Scalar α] {optimalValue : α} {names : List String}
    (read : String → α) {name : String} (listed : name ∈ names) :
    (cleaned ⟨optimalValue, names.map fun name => (name, read name)⟩).valueOf? name =
      some (cleanValue (read name)) := by
  rw [cleaned, List.map_map]
  exact valueOf?_map (fun name => cleanValue (read name)) listed

/-- The values under a list of names, from the value under each. -/
theorem map_valueOf? {α : Type} {solution : Solution α} {names : List String} {read : Nat → α}
    (values : ∀ index < names.length,
      solution.valueOf? (names.getD index "") = some (read index)) :
    names.map solution.valueOf? = ((List.range names.length).map read).map some := by
  refine List.ext_getElem (by simp) fun index inside _ => ?_
  have bound : index < names.length := by simpa using inside
  have value := values index bound
  rw [List.getD_eq_getElem _ _ bound] at value
  simpa using value

theorem cleanValue_nonneg {value : Rat} (nonnegative : 0 ≤ value) : 0 ≤ cleanValue value := by
  unfold cleanValue
  split_ifs
  · exact le_rfl
  · exact nonnegative

/-- Cleaning changes a value by at most what is negligible. -/
theorem abs_cleanValue_sub_le (value : Rat) : |cleanValue value - value| ≤ negligible := by
  have positive : 0 ≤ (negligible : Rat) := by decide +kernel
  unfold cleanValue
  split_ifs with small
  · rw [Table.magnitude_eq_abs] at small
    rw [zero_sub, abs_neg]
    exact small.le
  · rwa [sub_self, abs_zero]

end Solution

namespace Tableau

/-- Every candidate has a name. -/
theorem length_names {α : Type} (tableau : Tableau α) :
    tableau.names.length = tableau.candidates :=
  List.length_append

variable {α : Type} [Scalar α]

/-- A value that is the only one written under its name is the last one. -/
theorem lastWritten_eq {writes : List (String × α)} {name : String} {value : α}
    (written : (name, value) ∈ writes)
    (only : ∀ pair ∈ writes, pair.1 = name → pair.2 = value) :
    lastWritten writes name = value := by
  unfold lastWritten
  cases found : writes.reverse.lookup name with
  | none =>
    have different := List.lookup_eq_none_iff.1 found (name, value) (List.mem_reverse.2 written)
    simp at different
  | some last =>
    obtain ⟨before, after, split, -⟩ := List.lookup_eq_some_iff.1 found
    have member : (name, last) ∈ writes := by
      rw [← List.mem_reverse, split]
      simp
    exact only _ member rfl

/-- A name under which nothing is written has the value zero. -/
theorem lastWritten_eq_zero {writes : List (String × α)} {name : String}
    (absent : ∀ pair ∈ writes, pair.1 ≠ name) : lastWritten writes name = 0 := by
  rw [lastWritten, lookup_reverse_eq_none absent]
  rfl

/-- Earlier writes under other names do not matter. -/
theorem lastWritten_append {first second : List (String × α)} {name : String}
    (absent : ∀ pair ∈ first, pair.1 ≠ name) :
    lastWritten (first ++ second) name = lastWritten second name := by
  rw [lastWritten, List.reverse_append, List.lookup_append, lookup_reverse_eq_none absent,
    Option.or_none, lastWritten]

variable {tableau : Tableau α} {weights count : Nat}

/-- The names written for basic columns are structural. -/
theorem mem_structural_of_mem_basicWrites {pair : String × α}
    (written : pair ∈ tableau.basicWrites tableau.structural.length) :
    pair.1 ∈ tableau.structural := by
  obtain ⟨position, found, rfl⟩ := List.mem_map.1 written
  have inside := (Table.isUnitColumn_of_basicColumn? (Table.mem_basicColumns.1 found).2).1
  rw [names, List.getD_append _ _ _ _ inside, List.getD_eq_getElem _ _ inside]
  exact List.getElem_mem inside

/-- The dual reading has the objective entry of an auxiliary column under its name. -/
theorem valueOf?_dualReading (structural : tableau.structural = numberedNames "y" weights)
    (auxiliary : tableau.auxiliary = numberedNames "s" count) {index : Nat}
    (inside : index < count) :
    tableau.dualReading.valueOf? s!"s{index + 1}" =
      some (tableau.table.cost (weights + index)) := by
  have length : tableau.structural.length = weights := by simp [structural, numberedNames]
  have named : s!"s{index + 1}" ∈ tableau.names := by
    refine List.mem_append_right _ ?_
    rw [auxiliary]
    exact mem_numberedNames.2 ⟨index, inside, rfl⟩
  have written : (s!"s{index + 1}", tableau.table.cost (weights + index)) ∈
      tableau.costWrites := by
    refine List.mem_of_getElem? (i := index) ?_
    rw [costWrites, List.getElem?_mapIdx, auxiliary, getElem?_numberedNames "s" inside, length]
    rfl
  rw [dualReading, Solution.valueOf?_map _ named]
  refine congrArg some (lastWritten_eq (List.mem_append_left _ written) ?_)
  intro pair member same
  rcases List.mem_append.1 member with cost | basic
  · obtain ⟨other, position⟩ := List.mem_iff_getElem?.1 cost
    rw [costWrites, List.getElem?_mapIdx, auxiliary, length] at position
    obtain ⟨name, listed, rfl⟩ := Option.map_eq_some_iff.1 position
    obtain ⟨bound, -⟩ := List.getElem?_eq_some_iff.1 listed
    have otherInside : other < count := by simpa [numberedNames] using bound
    rw [getElem?_numberedNames "s" otherInside, Option.some.injEq] at listed
    have numbers := (numberedName_inj rfl (listed.trans same)).2
    rw [Nat.add_right_cancel numbers]
  · have weight := mem_structural_of_mem_basicWrites basic
    rw [structural, same] at weight
    have equallyLong : "y".length = "s".length := rfl
    exact (disjoint_numberedNames equallyLong (by decide) weights count weight
      (mem_numberedNames.2 ⟨index, inside, rfl⟩)).elim

/-- The names written for objective entries are auxiliary. -/
theorem mem_auxiliary_of_mem_costWrites {pair : String × α}
    (written : pair ∈ tableau.costWrites) : pair.1 ∈ tableau.auxiliary := by
  obtain ⟨index, inside, rfl⟩ := List.mem_mapIdx.1 written
  exact List.getElem_mem inside

/-- The dual reading has under a structural name what the scan of the structural columns
writes. -/
theorem valueOf?_dualReading_structural {name : String} (listed : name ∈ tableau.structural)
    (absent : name ∉ tableau.auxiliary) :
    tableau.dualReading.valueOf? name =
      some (lastWritten (tableau.basicWrites tableau.structural.length) name) := by
  refine (Solution.valueOf?_map _ (List.mem_append_left _ listed)).trans (congrArg some ?_)
  apply lastWritten_append
  rintro pair written rfl
  exact absent (mem_auxiliary_of_mem_costWrites written)

/-- Where the names differ, what is written under the name of a column is the right-hand side of
a row that the column is taken for. -/
theorem exists_row_of_mem_basicWrites {tableau : Tableau Rat} (distinct : tableau.names.Nodup)
    {columns column : Nat} (fits : columns ≤ tableau.candidates) (inside : column < columns)
    {pair : String × Rat} (written : pair ∈ tableau.basicWrites columns)
    (named : pair.1 = tableau.names.getD column "") :
    ∃ row < tableau.table.height, tableau.table.basicColumn? Table.unitTolerance columns
      tableau.structural.length row = some column ∧ pair.2 = tableau.table.rhs row := by
  have listed : ∀ {place}, place < columns → place < tableau.names.length := by
    intro place bound
    simp only [names, List.length_append]
    exact bound.trans_le fits
  obtain ⟨position, found, rfl⟩ := List.mem_map.1 written
  obtain ⟨rowInside, basic⟩ := Table.mem_basicColumns.1 found
  have bound := (Table.isUnitColumn_of_basicColumn? basic).1
  rw [List.getD_eq_getElem _ _ (listed bound), List.getD_eq_getElem _ _ (listed inside),
    List.Nodup.getElem_inj_iff distinct] at named
  exact ⟨position.1, rowInside, named ▸ basic, rfl⟩

/-- Where the names differ, the value written for a column is the right-hand side of the row
that it is taken for, and zero if there is none. -/
theorem lastWritten_basicWrites {tableau : Tableau Rat} (distinct : tableau.names.Nodup)
    {columns column : Nat} (fits : columns ≤ tableau.candidates) (inside : column < columns) :
    lastWritten (tableau.basicWrites columns) (tableau.names.getD column "") =
      ∑ row ∈ Finset.range tableau.table.height,
        if tableau.table.basicColumn? Table.unitTolerance columns tableau.structural.length row =
          some column then tableau.table.rhs row else 0 := by
  by_cases taken : ∃ row < tableau.table.height, tableau.table.basicColumn? Table.unitTolerance
      columns tableau.structural.length row = some column
  · obtain ⟨row, rowInside, basic⟩ := taken
    have only : ∀ other < tableau.table.height, tableau.table.basicColumn? Table.unitTolerance
        columns tableau.structural.length other = some column → other = row := by
      intro other otherInside otherBasic
      exact Table.row_eq_of_isUnitColumn Table.unitTolerance_le_half otherInside
        (Table.isUnitColumn_of_basicColumn? otherBasic).2
        (Table.isUnitColumn_of_basicColumn? basic).2
    rw [Finset.sum_eq_single_of_mem row (Finset.mem_range.2 rowInside), if_pos basic]
    · refine lastWritten_eq (List.mem_map.2 ⟨(row, column), ?_, rfl⟩) ?_
      · exact Table.mem_basicColumns.2 ⟨rowInside, basic⟩
      · intro pair written named
        obtain ⟨other, otherInside, otherBasic, rhs⟩ :=
          exists_row_of_mem_basicWrites distinct fits inside written named
        rw [rhs, only other otherInside otherBasic]
    · intro other member different
      rw [if_neg]
      exact fun otherBasic => different (only other (Finset.mem_range.1 member) otherBasic)
  · rw [Finset.sum_eq_zero]
    · apply lastWritten_eq_zero
      intro pair written named
      obtain ⟨row, rowInside, basic, -⟩ :=
        exists_row_of_mem_basicWrites distinct fits inside written named
      exact taken ⟨row, rowInside, basic⟩
    · intro row member
      rw [if_neg]
      exact fun basic => taken ⟨row, Finset.mem_range.1 member, basic⟩

end Tableau

end Simplex
