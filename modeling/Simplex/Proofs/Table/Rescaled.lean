import Simplex.Proofs.Table.Choice

/-!
# Rescaled tables

A table in other units: every column is multiplied by a weight, every constraint row by some
positive factor and the objective row by a fixed one. Pivoting keeps the weights and the factor of
the objective row; only the factor of the pivot row changes, to the inverse weight of the pivot
column. Signs and ratios change by positive factors alone, so Bland's rule without a tolerance
and the ratio test choose the same pivot in both tables.
-/

namespace Simplex

/-- Positive weights of the columns, and a positive factor of the objective row. -/
structure Weights where
  column : Nat → Rat
  objective : Rat
  column_pos : ∀ index, 0 < column index
  objective_pos : 0 < objective

namespace Selection

/-- Positive factors do not change which value improves on another. -/
theorem better_scaled {factor : Rat} (positive : 0 < factor) (best : Option (Nat × Rat))
    (next : Nat × Rat) :
    better (best.map (Prod.map id (factor * ·))) (Prod.map id (factor * ·) next) =
      (better best next).map (Prod.map id (factor * ·)) := by
  cases best with
  | none =>
    have improves : ∀ value : Rat, Scalar.Improves value none := by
      intro value bound member
      cases member
    simp only [better, Option.map_none, improves, if_true, Option.map_some]
  | some best =>
    have improves : Scalar.Improves (factor * next.2) (some (factor * best.2)) ↔
        Scalar.Improves next.2 (some best.2) := mul_lt_mul_iff_right₀ positive
    simp only [better, Option.map_some, Prod.map_snd, improves]
    split_ifs <;> rfl

/-- Positive factors do not change where the least value is found first. -/
theorem firstLeast?_scaled {factor : Rat} (positive : 0 < factor) (values : List (Nat × Rat)) :
    firstLeast? (values.map (Prod.map id (factor * ·))) = firstLeast? values := by
  have scanned : (values.map (Prod.map id (factor * ·))).foldl better none =
      (values.foldl better none).map (Prod.map id (factor * ·)) := by
    induction values using List.reverseRecOn with
    | nil => rfl
    | append_singleton values next ih =>
      rw [List.map_append, List.map_singleton, List.foldl_concat, List.foldl_concat, ih,
        better_scaled positive]
  rw [firstLeast?, firstLeast?, scanned, Option.map_map]
  rfl

end Selection

namespace Table

variable {weights : Weights} {table other : Table Rat} {height width row column : Nat}

/-- A row is multiplied by a factor, and its columns by their weights. -/
def RowScaled (weights : Weights) (factor : Rat) (table other : Table Rat) (row : Nat) : Prop :=
  ∀ column, other.entry row column = factor * weights.column column * table.entry row column

/-- The other table is the table in other units. -/
structure Rescaled (weights : Weights) (height width : Nat) (table other : Table Rat) : Prop where
  sized : table.Sized height width
  otherSized : other.Sized height width
  rows : ∀ row < height, ∃ factor, 0 < factor ∧ RowScaled weights factor table other row
  objective : RowScaled weights weights.objective table other height

namespace RowScaled

variable {factor : Rat}

/-- A positive factor keeps the sign of an entry. -/
theorem entry_pos_iff (scaled : RowScaled weights factor table other row) (positive : 0 < factor)
    (column : Nat) : 0 < other.entry row column ↔ 0 < table.entry row column := by
  rw [scaled column]
  exact mul_pos_iff_of_pos_left (mul_pos positive (weights.column_pos column))

theorem entry_neg_iff (scaled : RowScaled weights factor table other row) (positive : 0 < factor)
    (column : Nat) : other.entry row column < 0 ↔ table.entry row column < 0 := by
  have combined := mul_pos positive (weights.column_pos column)
  have sign : factor * weights.column column * table.entry row column <
      factor * weights.column column * 0 ↔ table.entry row column < 0 :=
    mul_lt_mul_iff_right₀ combined
  rwa [mul_zero, ← scaled column] at sign

/-- The factor of a row cancels in the quotients of its entries. -/
theorem entry_div_entry (scaled : RowScaled weights factor table other row)
    (positive : 0 < factor) (column source : Nat) :
    other.entry row column / other.entry row source =
      weights.column column / weights.column source *
        (table.entry row column / table.entry row source) := by
  rw [scaled column, scaled source, mul_div_mul_comm, mul_div_mul_left _ _ positive.ne']

end RowScaled

namespace Rescaled

/-- A pivot leads to tables that are rescaled alike. -/
theorem pivot (rescaled : Rescaled weights height width table other) (inside : row < height)
    (column : Nat) :
    Rescaled weights height width (table.pivot row column) (other.pivot row column) := by
  obtain ⟨factor, positive, scaled⟩ := rescaled.rows row inside
  have pivoted := rescaled.sized.entry_pivot column inside.le
  have otherPivoted := rescaled.otherSized.entry_pivot column inside.le
  have quotient := scaled.entry_div_entry positive
  have weight := weights.column_pos column
  have eliminated : ∀ {index rowFactor}, index ≠ row →
      RowScaled weights rowFactor table other index →
        RowScaled weights rowFactor (table.pivot row column) (other.pivot row column) index := by
    intro index rowFactor different rowScaled source
    rw [pivoted, otherPivoted, if_neg different, if_neg different, quotient, rowScaled source,
      rowScaled column]
    field_simp
  refine ⟨rescaled.sized.pivot column inside.le, rescaled.otherSized.pivot column inside.le,
    fun index bound => ?_, eliminated inside.ne' rescaled.objective⟩
  by_cases same : index = row
  · refine ⟨(weights.column column)⁻¹, inv_pos.2 weight, fun source => ?_⟩
    rw [pivoted, otherPivoted, if_pos same, if_pos same, quotient,
      div_eq_inv_mul (weights.column source)]
  · obtain ⟨rowFactor, rowPositive, rowScaled⟩ := rescaled.rows index bound
    exact ⟨rowFactor, rowPositive, eliminated same rowScaled⟩

/-- Bland's rule without a tolerance enters the same column. -/
theorem entering?_eq (rescaled : Rescaled weights height width table other) {candidates : Nat}
    (fits : candidates ≤ width) :
    other.entering? candidates .bland 0 = table.entering? candidates .bland 0 := by
  have improving : (other.candidateCosts candidates).map (improving 0) =
      (table.candidateCosts candidates).map (improving 0) := by
    apply List.ext_getElem?
    intro column
    rw [List.getElem?_map, List.getElem?_map, rescaled.sized.getElem?_candidateCosts fits,
      rescaled.otherSized.getElem?_candidateCosts fits]
    split_ifs
    · have sign := rescaled.objective.entry_neg_iff weights.objective_pos column
      simp [Table.improving, cost, rescaled.sized.height_eq, rescaled.otherSized.height_eq, sign]
    · rfl
  have found (costs : List Rat) :
      costs.findIdx? (Table.improving 0) = (costs.map (Table.improving 0)).findIdx? id := by
    rw [List.findIdx?_map]
    rfl
  simp only [entering?, found, improving]

/-- The ratios change by one positive factor. -/
theorem ratios_eq (rescaled : Rescaled weights height width table other) (column : Nat) :
    other.ratios column = (table.ratios column).map
      (Prod.map id (weights.column (width - 1) / weights.column column * ·)) := by
  rw [ratios, ratios, List.map_filterMap, rescaled.sized.height_eq, rescaled.otherSized.height_eq]
  refine List.filterMap_congr fun row member => ?_
  obtain ⟨factor, positive, scaled⟩ := rescaled.rows row (List.mem_range.1 member)
  have sign := scaled.entry_pos_iff positive column
  have quotient := scaled.entry_div_entry positive (width - 1) column
  simp only [rhs, rhsColumn, rescaled.sized.width_eq, rescaled.otherSized.width_eq, sign, quotient]
  split_ifs <;> rfl

/-- The ratio test chooses the same row. -/
theorem leaving?_eq (rescaled : Rescaled weights height width table other) (column : Nat) :
    other.leaving? column = table.leaving? column := by
  have positive := div_pos (weights.column_pos (width - 1)) (weights.column_pos column)
  rw [leaving?, leaving?, rescaled.ratios_eq, Selection.firstLeast?_scaled positive]

end Rescaled

end Table

end Simplex
