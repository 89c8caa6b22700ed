import Simplex.Proofs.Quotient
import Simplex.Proofs.Table.Choice
import Simplex.Service.Session

/-!
# The ratio test over doubles

Ratios of finite doubles are numbers, so the row that leaves is the first with the least ratio
among those that bound the column. Ratios can overflow to infinity, and a row with an infinite
ratio is never chosen: a column counts as unbounded when all rows that bound it are of that kind,
and not only when no row does. `Session.perform_leaving` says exactly when.
-/

namespace Simplex

namespace Table

variable {table : Table Float} {column row : Nat}

/-- All entries of the table are finite. -/
def Finite (table : Table Float) : Prop :=
  ∀ line ∈ table.rows, ∀ value ∈ line, Scalar.Finite value

instance (table : Table Float) : Decidable table.Finite :=
  inferInstanceAs (Decidable (∀ line ∈ table.rows, ∀ value ∈ line, Scalar.Finite value))

theorem Finite.entry (finite : table.Finite) (row column : Nat) :
    Scalar.Finite (table.entry row column) := by
  have zero : Scalar.Finite (0 : Float) := by decide +kernel
  rw [Table.entry, Table.row]
  by_cases inside : row < table.rows.length
  · rw [List.getD_eq_getElem _ _ inside]
    by_cases present : column < table.rows[row].length
    · rw [List.getD_eq_getElem _ _ present]
      exact finite _ (List.getElem_mem inside) _ (List.getElem_mem present)
    · rwa [List.getD_eq_default _ _ (not_lt.1 present)]
  · rwa [List.getD_eq_default _ _ (not_lt.1 inside)]

/-- The ratio of finite doubles is a number. -/
theorem Finite.isNumber_ratio (finite : table.Finite) (bounds : table.Bounds column row) :
    Double.IsNumber (table.ratio column row) :=
  Double.isNumber_div (finite.entry row _) (finite.entry row column) bounds.positive

theorem Finite.orderedRatios (finite : table.Finite) (column : Nat) :
    table.OrderedRatios column := fun _ bounds =>
  Double.not_unordered_iff.2 (finite.isNumber_ratio bounds)

/-- Dividing the right-hand side of the row by its entry in the column overflows. -/
def Overflows (table : Table Float) (column row : Nat) : Prop :=
  Scalar.infinity = some (table.ratio column row)

instance : Decidable (table.Overflows column row) :=
  inferInstanceAs (Decidable (Scalar.infinity = some (table.ratio column row)))

theorem Finite.overflows_iff (finite : table.Finite) (bounds : table.Bounds column row) :
    table.Overflows column row ↔ ¬ Scalar.BelowInfinity (table.ratio column row) :=
  (Double.not_belowInfinity_iff (finite.isNumber_ratio bounds)).symm

/-- No row of a finite table leaves exactly when the ratios of all rows that bound the column
overflow. -/
theorem Finite.leaving?_eq_none_iff (finite : table.Finite) :
    table.leaving? column = none ↔
      ∀ row, table.Bounds column row → table.Overflows column row := by
  rw [(finite.orderedRatios column).leaving?_eq_none_iff]
  exact forall₂_congr fun row bounds => (finite.overflows_iff bounds).symm

/-- A row of a finite table leaves exactly when it is the first with the least ratio, and the
ratio does not overflow. -/
theorem Finite.leaving?_eq_some_iff (finite : table.Finite) :
    table.leaving? column = some row ↔
      table.BoundsFirst column row ∧ ¬ table.Overflows column row := by
  rw [(finite.orderedRatios column).leaving?_eq_some_iff]
  refine and_congr_right fun first => ?_
  rw [finite.overflows_iff first.toBounds, not_not]

end Table

namespace Session

variable {session : Session Float}

/-- Asked for the leaving row of a column of finite doubles, a session stays as it is. It reports
an unbounded column exactly when the ratio of every row with a positive entry overflows, so in
particular when there is no such row. It answers with a row exactly when that row is the first
with the least ratio and this ratio does not overflow, and one of the two it always does. -/
theorem perform_leaving (finite : session.tableau.table.Finite) (column : Nat) :
    (session.perform (.leaving column)).1 = session ∧
      ((session.perform (.leaving column)).2 = .error (.run (.unbounded column)) ↔
        ∀ row, session.tableau.table.Bounds column row →
          session.tableau.table.Overflows column row) ∧
      (∀ row, (session.perform (.leaving column)).2 = .ok (.row row) ↔
        session.tableau.table.BoundsFirst column row ∧
          ¬ session.tableau.table.Overflows column row) ∧
      ((session.perform (.leaving column)).2 = .error (.run (.unbounded column)) ∨
        ∃ row, (session.perform (.leaving column)).2 = .ok (.row row)) := by
  simp only [← finite.leaving?_eq_none_iff, ← finite.leaving?_eq_some_iff]
  cases leaving : session.tableau.table.leaving? column with
  | none => simp [perform, leaving]
  | some row => simp [perform, leaving]

/-- Four rows in two unknowns: the ratio of the first column overflows in the first row, is the
same in the next two, and is not taken in the last. In the second column it overflows in the
only row it is taken in. -/
def steepRatios : Session Float :=
  let tiny : Float := Scalar.ofDecimal ⟨false, 1, -10⟩
  let huge : Float := Scalar.ofDecimal ⟨false, 1, 300⟩
  .start
    { table := ⟨[[tiny, tiny, huge], [2, 0, 4], [1, -1, 2], [-1, -1, -8], [-1, -1, 0]]⟩
      structural := ["x1", "x2"]
      auxiliary := []
      objectiveLabel := "Z"
      basis := [] }

theorem perform_leaving_steepRatios :
    steepRatios.tableau.table.Finite ∧
      (steepRatios.perform (.leaving 0)).2 = .ok (.row 1) := by
  have finite : steepRatios.tableau.table.Finite := by decide +kernel
  have first : steepRatios.tableau.table.BoundsFirst 0 1 := by decide +kernel
  have exact : ¬ steepRatios.tableau.table.Overflows 0 1 := by decide +kernel
  exact ⟨finite, ((perform_leaving finite 0).2.2.1 1).2 ⟨first, exact⟩⟩

/-- The second column of `steepRatios` is reported as unbounded although its first entry is
positive. -/
theorem unbounded_steepRatios :
    steepRatios.tableau.table.Finite ∧ steepRatios.tableau.table.Bounds 1 0 ∧
      (steepRatios.perform (.leaving 1)).2 = .error (.run (.unbounded 1)) := by
  refine ⟨by decide +kernel, by decide +kernel, ?_⟩
  have none_leaves : steepRatios.tableau.table.leaving? 1 = none := by decide +kernel
  simp only [perform, none_leaves]

end Session

end Simplex
