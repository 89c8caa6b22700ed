import Simplex.Proofs.Table.Choice
import Simplex.Run

/-!
# Labels of rows and columns

The columns of the candidates have names, which are reported and may be the same. A tableau that
names the basic variable of every constraint row keeps doing so, whatever the arithmetic. Its runs
therefore never meet a row without a label.
-/

namespace Simplex.Tableau

section Columns

variable {α : Type} {tableau : Tableau α} {label : String}

/-- Different names determine the columns that have them. -/
theorem column_eq (distinct : tableau.columns.Nodup) {first second : Nat}
    (firstNamed : tableau.columns[first]? = some label)
    (secondNamed : tableau.columns[second]? = some label) : first = second :=
  (List.getElem?_inj (List.getElem?_eq_some_iff.1 firstNamed).1 distinct).1
    (firstNamed.trans secondNamed.symm)

/-- The name of an auxiliary column. -/
theorem getElem?_columns_auxiliary {index : Nat}
    (listed : tableau.auxiliary[index]? = some label) :
    tableau.columns[tableau.structural.length + index]? = some label := by
  have inside := (List.getElem?_eq_some_iff.1 listed).1
  rw [columns, names, List.append_assoc, List.getElem?_append_right (Nat.le_add_right _ _),
    Nat.add_sub_cancel_left, List.getElem?_append_left inside, listed]

end Columns

variable {α : Type} [Scalar α] {options : Options α}

/-- Every constraint row has the name of a basic variable. -/
def Labelled (tableau : Tableau α) : Prop := tableau.basis.length = tableau.table.height

theorem Labelled.exchange {tableau : Tableau α} (labelled : tableau.Labelled)
    (row column : Nat) (entering : String) :
    (tableau.exchange row column entering).Labelled := by
  simpa [Labelled, Tableau.exchange] using labelled

/-- A chosen pivot of a labelled tableau can be described. -/
theorem Labelled.pivotInfo?_ne_none {tableau : Tableau α} (labelled : tableau.Labelled)
    {row column : Nat}
    (entering : tableau.entering? options.rule options.tolerance = some column)
    (leaving : tableau.table.leaving? column = some row) :
    tableau.pivotInfo? row column ≠ none := by
  have candidate := Table.lt_of_entering? entering
  have constraint := (Table.pos_of_leaving? leaving).1
  have named : column < tableau.columns.length := by
    simp only [columns, names, List.length_append]
    exact Nat.lt_add_right 2 candidate
  rw [← labelled] at constraint
  simp [pivotInfo?, List.getElem?_eq_getElem named, List.getElem?_eq_getElem constraint]

/-- The pivots of a labelled tableau never meet a row without a label. -/
theorem Labelled.pivots_ne_unlabelledRow {tableau : Tableau α} (labelled : tableau.Labelled)
    (remaining row : Nat) :
    (tableau.pivots options remaining).outcome ≠ .error (.unlabelledRow row) := by
  fun_induction Tableau.pivots options remaining tableau with
  | case1 => simp
  | case2 => simp
  | case3 tableau improvable remaining column row leaving unnamed =>
    exact absurd unnamed (labelled.pivotInfo?_ne_none (entering?_eq_some improvable) leaving)
  | case4 tableau improvable remaining column row leaving info described next ih =>
    exact ih (labelled.exchange _ _ _)
  | case5 => simp

/-- A run of a labelled tableau returns, finds the objective unbounded or stops at the
limit. -/
theorem Labelled.outcome_cases {tableau : Tableau α} (labelled : tableau.Labelled) :
    (∃ final, (tableau.run options).outcome = .ok final) ∨
      (∃ column, (tableau.run options).outcome = .error (.unbounded column)) ∨
      ∃ limit, (tableau.run options).outcome = .error (.iterationLimit limit) := by
  cases outcome : (tableau.run options).outcome with
  | ok final => exact .inl ⟨final, rfl⟩
  | error error =>
    cases error with
    | unbounded column => exact .inr (.inl ⟨column, rfl⟩)
    | iterationLimit limit => exact .inr (.inr ⟨limit, rfl⟩)
    | unlabelledRow row => exact absurd outcome (labelled.pivots_ne_unlabelledRow _ row)

end Simplex.Tableau
