import Simplex.Proofs.Simulation

/-!
# Renaming

A run uses the names of a tableau to describe its pivots and for nothing else. The run of a renamed
tableau is therefore the renamed run: its tables, the positions of its pivots and the way it ends
are those of the run itself.
-/

namespace Simplex

variable {α : Type}

/-- The description with other names. -/
def PivotInfo.rename (naming : String → String) (info : PivotInfo) : PivotInfo :=
  { info with
    entering := naming info.entering
    leaving := naming info.leaving }

/-- The recorded step with other names. -/
def Step.rename (naming : String → String) (step : Step α) : Step α :=
  { step with pivot := step.pivot.map (PivotInfo.rename naming) }

namespace Tableau

/-- The tableau with other names. -/
def rename (naming : String → String) (tableau : Tableau α) : Tableau α where
  table := tableau.table
  structural := tableau.structural.map naming
  auxiliary := tableau.auxiliary.map naming
  objectiveLabel := naming tableau.objectiveLabel
  basis := tableau.basis.map naming

variable {naming : String → String} {tableau : Tableau α}

/-- The right-hand column always has the same name. -/
theorem columns_rename (fixed : naming "RHS" = "RHS") :
    (tableau.rename naming).columns = tableau.columns.map naming := by
  simp [columns, names, rename, fixed]

theorem pivotInfo?_rename (fixed : naming "RHS" = "RHS") (row column : Nat) :
    (tableau.rename naming).pivotInfo? row column =
      (tableau.pivotInfo? row column).map (PivotInfo.rename naming) := by
  have basis : (tableau.rename naming).basis = tableau.basis.map naming := rfl
  rw [pivotInfo?, pivotInfo?, columns_rename fixed, basis, List.getElem?_map, List.getElem?_map]
  cases tableau.columns[column]? <;> cases tableau.basis[row]? <;> rfl

variable [Scalar α] {options : Options α}

theorem exchange_rename (row column : Nat) (entering : String) :
    (tableau.rename naming).exchange row column (naming entering) =
      (tableau.exchange row column entering).rename naming := by
  simp [exchange, rename, List.map_set]

theorem entering?_rename :
    (tableau.rename naming).entering? options.rule options.tolerance =
      tableau.entering? options.rule options.tolerance := by
  simp [entering?, rename, candidates]

/-- A tableau and its renaming choose the same pivots. -/
theorem simulation_rename (options : Options α) (fixed : naming "RHS" = "RHS") :
    Simulation options (fun tableau other => tableau.rename naming = other)
      (fun info other => info.rename naming = other) where
  entering := by
    rintro tableau _ rfl
    exact entering?_rename
  leaving := by
    rintro tableau _ column rfl -
    rfl
  described := by
    rintro tableau _ row column rfl - -
    rw [pivotInfo?_rename fixed]
    cases tableau.pivotInfo? row column with
    | none => exact .none
    | some info => exact .some rfl
  exchange := by
    rintro tableau _ row column info _ rfl - - described otherDescribed
    rw [pivotInfo?_rename fixed, described] at otherDescribed
    obtain rfl := Option.some.inj otherDescribed
    exact (exchange_rename row column info.entering).symm

/-- The run of a renamed tableau matches the run itself. -/
theorem matches_run_rename (options : Options α) (fixed : naming "RHS" = "RHS")
    (tableau : Tableau α) :
    Run.Matches (fun tableau other => tableau.rename naming = other)
      (fun info other => info.rename naming = other) (tableau.run options)
      ((tableau.rename naming).run options) :=
  (simulation_rename options fixed).run rfl

/-- The run of a renamed tableau records the renamed steps. -/
theorem steps_run_rename (fixed : naming "RHS" = "RHS") :
    ((tableau.rename naming).run options).steps =
      (tableau.run options).steps.map (Step.rename naming) := by
  rw [← List.map_id ((tableau.rename naming).run options).steps]
  refine (matches_run_rename options fixed tableau).map_steps_eq ?_
  rintro ⟨table, pivot⟩ ⟨otherTable, otherPivot⟩ ⟨⟨source, _, rfl, sourceTable, table⟩, pivots⟩
  obtain rfl := sourceTable.trans table.symm
  cases pivots with
  | none => rfl
  | some same => exact congrArg (fun info => Step.mk _ (some info)) same.symm

end Tableau

end Simplex
