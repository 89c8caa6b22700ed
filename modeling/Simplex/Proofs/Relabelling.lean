import Simplex.Proofs.Completion
import Simplex.Proofs.DualMethod

/-!
# Names as labels

A run reads the names of a tableau to describe its pivots and for nothing else. Programs that
differ in the names of their variables only are therefore run alike, whether the names are given or
made up: table by table and pivot by pivot, to the same end. The primal reading finds the values by
name, so what it shows for a column depends on the columns that share its name. Where the same
columns do in both programs, and in particular where all names differ, the values agree position
by position; otherwise they need not.
-/

namespace Simplex

variable {α : Type}

/-- What a recorded step says apart from names: its table and the position of its pivot. -/
def Step.unlabelled (step : Step α) : Table α × Option (Int × Int) :=
  (step.table, step.pivot.map fun info => (info.row, info.column))

/-- Two lists of one length repeat names at the same positions. -/
structure NamedAlike (names others : List String) : Prop where
  length : others.length = names.length
  repeated : ∀ first < names.length, ∀ second < names.length,
    (names.getD first "" = names.getD second "" ↔ others.getD first "" = others.getD second "")

theorem NamedAlike.of_nodup {names others : List String} (length : others.length = names.length)
    (distinct : names.Nodup) (otherDistinct : others.Nodup) : NamedAlike names others where
  length := length
  repeated := by
    intro first firstInside second secondInside
    rw [List.getD_eq_getElem _ _ firstInside, List.getD_eq_getElem _ _ secondInside,
      List.getD_eq_getElem _ _ (length ▸ firstInside),
      List.getD_eq_getElem _ _ (length ▸ secondInside),
      distinct.getElem_inj_iff, otherDistinct.getElem_inj_iff]

/-- Lists whose keys compare alike with two names have the same value under them. -/
theorem lookup_map_congr {ι β : Type} {entries : List ι} {key otherKey : ι → String}
    {name otherName : String} (value : ι → β)
    (same : ∀ entry ∈ entries, name = key entry ↔ otherName = otherKey entry) :
    (entries.map fun entry => (otherKey entry, value entry)).lookup otherName =
      (entries.map fun entry => (key entry, value entry)).lookup name := by
  induction entries with
  | nil => rfl
  | cons entry rest ih =>
    have first : (otherName == otherKey entry) = (name == key entry) :=
      Bool.eq_iff_iff.2 (by simpa using (same entry List.mem_cons_self).symm)
    have others := ih fun other member => same other (List.mem_cons_of_mem _ member)
    simp only [List.map_cons, List.lookup_cons, first, others]

/-- A report says the same as another one, apart from names. The values agree by position where
the reported names repeat alike. -/
structure Report.Relabels (report other : Report α) : Prop where
  steps : other.steps.map Step.unlabelled = report.steps.map Step.unlabelled
  iterations : other.iterations = report.iterations
  optimalValue : other.solution.optimalValue = report.solution.optimalValue
  values : NamedAlike (report.solution.values.map Prod.fst) (other.solution.values.map Prod.fst) →
    other.solution.values.map Prod.snd = report.solution.values.map Prod.snd

/-- Lists of one length have entries at the same positions. -/
theorem rel_getElem? {names others : List String} (length : others.length = names.length)
    (index : Nat) : Option.Rel (fun _ _ => True) names[index]? others[index]? := by
  by_cases inside : index < names.length
  · rw [List.getElem?_eq_getElem inside, List.getElem?_eq_getElem (length ▸ inside)]
    exact .some trivial
  · have outside := not_lt.1 inside
    rw [List.getElem?_eq_none outside, List.getElem?_eq_none (length ▸ outside)]
    exact .none

namespace Tableau

/-- A tableau under one list of names, and another with the same table under a second list. -/
structure Relabels (names others : List String) (tableau other : Tableau α) : Prop where
  table : other.table = tableau.table
  structural : other.structural.length = tableau.structural.length
  basis : other.basis.length = tableau.basis.length
  names : tableau.names = names
  others : other.names = others

variable {names others : List String} {tableau other : Tableau α}

namespace Relabels

theorem candidates_eq (relabels : Relabels names others tableau other)
    (length : others.length = names.length) : other.candidates = tableau.candidates := by
  rw [← length_names, ← length_names, relabels.names, relabels.others, length]

/-- Both tableaux describe a pivot at the same position, or neither does. -/
theorem rel_pivotInfo? (relabels : Relabels names others tableau other)
    (length : others.length = names.length) (row column : Nat) :
    Option.Rel (fun info otherInfo => (otherInfo.row, otherInfo.column) = (info.row, info.column))
      (tableau.pivotInfo? row column) (other.pivotInfo? row column) := by
  have columns : other.columns.length = tableau.columns.length := by
    rw [length_columns, length_columns, relabels.candidates_eq length]
  have entering := rel_getElem? columns column
  have leaving := rel_getElem? relabels.basis row
  unfold Tableau.pivotInfo?
  generalize tableau.columns[column]? = name at entering ⊢
  generalize other.columns[column]? = otherName at entering ⊢
  generalize tableau.basis[row]? = label at leaving ⊢
  generalize other.basis[row]? = otherLabel at leaving ⊢
  cases entering with
  | none => exact .none
  | some =>
    cases leaving with
    | none => exact .none
    | some => exact .some rfl

end Relabels

variable [Scalar α]

/-- Tableaux that differ in names choose the same pivots. -/
theorem simulation_relabels (options : Options α) (length : others.length = names.length) :
    Simulation options (Relabels names others) fun info otherInfo =>
      (otherInfo.row, otherInfo.column) = (info.row, info.column) where
  entering := by
    intro tableau other relabels
    simp only [entering?, relabels.table, relabels.candidates_eq length]
  leaving := by
    intro tableau other column relabels _
    rw [relabels.table]
  described := by
    intro tableau other row column relabels _ _
    exact relabels.rel_pivotInfo? length row column
  exchange := by
    intro tableau other row column info otherInfo relabels _ _ _ _
    exact {
      table := by simp only [exchange, relabels.table]
      structural := relabels.structural
      basis := by simpa only [exchange, List.length_set] using relabels.basis
      names := relabels.names
      others := relabels.others }

namespace Relabels

/-- The runs of tableaux that differ in names record the same, apart from names. -/
theorem unlabelled_steps_run (relabels : Relabels names others tableau other)
    (length : others.length = names.length) (options : Options α) :
    (other.run options).steps.map Step.unlabelled =
      (tableau.run options).steps.map Step.unlabelled := by
  refine ((simulation_relabels options length).run relabels).map_steps_eq ?_
  rintro ⟨table, pivot⟩ ⟨otherTable, otherPivot⟩
    ⟨⟨source, otherSource, related, sourceTable, otherSourceTable⟩, pivots⟩
  obtain rfl : otherTable = table :=
    otherSourceTable.trans (related.table.trans sourceTable.symm)
  cases pivots with
  | none => rfl
  | some position => exact congrArg (fun position => (_, some position)) position

/-- Where the names repeat alike, the scan of basic columns writes the same for a column. -/
theorem lastWritten_basicWrites (relabels : Relabels names others tableau other)
    (alike : NamedAlike names others) {columns column : Nat} (fits : columns ≤ names.length)
    (inside : column < names.length) :
    lastWritten (other.basicWrites columns) (others.getD column "") =
      lastWritten (tableau.basicWrites columns) (names.getD column "") := by
  have same : ∀ position ∈ (tableau.table.basicColumns Table.unitTolerance columns
      tableau.structural.length).reverse,
      names.getD column "" = names.getD position.2 "" ↔
        others.getD column "" = others.getD position.2 "" := by
    intro position member
    have found := Table.mem_basicColumns.1 (List.mem_reverse.1 member)
    have bound := (Table.isUnitColumn_of_basicColumn? found.2).1
    exact alike.repeated column inside position.2 (bound.trans_le fits)
  have written := lookup_map_congr (fun position : Nat × Nat => tableau.table.rhs position.1) same
  simp only [lastWritten, basicWrites, ← List.map_reverse, relabels.names, relabels.others,
    relabels.table, relabels.structural, written]

theorem objectiveValue_eq (relabels : Relabels names others tableau other) :
    other.objectiveValue = tableau.objectiveValue := by
  rw [Tableau.objectiveValue, Tableau.objectiveValue, relabels.table]

/-- Where the names repeat alike, the primal reading shows the same value for every column. -/
theorem values_primalReading (relabels : Relabels names others tableau other)
    (alike : NamedAlike names others) (goal : Goal) :
    (other.primalReading goal).cleaned.values.map Prod.snd =
      (tableau.primalReading goal).cleaned.values.map Prod.snd := by
  obtain rfl := relabels.names
  obtain rfl := relabels.others
  refine List.ext_getElem (by simp [primalReading, Solution.cleaned, alike.length]) ?_
  intro column otherInside inside
  have listed : column < tableau.names.length := by
    simpa [primalReading, Solution.cleaned] using inside
  have written := relabels.lastWritten_basicWrites alike
    tableau.length_names.ge listed
  rw [List.getD_eq_getElem _ _ listed,
    List.getD_eq_getElem _ _ (alike.length ▸ listed)] at written
  simp [primalReading, Solution.cleaned, written, relabels.candidates_eq alike.length]

/-- What the primal method reports of tableaux that differ in names. -/
theorem relabels_report (relabels : Relabels names others tableau other) (goal : Goal)
    {steps otherSteps : List (Step α)} {columns otherColumns : List String}
    (recorded : otherSteps.map Step.unlabelled = steps.map Step.unlabelled) :
    Report.Relabels ⟨(tableau.primalReading goal).cleaned, steps, columns, .primal⟩
      ⟨(other.primalReading goal).cleaned, otherSteps, otherColumns, .primal⟩ where
  steps := recorded
  iterations := by
    have length := congrArg List.length recorded
    rw [List.length_map, List.length_map] at length
    simp only [Report.iterations, length]
  optimalValue := by
    simp only [Solution.cleaned, primalReading, relabels.objectiveValue_eq]
  values := by
    intro alike
    have named := tableau.map_fst_values .primal goal
    have otherNamed := other.map_fst_values .primal goal
    rw [relabels.names] at named
    rw [relabels.others] at otherNamed
    refine relabels.values_primalReading ?_ goal
    rw [← named, ← otherNamed]
    exact alike

end Relabels

end Tableau

namespace Program

variable [Scalar α] {program : Program α} {names : List String}

/-- The program under other names, from the tableaux that both start from. -/
theorem relabels_start (fits : program.Fits)
    (otherFits : ({ program with names := names } : Program α).Fits) (method : Method) :
    Tableau.Relabels (program.start method).names
      (({ program with names := names } : Program α).start method).names
      (program.start method) (({ program with names := names } : Program α).start method) := by
  cases method with
  | primal =>
    exact ⟨rfl, otherFits.length_variableNames.trans fits.length_variableNames.symm, rfl, rfl, rfl⟩
  | dual => exact ⟨rfl, rfl, rfl, rfl, rfl⟩

theorem length_names_start (fits : program.Fits)
    (otherFits : ({ program with names := names } : Program α).Fits) (method : Method) :
    (({ program with names := names } : Program α).start method).names.length =
      (program.start method).names.length := by
  rw [Tableau.length_names, Tableau.length_names, fits.candidates_start,
    otherFits.candidates_start]
  rfl

/-- Two checked programs that differ in the names of their variables only are solved alike, by
either method and in any arithmetic. They record the same tables and the same positions of pivots,
fail in the same way, and report as many iterations and the same optimal value. The values agree
position by position where the names of the columns repeat alike, and so in particular where all
of them differ. The dual method reports the very same, names included. -/
theorem solve_relabelled (program : Program α) (names : List String) (options : Options α)
    (checked : program.check = .ok ())
    (otherChecked : ({ program with names := names } : Program α).check = .ok ()) :
    let other : Program α := { program with names := names }
    (∀ method, ((other.start method).run options).steps.map Step.unlabelled =
        ((program.start method).run options).steps.map Step.unlabelled ∧
      EndAlike Report.Relabels (program.solve method options) (other.solve method options)) ∧
    (program.primalTableau.names.Nodup → other.primalTableau.names.Nodup →
      EndAlike (fun report otherReport =>
          otherReport.solution.values.map Prod.snd = report.solution.values.map Prod.snd)
        (program.solve .primal options) (other.solve .primal options)) ∧
    other.solve .dual options = program.solve .dual options := by
  intro other
  have fits := (check_eq_ok_iff program).1 checked
  have otherFits := (check_eq_ok_iff other).1 otherChecked
  have length := length_names_start fits otherFits
  have steps : ∀ method, ((other.start method).run options).steps.map Step.unlabelled =
      ((program.start method).run options).steps.map Step.unlabelled := fun method =>
    (relabels_start fits otherFits method).unlabelled_steps_run (length method) options
  have dual : other.solve .dual options = program.solve .dual options :=
    solve_dual_congr checked otherChecked rfl rfl rfl
  have ends : EndAlike (Tableau.Relabels program.primalTableau.names other.primalTableau.names)
      (program.primalTableau.run options).outcome (other.primalTableau.run options).outcome :=
    ((Tableau.simulation_relabels options (length .primal)).run
      (relabels_start fits otherFits .primal)).outcome
  refine ⟨fun method => ⟨steps method, ?_⟩, fun distinct otherDistinct => ?_, dual⟩
  · cases method with
    | primal =>
      refine endAlike_solve .primal .primal checked otherChecked ends ?_
      intro final otherFinal relabels
      exact relabels.relabels_report program.goal (steps .primal)
    | dual =>
      rw [dual]
      cases program.solve .dual options with
      | error failure => exact .failed failure
      | ok report => exact .returned ⟨rfl, rfl, rfl, fun _ => rfl⟩
  · refine endAlike_solve .primal .primal checked otherChecked ends ?_
    intro final otherFinal relabels
    exact relabels.values_primalReading
      (.of_nodup (length .primal) distinct otherDistinct) program.goal

/-- Two products and two limits. -/
def twoProducts (names : List String) : Program Float where
  objective := [1, 1]
  constraints := [[1, 0], [0, 1]]
  senses := [.atMost, .atMost]
  rhs := [1, 2]
  goal := .maximize
  names := names

/-- With and without names of their own, the products get the same values, and the columns other
names. -/
theorem solve_relabelled_twoProducts :
    (twoProducts []).check = .ok () ∧ (twoProducts ["chair", "table"]).check = .ok () ∧
      ∃ report otherReport,
        (twoProducts []).solve .primal .default = .ok report ∧
        (twoProducts ["chair", "table"]).solve .primal .default = .ok otherReport ∧
        otherReport.columns ≠ report.columns ∧
        otherReport.solution.values.map Prod.snd = report.solution.values.map Prod.snd := by
  have checked : (twoProducts []).check = .ok () := by decide
  have otherChecked : (twoProducts ["chair", "table"]).check = .ok () := by decide
  have columns : ((twoProducts []).solve .primal .default).toOption.map Report.columns =
      some ["x1", "x2", "s1", "s2", "Z", "RHS"] := by decide +kernel
  have otherColumns :
      ((twoProducts ["chair", "table"]).solve .primal .default).toOption.map Report.columns =
        some ["chair", "table", "s1", "s2", "Z", "RHS"] := by decide +kernel
  obtain ⟨-, values, -⟩ :=
    solve_relabelled (twoProducts []) ["chair", "table"] .default checked otherChecked
  have ends := values (by decide) (by decide)
  change EndAlike _ _ ((twoProducts ["chair", "table"]).solve .primal .default) at ends
  generalize (twoProducts []).solve .primal .default = solved at columns ends ⊢
  generalize (twoProducts ["chair", "table"]).solve .primal .default = otherSolved
    at otherColumns ends ⊢
  cases ends with
  | failed failure => cases columns
  | @returned report otherReport same =>
    refine ⟨checked, otherChecked, report, otherReport, rfl, rfl, ?_, same⟩
    rw [Option.some.inj columns, Option.some.inj otherColumns]
    decide

/-- Under one name for both products, the first one is shown the value of the second. -/
theorem values_repeatedName :
    (twoProducts []).check = .ok () ∧ (twoProducts ["a", "a"]).check = .ok () ∧
      ((twoProducts []).solve .primal .default).toOption.map
        (fun report => report.solution.values) =
          some [("x1", 1), ("x2", 2), ("s1", 0), ("s2", 0)] ∧
      ((twoProducts ["a", "a"]).solve .primal .default).toOption.map
        (fun report => report.solution.values) =
          some [("a", 2), ("a", 2), ("s1", 0), ("s2", 0)] := by
  refine ⟨by decide, by decide, by decide +kernel, by decide +kernel⟩

end Program

end Simplex
