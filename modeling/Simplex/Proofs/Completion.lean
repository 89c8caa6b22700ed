import Simplex.Proofs.History
import Simplex.Proofs.Start
import Simplex.Proofs.Table.UnitColumn

/-!
# How a solve can come out

A program that passes the check is solved without an internal failure, whatever the results of
the arithmetic: entries may be infinite or unordered, and comparisons may all fail.
`Program.solve_completes` says that every position is inside its table and its lists, that every
divisor compares as positive, and that nothing comes out but a report, an unbounded column or the
limit.
-/

namespace Simplex

variable {α : Type} [Scalar α]

namespace Tableau

variable {options : Options α} {start : Tableau α} {height width : Nat}

/-- A recorded pivot is on a candidate column and a constraint row, at an entry that compares as
positive. -/
theorem inside_of_recorded (sized : start.table.Sized height width) {index : Nat}
    {before after : Step α} (listed : (start.run options).steps[index]? = some before)
    (next : (start.run options).steps[index + 1]? = some after) :
    ∃ row < height, ∃ column < start.candidates, ∃ info, 0 < before.table.entry row column ∧
      Step.Pivots start
        (((start.run options).steps.take (index + 1)).foldl Step.relabel start.basis)
        before after row column info := by
  obtain ⟨row, column, info, entering, leaving, pivots⟩ := pivots_of_recorded listed next
  have shaped := sized_of_recorded sized (List.mem_of_getElem? listed)
  obtain ⟨inside, positive⟩ := Table.pos_of_leaving? leaving
  rw [shaped.height_eq] at inside
  exact ⟨row, inside, column, Table.lt_of_entering? entering, info, positive, pivots⟩

/-- A reported solution has a value for every candidate, in the order of the columns. -/
theorem map_fst_values (tableau : Tableau α) (method : Method) (goal : Goal) :
    (tableau.reading method goal).cleaned.values.map Prod.fst = tableau.names := by
  cases method <;>
    simp [reading, primalReading, dualReading, Solution.cleaned, Function.comp_def]

end Tableau

/-- The columns taken as basic are among those that are looked at. -/
theorem Table.Sized.inside_of_mem_basicColumns {table : Table α} {height width : Nat}
    (sized : table.Sized height width) {tolerance : α} {columns structural : Nat}
    {position : Nat × Nat} (basic : position ∈ table.basicColumns tolerance columns structural) :
    position.1 < height ∧ position.2 < columns := by
  obtain ⟨inside, taken⟩ := mem_basicColumns.1 basic
  exact ⟨sized.height_eq ▸ inside, (isUnitColumn_of_basicColumn? taken).1⟩

namespace Program

/-- A program that passes the check has an initial tableau for either method, and its solve never
fails internally. Every recorded table has the initial size, with a name for every column; a
column enters exactly where the objective can be improved; what the ratio test divides by
compares as positive. Every pivot is made on a constraint row, a candidate column and an entry
that compares as positive, and takes its names from positions inside the lists. What comes out
is a report, with a value for every candidate in the order of the columns and read off positions
inside the final table, or a column that was to enter and that no row bounds, or the limit. -/
theorem solve_completes (program : Program α) (options : Options α) (method : Method)
    (checked : program.check = .ok ()) :
    let height := program.height method
    let candidates := program.candidates
    let start := program.start method
    let run := start.run options
    let entering? := fun step : Step α =>
      step.table.entering? candidates options.rule options.tolerance
    program.tableau method = .ok start ∧ start.candidates = candidates ∧
    start.columns.length = candidates + 2 ∧
    (∀ step ∈ run.steps, step.table.Sized height (candidates + 2) ∧
      (entering? step).isSome = step.table.canImprove candidates options.tolerance ∧
      ∀ column, ∀ ratio ∈ step.table.ratios column,
        ratio.1 < height ∧ 0 < step.table.entry ratio.1 column) ∧
    (∀ index before after, run.steps[index]? = some before →
      run.steps[index + 1]? = some after →
        ∃ row < height, ∃ column < candidates, ∃ info, 0 < before.table.entry row column ∧
          Step.Pivots start ((run.steps.take (index + 1)).foldl Step.relabel start.basis)
            before after row column info) ∧
    match program.solve method options with
    | .ok report =>
      report.columns = start.columns ∧
        report.solution.values.map Prod.fst = start.columns.take candidates ∧
        ∃ final, run.outcome = .ok final ∧ final.candidates = candidates ∧
          final.table.Sized height (candidates + 2) ∧
          ∀ columns ≤ candidates, ∀ position ∈ final.table.basicColumns Table.unitTolerance
            columns final.structural.length, position.1 < height ∧ position.2 < columns
    | .error (.run (.unbounded column)) =>
      ∃ step, run.steps.getLast? = some step ∧ entering? step = some column ∧
        step.table.leaving? column = none
    | .error (.run (.iterationLimit _)) =>
      ∃ step, run.steps.getLast? = some step ∧ (entering? step).isSome
    | .error _ => False := by
  intro height candidates start run entering?
  have fits := (check_eq_ok_iff program).1 checked
  have sized : start.table.Sized height (candidates + 2) := fits.sized_start method
  have count : start.candidates = candidates := fits.candidates_start method
  refine ⟨tableau_eq_ok checked method, count, ?_, ?_, ?_, ?_⟩
  · rw [start.length_columns, count]
  · intro step recorded
    have shaped := Tableau.sized_of_recorded sized recorded
    refine ⟨shaped, Table.isSome_entering?, fun column ratio listed => ?_⟩
    obtain ⟨inside, positive, -⟩ := Table.mem_ratios.1 listed
    exact ⟨shaped.height_eq ▸ inside, positive⟩
  · intro index before after listed next
    rw [← count]
    exact Tableau.inside_of_recorded sized listed next
  · obtain ⟨step, basis, last, ends⟩ := Tableau.ends_recorded options start
    cases outcome : run.outcome with
    | ok final =>
      have reached := Tableau.reaches_of_ok outcome
      have shaped := reached.sized sized
      obtain ⟨structural, auxiliary⟩ := Tableau.names_of_ok options outcome
      rw [solve_of_ok checked outcome]
      have kept := (Tableau.candidates_of_ok options outcome).trans count
      refine ⟨rfl, ?_, final, rfl, kept, shaped, fun columns _ position basic => ?_⟩
      · rw [Tableau.map_fst_values, ← count, start.take_columns, Tableau.names, Tableau.names,
          structural, auxiliary]
      · exact shaped.inside_of_mem_basicColumns basic
    | error error =>
      rw [show (start.run options).outcome = .error error from outcome, count] at ends
      rw [solve_of_error checked outcome]
      cases error with
      | unbounded column => exact ⟨step, last, ends⟩
      | iterationLimit pivots => exact ⟨step, last, ends⟩
      | unlabelledRow row =>
        exact absurd outcome ((fits.labelled_start method).pivots_ne_unlabelledRow _ row)

/-- A program with a cost that is not a number. -/
def undefinedCost : Program Float where
  objective := [0 / 0, 1]
  constraints := [[1, 1]]
  senses := [.atMost]
  rhs := [1]
  goal := .maximize
  names := []

/-- On `undefinedCost` the scan for the least entry stops at the cost that compares with nothing.
The pivot on its column leaves no entry that compares as negative, and a value is reported for
every candidate. -/
theorem solve_undefinedCost :
    undefinedCost.check = .ok () ∧ ∃ report, undefinedCost.solve .primal .default = .ok report ∧
      report.steps.map (Option.map PivotInfo.column ∘ Step.pivot) = [none, some 0] ∧
      report.solution.values.map Prod.fst = ["x1", "x2", "s1"] := by
  have checked : undefinedCost.check = .ok () := by decide
  have pivots : (undefinedCost.solve .primal .default).toOption.map
      (fun report => report.steps.map (Option.map PivotInfo.column ∘ Step.pivot)) =
        some [none, some 0] := by
    decide +kernel
  obtain ⟨-, -, -, -, -, completes⟩ :=
    solve_completes undefinedCost .default .primal checked
  cases outcome : undefinedCost.solve .primal .default with
  | error error =>
    rw [outcome] at pivots
    cases pivots
  | ok report =>
    rw [outcome] at pivots completes
    exact ⟨checked, report, rfl, Option.some.inj pivots, completes.2.1⟩

end Program

end Simplex
