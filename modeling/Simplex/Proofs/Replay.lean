import Simplex.Proofs.History
import Simplex.Proofs.Start

/-!
# Replaying a run from its records

A run records enough to be repeated. Each recorded step follows the one before it by the pivot
that the options ask for, and the description of that pivot names the column and the basic
variable that the earlier descriptions have put in the row. `Step.Follows` says so of two
consecutive steps and `Program.recorded_run_replays` of everything that a method records, in any
arithmetic that orders the values which compare with themselves.
-/

namespace Simplex

variable {α : Type} [Scalar α]

/-- A recorded step follows another by the pivot that the options ask for there: on the column
that the rule prefers and on the row of the ratio test. -/
structure Step.Follows (options : Options α) (start : Tableau α) (labels : List String)
    (before after : Step α) (row column : Nat) (info : PivotInfo) : Prop
    extends Step.Pivots start labels before after row column info where
  improvable : before.table.canImprove start.candidates options.tolerance = true
  candidate : column < start.candidates
  preferred : before.table.Preferred start.candidates options.tolerance column options.rule
  selected : before.table.leaving? column = some row

namespace Tableau

variable {options : Options α} {start : Tableau α}

/-- Consecutive records of a run follow each other, if everything compares with itself in the
objective row of the first of them. -/
theorem follows_of_recorded [OrderedScalar α] {height : Nat}
    (sized : start.table.Sized height (start.candidates + 2)) {index : Nat}
    {before after : Step α} (listed : (start.run options).steps[index]? = some before)
    (next : (start.run options).steps[index + 1]? = some after)
    (ordered : ∀ cost ∈ before.table.objective, ¬ Scalar.Unordered cost) :
    ∃ row column info, Step.Follows options start
      (((start.run options).steps.take (index + 1)).foldl Step.relabel start.basis)
      before after row column info := by
  obtain ⟨row, column, info, entering, leaving, pivots⟩ := pivots_of_recorded listed next
  have shaped := sized_of_recorded sized (List.mem_of_getElem? listed)
  have improvable : before.table.canImprove start.candidates options.tolerance = true := by
    rw [← Table.isSome_entering?, entering, Option.isSome_some]
  refine ⟨row, column, info, pivots, improvable, Table.lt_of_entering? entering, ?_, leaving⟩
  refine shaped.preferred_of_entering? (by omega) (fun cost member => ?_) entering
  exact ordered cost (List.mem_of_mem_take member)

/-- A run returns the tableau that its records replay to, and nothing improves the objective
there. -/
theorem replayed_of_ok {final : Tableau α} (returned : (start.run options).outcome = .ok final) :
    (start.run options).steps.getLast?.map Step.table = some final.table ∧
      final.canImprove options.tolerance = false ∧
      final = { start with
        table := final.table
        basis := (start.run options).steps.foldl Step.relabel start.basis } := by
  have reached := reaches_of_ok returned
  refine ⟨reached.getLast?_eq, ?_, ?_⟩
  · obtain ⟨last, -, -, ends⟩ := ends_run options start []
    rw [returned] at ends
    obtain ⟨table, optimal⟩ := ends
    rw [canImprove, candidates_of_ok options returned, table, ← Table.isSome_entering?, optimal,
      Option.isSome_none]
  · have replayed := foldl_replay_eq start (start.run options).steps
    rwa [← reached.eq_foldl_replay] at replayed

end Tableau

namespace Program

/-- The records of a method replay its run, as long as everything compares with itself in the
recorded objective rows. The first record is the initial table without a pivot, and each further
one follows the one before it by the pivot that the options ask for. A run that returns ends in
the table it recorded last, where nothing improves, and under the names that its records replay
to; a solve then reports the records, one more than pivots were made. A run that fails makes the
solve fail likewise. -/
theorem recorded_run_replays [OrderedScalar α] (program : Program α) (options : Options α)
    (method : Method) (checked : program.check = .ok ())
    (ordered : ∀ step ∈ ((program.start method).run options).steps,
      ∀ cost ∈ step.table.objective, ¬ Scalar.Unordered cost) :
    let start := program.start method
    let run := start.run options
    run.steps.head? = some ⟨start.table, none⟩ ∧
    (∀ index before after, run.steps[index]? = some before →
      run.steps[index + 1]? = some after → ∃ row column info,
        Step.Follows options start ((run.steps.take (index + 1)).foldl Step.relabel start.basis)
          before after row column info) ∧
    match run.outcome with
    | .ok final =>
      run.steps.getLast?.map Step.table = some final.table ∧
        final.canImprove options.tolerance = false ∧
        final = { start with
          table := final.table
          basis := run.steps.foldl Step.relabel start.basis } ∧
        ∃ report, program.solve method options = .ok report ∧ report.steps = run.steps ∧
          report.iterations + 1 = run.steps.length
    | .error error => program.solve method options = .error (.run error) := by
  intro start run
  have fits := (check_eq_ok_iff program).1 checked
  have sized : start.table.Sized (program.height method) (start.candidates + 2) :=
    fits.candidates_start method ▸ fits.sized_start method
  refine ⟨rfl, fun index before after listed next => ?_, ?_⟩
  · exact Tableau.follows_of_recorded sized listed next
      (ordered before (List.mem_of_getElem? listed))
  · cases outcome : run.outcome with
    | ok final =>
      obtain ⟨last, optimal, replayed⟩ := Tableau.replayed_of_ok outcome
      exact ⟨last, optimal, replayed, _, solve_of_ok checked outcome, rfl, rfl⟩
    | error error => exact solve_of_error checked outcome

/-- A program in tenths, which doubles only approximate. -/
def tenths : Program Float where
  objective := [0.3, 0.1]
  constraints := [[0.7, 0.2], [0.1, 0.6]]
  senses := [.atMost, .atMost]
  rhs := [0.3, 1]
  goal := .maximize
  names := []

/-- The second pivot of `tenths` takes out the variable that the first one brought in. -/
theorem recorded_run_tenths :
    let start := tenths.start .primal
    let run := start.run .default
    tenths.check = .ok () ∧
      (∀ step ∈ run.steps, ∀ cost ∈ step.table.objective, ¬ Scalar.Unordered cost) ∧
      ∃ before after row column info, run.steps[1]? = some before ∧ run.steps[2]? = some after ∧
        Step.Follows .default start ["x1", "s2"] before after row column info := by
  intro start run
  have checked : tenths.check = .ok () := by decide
  have ordered : ∀ step ∈ run.steps, ∀ cost ∈ step.table.objective,
      ¬ Scalar.Unordered cost := by
    decide +kernel
  obtain ⟨first, before, after, steps⟩ : ∃ first before after, run.steps = [first, before, after] :=
    List.length_eq_three.1 (by decide +kernel)
  have labels : (run.steps.take 2).foldl Step.relabel start.basis = ["x1", "s2"] := by
    decide +kernel
  have second : run.steps[1]? = some before := by rw [steps]; rfl
  have third : run.steps[2]? = some after := by rw [steps]; rfl
  obtain ⟨-, follows, -⟩ := recorded_run_replays tenths .default .primal checked ordered
  obtain ⟨row, column, info, replayed⟩ := follows 1 before after second third
  rw [labels] at replayed
  exact ⟨checked, ordered, before, after, row, column, info, second, third, replayed⟩

end Program

end Simplex
