import Simplex.Proofs.Start

/-!
# Simulation

Two tableaux run alike if their pivots are chosen alike and pivoting keeps what relates them.
`Tableau.Simulation` lists what one chosen pivot has to satisfy, and `Simulation.run` concludes it
for runs of any length: step by step the tables come from related tableaux, the pivots have alike
descriptions, and both runs end in the same way. `Program.endAlike_solve` takes it from the runs to
what is reported of them.
-/

namespace Simplex

variable {α : Type}

/-- Two recorded steps have the tables of related tableaux and come from pivots that are
described alike. -/
structure Step.Matches (Related : Tableau α → Tableau α → Prop)
    (Alike : PivotInfo → PivotInfo → Prop) (step other : Step α) : Prop where
  tables : ∃ tableau otherTableau, Related tableau otherTableau ∧
    step.table = tableau.table ∧ other.table = otherTableau.table
  pivots : Option.Rel Alike step.pivot other.pivot

/-- Two outcomes are alike: both are results, and related ones, or both are the same failure. -/
inductive EndAlike {Failure Result : Type} (Related : Result → Result → Prop) :
    Except Failure Result → Except Failure Result → Prop where
  | returned {result other} (related : Related result other) :
      EndAlike Related (.ok result) (.ok other)
  | failed (failure : Failure) : EndAlike Related (.error failure) (.error failure)

theorem EndAlike.imp {Failure Result : Type} {Related Other : Result → Result → Prop}
    {outcome otherOutcome : Except Failure Result} (ends : EndAlike Related outcome otherOutcome)
    (implies : ∀ result other, Related result other → Other result other) :
    EndAlike Other outcome otherOutcome := by
  cases ends with
  | returned related => exact .returned (implies _ _ related)
  | failed failure => exact .failed failure

/-- Two runs record steps that match one by one, and end alike. -/
structure Run.Matches (Related : Tableau α → Tableau α → Prop)
    (Alike : PivotInfo → PivotInfo → Prop) (run other : Run α) : Prop where
  steps : List.Forall₂ (Step.Matches Related Alike) run.steps other.steps
  outcome : EndAlike Related run.outcome other.outcome

/-- What matching steps agree on, matching runs agree on step by step. -/
theorem Run.Matches.map_steps_eq {β : Type} {Related : Tableau α → Tableau α → Prop}
    {Alike : PivotInfo → PivotInfo → Prop} {run other : Run α}
    (matched : Run.Matches Related Alike run other) {read otherRead : Step α → β}
    (same : ∀ step other, Step.Matches Related Alike step other → otherRead other = read step) :
    other.steps.map otherRead = run.steps.map read := by
  have steps : List.Forall₂ (fun step other => read step = otherRead other) run.steps
      other.steps := matched.steps.imp fun step other matched => (same step other matched).symm
  have mapped : List.Forall₂ Eq (run.steps.map read) (other.steps.map otherRead) :=
    List.forall₂_map_left_iff.2 (List.forall₂_map_right_iff.2 steps)
  rw [List.forall₂_eq_eq_eq] at mapped
  exact mapped.symm

/-- Runs whose descriptions are alike only when they are equal describe the same pivots. -/
theorem Run.Matches.map_pivot_eq {Related : Tableau α → Tableau α → Prop} {run other : Run α}
    (matched : Run.Matches Related Eq run other) :
    other.steps.map Step.pivot = run.steps.map Step.pivot := by
  refine matched.map_steps_eq ?_
  rintro step other ⟨-, pivots⟩
  generalize step.pivot = pivot at pivots ⊢
  generalize other.pivot = otherPivot at pivots ⊢
  cases pivots with
  | none => rfl
  | some equal => exact congrArg some equal.symm

namespace Tableau

variable [Scalar α]

/-- Related tableaux choose the same pivots and describe them alike, and the chosen pivots lead
to related tableaux. -/
structure Simulation (options : Options α) (Related : Tableau α → Tableau α → Prop)
    (Alike : PivotInfo → PivotInfo → Prop) : Prop where
  entering {tableau other} (related : Related tableau other) :
    other.entering? options.rule options.tolerance =
      tableau.entering? options.rule options.tolerance
  leaving {tableau other column} (related : Related tableau other)
    (entering : tableau.entering? options.rule options.tolerance = some column) :
    other.table.leaving? column = tableau.table.leaving? column
  described {tableau other row column} (related : Related tableau other)
    (entering : tableau.entering? options.rule options.tolerance = some column)
    (leaving : tableau.table.leaving? column = some row) :
    Option.Rel Alike (tableau.pivotInfo? row column) (other.pivotInfo? row column)
  exchange {tableau other row column info otherInfo} (related : Related tableau other)
    (entering : tableau.entering? options.rule options.tolerance = some column)
    (leaving : tableau.table.leaving? column = some row)
    (described : tableau.pivotInfo? row column = some info)
    (otherDescribed : other.pivotInfo? row column = some otherInfo) :
    Related (tableau.exchange row column info.entering)
      (other.exchange row column otherInfo.entering)

namespace Simulation

variable {options : Options α} {Related : Tableau α → Tableau α → Prop}
  {Alike : PivotInfo → PivotInfo → Prop}

/-- The pivots of related tableaux match. -/
theorem pivots (simulation : Simulation options Related Alike) (remaining : Nat)
    (tableau other : Tableau α) (related : Related tableau other) :
    Run.Matches Related Alike (tableau.pivots options remaining)
      (other.pivots options remaining) := by
  fun_induction Tableau.pivots options remaining tableau generalizing other with
  | case1 tableau improvable =>
    have otherEntering := (simulation.entering related).trans (entering?_eq_some improvable)
    rw [pivots_zero otherEntering]
    exact ⟨.nil, .failed _⟩
  | case2 tableau improvable remaining column leaving =>
    have entering : tableau.entering? options.rule options.tolerance = some column :=
      entering?_eq_some improvable
    have otherEntering := (simulation.entering related).trans entering
    have otherLeaving := (simulation.leaving related entering).trans leaving
    simp only [pivots_succ otherEntering, otherLeaving]
    exact ⟨.nil, .failed _⟩
  | case3 tableau improvable remaining column row leaving unnamed =>
    have entering : tableau.entering? options.rule options.tolerance = some column :=
      entering?_eq_some improvable
    have otherEntering := (simulation.entering related).trans entering
    have otherLeaving := (simulation.leaving related entering).trans leaving
    have otherUnnamed := simulation.described related entering leaving
    rw [unnamed] at otherUnnamed
    cases described : other.pivotInfo? row column with
    | some info =>
      rw [described] at otherUnnamed
      cases otherUnnamed
    | none =>
      simp only [pivots_succ otherEntering, otherLeaving, described]
      exact ⟨.nil, .failed _⟩
  | case4 tableau improvable remaining column row leaving info described next ih =>
    have entering : tableau.entering? options.rule options.tolerance = some column :=
      entering?_eq_some improvable
    have otherEntering := (simulation.entering related).trans entering
    have otherLeaving := (simulation.leaving related entering).trans leaving
    have alike := simulation.described related entering leaving
    rw [described] at alike
    cases otherDescribed : other.pivotInfo? row column with
    | none =>
      rw [otherDescribed] at alike
      cases alike
    | some otherInfo =>
      rw [otherDescribed] at alike
      have exchanged := simulation.exchange related entering leaving described otherDescribed
      have rest := ih _ exchanged
      simp only [pivots_succ otherEntering, otherLeaving, otherDescribed]
      exact ⟨.cons ⟨⟨_, _, exchanged, rfl, rfl⟩, alike⟩ rest.steps, rest.outcome⟩
  | case5 remaining tableau optimal =>
    have otherEntering := (simulation.entering related).trans (entering?_eq_none optimal)
    rw [pivots_of_none otherEntering]
    exact ⟨.nil, .returned related⟩

/-- The runs of related tableaux match. -/
theorem run (simulation : Simulation options Related Alike) {tableau other : Tableau α}
    (related : Related tableau other) :
    Run.Matches Related Alike (tableau.run options) (other.run options) := by
  have rest := simulation.pivots options.maxIterations.toNat tableau other related
  exact ⟨.cons ⟨⟨_, _, related, rfl, rfl⟩, .none⟩ rest.steps, rest.outcome⟩

end Simulation

end Tableau

/-- Where two checked programs run alike, they are solved alike: what relates the final tableaux
makes the reports related. -/
theorem Program.endAlike_solve [Scalar α] {program other : Program α} {options : Options α}
    (method otherMethod : Method) {Related : Tableau α → Tableau α → Prop}
    {Tells : Report α → Report α → Prop} (checked : program.check = .ok ())
    (otherChecked : other.check = .ok ())
    (ends : EndAlike Related ((program.start method).run options).outcome
      ((other.start otherMethod).run options).outcome)
    (tells : ∀ {final otherFinal}, Related final otherFinal →
      Tells ⟨(final.reading method program.goal).cleaned,
          ((program.start method).run options).steps, (program.start method).columns,
          method⟩
        ⟨(otherFinal.reading otherMethod other.goal).cleaned,
          ((other.start otherMethod).run options).steps, (other.start otherMethod).columns,
          otherMethod⟩) :
    EndAlike Tells (program.solve method options) (other.solve otherMethod options) := by
  generalize outcome : ((program.start method).run options).outcome = result at ends
  generalize otherOutcome : ((other.start otherMethod).run options).outcome = otherResult at ends
  cases ends with
  | returned related =>
    rw [solve_of_ok checked outcome, solve_of_ok otherChecked otherOutcome]
    exact .returned (tells related)
  | failed failure =>
    rw [solve_of_error checked outcome, solve_of_error otherChecked otherOutcome]
    exact .failed _

end Simplex
