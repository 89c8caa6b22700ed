import Simplex.Proofs.Frame
import Simplex.Proofs.Table.Choice

/-!
# Histories of a run

`Tableau.Reaches` relates the steps recorded so far to the tableau that the run then works
on, names of the basic variables included. The recorded steps alone determine that tableau
(`Reaches.eq_foldl_replay`), so every beginning of what a run records is the history of the
tableau it replays to, and what holds of the first tableau and is kept by chosen pivots holds
at every recorded step. A recorded step that follows another comes from the pivot chosen in
that one (`exists_pivot_of_recorded`).
-/

namespace Simplex

variable {α : Type}

/-- The names of the basic variables after a recorded step: a pivot puts the entering one in
its row. -/
def Step.relabel (labels : List String) (step : Step α) : List String :=
  match step.pivot with
  | none => labels
  | some info => labels.set info.row.toNat info.entering

/-- The tableau after a recorded step. -/
def Tableau.replay (tableau : Tableau α) (step : Step α) : Tableau α :=
  { tableau with
    table := step.table
    basis := step.relabel tableau.basis }

/-- A recorded step pivots the one before it, and describes the pivot by its position, the name
of its column and the name that its row has until then. -/
structure Step.Pivots [Scalar α] (start : Tableau α) (labels : List String)
    (before after : Step α) (row column : Nat) (info : PivotInfo) : Prop where
  recorded : after = ⟨before.table.pivot row column, some info⟩
  position : info.row = row ∧ info.column = column
  enters : start.columns[column]? = some info.entering
  leaves : labels[row]? = some info.leaving

namespace Tableau

/-- Replaying steps changes the table and the names of the basic variables and nothing else. -/
theorem foldl_replay_eq (tableau : Tableau α) (steps : List (Step α)) :
    steps.foldl replay tableau =
      { tableau with
        table := (steps.foldl replay tableau).table
        basis := steps.foldl Step.relabel tableau.basis } := by
  induction steps generalizing tableau with
  | nil => rfl
  | cons step steps ih =>
    rw [List.foldl_cons, List.foldl_cons, ih (tableau.replay step)]
    rfl

theorem basis_foldl_replay (tableau : Tableau α) (steps : List (Step α)) :
    (steps.foldl replay tableau).basis = steps.foldl Step.relabel tableau.basis := by
  rw [foldl_replay_eq]

theorem columns_foldl_replay (tableau : Tableau α) (steps : List (Step α)) :
    (steps.foldl replay tableau).columns = tableau.columns := by
  rw [foldl_replay_eq]
  rfl

theorem candidates_foldl_replay (tableau : Tableau α) (steps : List (Step α)) :
    (steps.foldl replay tableau).candidates = tableau.candidates := by
  rw [foldl_replay_eq]
  rfl

/-- The recorded steps up to one of them replay to its table. -/
theorem table_foldl_replay_take (tableau : Tableau α) {steps : List (Step α)} {index : Nat}
    {step : Step α} (listed : steps[index]? = some step) :
    ((steps.take (index + 1)).foldl replay tableau).table = step.table := by
  rw [List.take_add_one, listed, Option.toList_some, List.foldl_concat]
  rfl

/-- A description names the entering column and the basic variable of the pivot row. -/
theorem names_of_pivotInfo? {tableau : Tableau α} {row column : Nat} {info : PivotInfo}
    (described : tableau.pivotInfo? row column = some info) :
    tableau.columns[column]? = some info.entering ∧ tableau.basis[row]? = some info.leaving := by
  unfold pivotInfo? at described
  split at described
  · rename_i entering leaving entered left
    obtain rfl := Option.some.inj described
    exact ⟨entered, left⟩
  · cases described

variable [Scalar α] {options : Options α} {start : Tableau α}

/-- The tableaux that chosen pivots lead to, each with the steps recorded until then. -/
inductive Reaches (options : Options α) (start : Tableau α) :
    List (Step α) → Tableau α → Prop where
  | initial : Reaches options start [⟨start.table, none⟩] start
  | pivot {steps tableau row column info} (reached : Reaches options start steps tableau)
      (entering : tableau.entering? options.rule options.tolerance = some column)
      (leaving : tableau.table.leaving? column = some row)
      (described : tableau.pivotInfo? row column = some info) :
      Reaches options start (steps ++ [⟨tableau.table.pivot row column, some info⟩])
        (tableau.exchange row column info.entering)

/-- The recorded steps determine the tableau. -/
theorem Reaches.eq_foldl_replay {steps : List (Step α)} {tableau : Tableau α}
    (reached : Reaches options start steps tableau) : tableau = steps.foldl replay start := by
  induction reached with
  | initial => rfl
  | pivot reached entering leaving described ih =>
    rw [List.foldl_concat, ← ih]
    simp [replay, exchange, Step.relabel, (pivotInfo?_eq_some described).1]

/-- A description names the entering column, and the basic variable that the recorded steps have
put in the pivot row. -/
theorem Reaches.names_of_pivotInfo? {steps : List (Step α)} {tableau : Tableau α}
    (reached : Reaches options start steps tableau) {row column : Nat} {info : PivotInfo}
    (described : tableau.pivotInfo? row column = some info) :
    start.columns[column]? = some info.entering ∧
      (steps.foldl Step.relabel start.basis)[row]? = some info.leaving := by
  have names := Tableau.names_of_pivotInfo? described
  rwa [reached.eq_foldl_replay, columns_foldl_replay, basis_foldl_replay] at names

/-- The table of the last recorded step is that of the tableau. -/
theorem Reaches.getLast?_eq {steps : List (Step α)} {tableau : Tableau α}
    (reached : Reaches options start steps tableau) :
    steps.getLast?.map Step.table = some tableau.table := by
  cases reached with
  | initial => rfl
  | pivot => simp [exchange]

/-- One more recorded step comes from a chosen pivot. -/
theorem Reaches.of_concat {steps : List (Step α)} {step : Step α} {next : Tableau α}
    (reached : Reaches options start (steps ++ [step]) next) (nonempty : steps ≠ []) :
    ∃ tableau row column info, Reaches options start steps tableau ∧
      tableau.entering? options.rule options.tolerance = some column ∧
      tableau.table.leaving? column = some row ∧
      tableau.pivotInfo? row column = some info ∧
      step = ⟨tableau.table.pivot row column, some info⟩ := by
  generalize listed : steps ++ [step] = recorded at reached
  cases reached with
  | initial =>
    have length := congrArg List.length listed
    simp [nonempty] at length
  | pivot reached entering leaving described =>
    obtain ⟨rfl, rfl⟩ := List.append_singleton_inj.1 listed
    exact ⟨_, _, _, _, reached, entering, leaving, described, rfl⟩

/-- Chosen pivots keep the number of candidates. -/
theorem Reaches.candidates_eq {steps : List (Step α)} {tableau : Tableau α}
    (reached : Reaches options start steps tableau) : tableau.candidates = start.candidates := by
  rw [reached.eq_foldl_replay, candidates_foldl_replay]

/-- Chosen pivots keep the size of the table. -/
theorem Reaches.sized {height width : Nat} (sized : start.table.Sized height width)
    {steps : List (Step α)} {tableau : Tableau α}
    (reached : Reaches options start steps tableau) : tableau.table.Sized height width := by
  induction reached with
  | initial => exact sized
  | pivot reached entering leaving described ih =>
    have inside := (Table.pos_of_leaving? leaving).1
    exact ih.pivot _ (ih.height_eq ▸ inside.le)

/-- Every beginning of the recorded pivots extends the history of the tableau they start
from. -/
theorem Reaches.pivots (steps : List (Step α)) {tableau : Tableau α}
    (reached : Reaches options start steps tableau) (remaining index : Nat) :
    ∃ next, Reaches options start
      (steps ++ (tableau.pivots options remaining).steps.take index) next := by
  fun_induction Tableau.pivots options remaining tableau generalizing steps index with
  | case1 => exact ⟨_, by simpa using reached⟩
  | case2 => exact ⟨_, by simpa using reached⟩
  | case3 => exact ⟨_, by simpa using reached⟩
  | case4 tableau improvable remaining column row leaving info described next ih =>
    cases index with
    | zero => exact ⟨tableau, by simpa using reached⟩
    | succ index =>
      have pivoted := reached.pivot (entering?_eq_some improvable) leaving described
      obtain ⟨final, extended⟩ := ih _ pivoted index
      rw [List.append_assoc] at extended
      exact ⟨final, extended⟩
  | case5 => exact ⟨_, by simpa using reached⟩

/-- The pivots that return end with the tableau of everything recorded. -/
theorem Reaches.pivots_of_ok (steps : List (Step α)) {tableau final : Tableau α}
    (reached : Reaches options start steps tableau) {remaining : Nat}
    (returned : (tableau.pivots options remaining).outcome = .ok final) :
    Reaches options start (steps ++ (tableau.pivots options remaining).steps) final := by
  fun_induction Tableau.pivots options remaining tableau generalizing steps with
  | case1 => cases returned
  | case2 => cases returned
  | case3 => cases returned
  | case4 tableau improvable remaining column row leaving info described next ih =>
    have pivoted := reached.pivot (entering?_eq_some improvable) leaving described
    have extended := ih _ pivoted returned
    rwa [List.append_assoc] at extended
  | case5 =>
    obtain rfl := Except.ok.inj returned
    rwa [List.append_nil]

/-- Every beginning of what a run records, its first step included, is a history. -/
theorem reaches_take (options : Options α) (start : Tableau α) (index : Nat) :
    Reaches options start ((start.run options).steps.take (index + 1))
      (((start.run options).steps.take (index + 1)).foldl replay start) := by
  have split : (start.run options).steps.take (index + 1) =
      [⟨start.table, none⟩] ++
        ((start.pivots options options.maxIterations.toNat).steps.take index) := rfl
  have first : Reaches options start [⟨start.table, none⟩] start := .initial
  obtain ⟨tableau, reached⟩ := first.pivots _ options.maxIterations.toNat index
  rw [← split] at reached
  rwa [← reached.eq_foldl_replay]

/-- Every recorded table is that of a tableau with a history. -/
theorem reaches_of_recorded {index : Nat} {step : Step α}
    (listed : (start.run options).steps[index]? = some step) :
    ∃ tableau, Reaches options start ((start.run options).steps.take (index + 1)) tableau ∧
      tableau.table = step.table :=
  ⟨_, reaches_take options start index, table_foldl_replay_take start listed⟩

/-- Every recorded table has the size of the first one. -/
theorem sized_of_recorded {height width : Nat} (sized : start.table.Sized height width)
    {step : Step α} (recorded : step ∈ (start.run options).steps) :
    step.table.Sized height width := by
  obtain ⟨index, listed⟩ := List.mem_iff_getElem?.1 recorded
  obtain ⟨tableau, reached, table⟩ := reaches_of_recorded listed
  exact table ▸ reached.sized sized

/-- A recorded step that follows another comes from the pivot chosen in that one. -/
theorem exists_pivot_of_recorded {index : Nat} {before after : Step α}
    (listed : (start.run options).steps[index]? = some before)
    (next : (start.run options).steps[index + 1]? = some after) :
    ∃ tableau row column info,
      Reaches options start ((start.run options).steps.take (index + 1)) tableau ∧
      tableau.table = before.table ∧
      tableau.entering? options.rule options.tolerance = some column ∧
      before.table.leaving? column = some row ∧
      tableau.pivotInfo? row column = some info ∧
      after = ⟨before.table.pivot row column, some info⟩ := by
  have extended := reaches_take options start (index + 1)
  rw [List.take_add_one, next, Option.toList_some] at extended
  obtain ⟨tableau, row, column, info, reached, entering, leaving, described, step⟩ :=
    extended.of_concat (by simp [run, Run.prepend])
  have table : tableau.table = before.table := by
    rw [reached.eq_foldl_replay]
    exact table_foldl_replay_take start listed
  rw [table] at leaving step
  exact ⟨tableau, row, column, info, reached, table, entering, leaving, described, step⟩

/-- A recorded step that follows another pivots it as the options choose. -/
theorem pivots_of_recorded {index : Nat} {before after : Step α}
    (listed : (start.run options).steps[index]? = some before)
    (next : (start.run options).steps[index + 1]? = some after) :
    ∃ row column info,
      before.table.entering? start.candidates options.rule options.tolerance = some column ∧
      before.table.leaving? column = some row ∧
      Step.Pivots start
        (((start.run options).steps.take (index + 1)).foldl Step.relabel start.basis)
        before after row column info := by
  obtain ⟨tableau, row, column, info, reached, table, entering, leaving, described, recorded⟩ :=
    exists_pivot_of_recorded listed next
  obtain ⟨enters, leaves⟩ := reached.names_of_pivotInfo? described
  rw [entering?, table, reached.candidates_eq] at entering
  exact ⟨row, column, info, entering, leaving, recorded, pivotInfo?_eq_some described, enters,
    leaves⟩

/-- What a run that returns has recorded is the history of its final tableau. -/
theorem reaches_of_ok {final : Tableau α} (returned : (start.run options).outcome = .ok final) :
    Reaches options start (start.run options).steps final :=
  Reaches.initial.pivots_of_ok _ returned

end Tableau

end Simplex
