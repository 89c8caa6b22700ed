import Simplex.Proofs.Frame
import Simplex.Tableau.Initial

/-!
# The limit on the pivots

The limit truncates a run and changes nothing else, whatever the arithmetic. A run that ends by
itself asks for a pivot a certain number of times, its `Run.demand`: once for every pivot it
makes, and once more if it ends on a pivot that cannot be made. A limit that meets the demand
leaves the run as it is, and a smaller one cuts it off after as many pivots as it allows.
-/

namespace Simplex

variable {α : Type}

/-- The options with another limit. -/
def Options.limited (options : Options α) (limit : Int) : Options α :=
  { options with maxIterations := limit }

namespace Run

/-- How often the recorded pivots and the end of a run ask for a pivot. -/
def demand (run : Run α) : Nat :=
  match run.outcome with
  | .ok _ => run.steps.length
  | .error _ => run.steps.length + 1

/-- The run was not stopped by the limit. -/
def EndsByItself (run : Run α) : Prop :=
  ∀ pivots, run.outcome ≠ .error (.iterationLimit pivots)

/-- What a limit of `allowance` further pivots leaves of a run, reported as a limit of `limit`
pivots in all. -/
def truncated (run : Run α) (allowance limit : Nat) : Run α :=
  if run.demand ≤ allowance then run
  else ⟨run.steps.take allowance, .error (.iterationLimit limit)⟩

@[simp] theorem demand_prepend (step : Step α) (run : Run α) :
    (run.prepend step).demand = run.demand + 1 := by
  unfold Run.demand prepend
  cases run.outcome <;> rfl

/-- A recorded step in front takes one pivot of the allowance. -/
theorem truncated_prepend (step : Step α) (run : Run α) (allowance limit : Nat) :
    (run.prepend step).truncated (allowance + 1) limit =
      (run.truncated allowance limit).prepend step := by
  simp only [truncated, demand_prepend, Nat.add_le_add_iff_right]
  split_ifs <;> rfl

/-- Nothing is left where no pivot is allowed but one is asked for. -/
theorem truncated_zero {run : Run α} (asks : run.demand ≠ 0) (limit : Nat) :
    run.truncated 0 limit = ⟨[], .error (.iterationLimit limit)⟩ := by
  rw [truncated, if_neg (by omega), List.take_zero]

end Run

namespace Tableau

variable [Scalar α] {options : Options α} {tableau : Tableau α}

/-- Under another limit, pivots that end by themselves are truncated. -/
theorem pivots_limited {remaining : Nat} (ends : (tableau.pivots options remaining).EndsByItself)
    (limit : Int) (allowance : Nat) :
    tableau.pivots (options.limited limit) allowance =
      (tableau.pivots options remaining).truncated allowance limit.toNat := by
  -- The choice of the pivot does not depend on the limit.
  have chooses : ∀ {choice : Option Nat} {tableau : Tableau α},
      tableau.entering? options.rule options.tolerance = choice →
        tableau.entering? (options.limited limit).rule (options.limited limit).tolerance =
          choice := id
  fun_induction Tableau.pivots options remaining tableau generalizing allowance with
  | case1 => exact absurd rfl (ends _)
  | case2 tableau improvable remaining column leaving =>
    have entering : tableau.entering? options.rule options.tolerance = some column :=
      entering?_eq_some improvable
    cases allowance with
    | zero =>
      rw [pivots_zero (chooses entering), Run.truncated_zero (by simp [Run.demand])]
      rfl
    | succ allowance =>
      rw [pivots_succ (chooses entering), leaving]
      exact (if_pos (by simp [Run.demand])).symm
  | case3 tableau improvable remaining column row leaving unnamed =>
    have entering : tableau.entering? options.rule options.tolerance = some column :=
      entering?_eq_some improvable
    cases allowance with
    | zero =>
      rw [pivots_zero (chooses entering), Run.truncated_zero (by simp [Run.demand])]
      rfl
    | succ allowance =>
      simp only [pivots_succ (chooses entering), leaving, unnamed]
      exact (if_pos (by simp [Run.demand])).symm
  | case4 tableau improvable remaining column row leaving info described next ih =>
    have entering : tableau.entering? options.rule options.tolerance = some column :=
      entering?_eq_some improvable
    cases allowance with
    | zero =>
      rw [pivots_zero (chooses entering), Run.truncated_zero (by simp)]
      rfl
    | succ allowance =>
      rw [Run.truncated_prepend, ← ih ends]
      simp only [pivots_succ (chooses entering), leaving, described]
      rfl
  | case5 remaining tableau optimal =>
    rw [pivots_of_none (chooses (entering?_eq_none optimal))]
    exact (if_pos (Nat.zero_le allowance)).symm

/-- Under another limit, a run that ends by itself is truncated to the first table and as many
pivots as the limit allows. -/
theorem run_limited (ends : (tableau.run options).EndsByItself) (limit : Int) :
    tableau.run (options.limited limit) =
      (tableau.run options).truncated (limit.toNat + 1) limit.toNat := by
  have pivots : (tableau.pivots options options.maxIterations.toNat).EndsByItself := ends
  rw [run, run, Run.truncated_prepend, ← pivots_limited pivots]
  rfl

/-- Another limit, also a negative one, only truncates a run. A run that returns after some
pivots returns the same tableau with the same records when it makes no pivot at all or the
limit is at least their number. One that fails for lack of a bound fails on the same column
when the limit is greater than their number. Under every other limit the run is stopped after
as many pivots as are allowed, and has recorded the tables until then. -/
theorem limit_truncates (tableau : Tableau α) (options : Options α) (limit : Int) :
    let run := tableau.run options
    let other := tableau.run { options with maxIterations := limit }
    let stopped := other.outcome = .error (.iterationLimit (max limit 0).toNat) ∧
      other.steps = run.steps.take ((max limit 0).toNat + 1) ∧
      other.steps.length = (max limit 0).toNat + 1
    ∀ pivots : Nat, run.steps.length = pivots + 1 →
      (∀ final, run.outcome = .ok final →
        if pivots = 0 ∨ pivots ≤ limit then other.outcome = .ok final ∧ other.steps = run.steps
        else stopped) ∧
      ∀ column, run.outcome = .error (.unbounded column) →
        if pivots < limit then
          other.outcome = .error (.unbounded column) ∧ other.steps = run.steps
        else stopped := by
  intro run other stopped pivots recorded
  have allowed : (max limit 0).toNat = limit.toNat := by omega
  have kept : run.EndsByItself → run.demand ≤ limit.toNat + 1 → other = run :=
    fun ends enough => (run_limited ends limit).trans (if_pos enough)
  have cut : run.EndsByItself → limit.toNat + 1 < run.demand → stopped := by
    intro ends short
    have truncated : other = ⟨run.steps.take (limit.toNat + 1),
        .error (.iterationLimit limit.toNat)⟩ :=
      (run_limited ends limit).trans (if_neg (Nat.not_le.2 short))
    have bounded : limit.toNat + 1 ≤ run.steps.length := by
      unfold Run.demand at short
      split at short <;> omega
    refine ⟨?_, ?_, ?_⟩ <;> rw [truncated, allowed]
    simpa using bounded
  constructor
  · intro final returned
    have ends : run.EndsByItself := by simp [Run.EndsByItself, returned]
    have demand : run.demand = pivots + 1 := by simp [Run.demand, returned, recorded]
    split_ifs with enough
    · rw [kept ends (by omega)]
      exact ⟨returned, rfl⟩
    · exact cut ends (by omega)
  · intro column unbounded
    have ends : run.EndsByItself := by simp [Run.EndsByItself, unbounded]
    have demand : run.demand = pivots + 2 := by simp [Run.demand, unbounded, recorded]
    split_ifs with enough
    · rw [kept ends (by omega)]
      exact ⟨unbounded, rfl⟩
    · exact cut ends (by omega)

/-- A program that is unbounded after its first pivot. -/
def openStrip : Program Rat where
  objective := [1, 1]
  constraints := [[1, -1]]
  senses := [.atMost]
  rhs := [1]
  goal := .maximize
  names := []

/-- The unboundedness of `openStrip` shows under a limit of two pivots and not under one of one.
With the second variable at a loss its run returns after a pivot, which a negative limit
forbids. -/
theorem limit_truncates_openStrip :
    let start := openStrip.primalTableau
    let bounded := { openStrip with objective := [1, -1] }.primalTableau
    (start.run .default).outcome = .error (.unbounded 1) ∧
      (start.run { Options.default with maxIterations := 2 }).outcome = .error (.unbounded 1) ∧
      (start.run { Options.default with maxIterations := 1 }).outcome =
        .error (.iterationLimit 1) ∧
      (∃ final, (bounded.run .default).outcome = .ok final) ∧
      (bounded.run { Options.default with maxIterations := -3 }).outcome =
        .error (.iterationLimit 0) := by
  intro start bounded
  have unbounded : (start.run .default).outcome = .error (.unbounded 1) := by decide +kernel
  have recorded : (start.run .default).steps.length = 1 + 1 := by decide +kernel
  have boundedRecorded : (bounded.run .default).steps.length = 1 + 1 := by decide +kernel
  have returned : ∃ final, (bounded.run .default).outcome = .ok final := by
    have ok : (bounded.run .default).outcome.isOk = true := by decide +kernel
    cases outcome : (bounded.run .default).outcome with
    | ok final => exact ⟨final, rfl⟩
    | error => simp [outcome, Except.isOk, Except.toBool] at ok
  have openCut limit := (limit_truncates start .default limit 1 recorded).2 1 unbounded
  refine ⟨unbounded, ?_, ?_, returned, ?_⟩
  · have kept := openCut 2
    rw [if_pos (by decide)] at kept
    exact kept.1
  · have stopped := openCut 1
    rw [if_neg (by decide)] at stopped
    exact stopped.1
  · obtain ⟨final, outcome⟩ := returned
    have stopped := (limit_truncates bounded .default (-3) 1 boundedRecorded).1 final outcome
    rw [if_neg (by decide)] at stopped
    exact stopped.1

end Tableau

end Simplex
