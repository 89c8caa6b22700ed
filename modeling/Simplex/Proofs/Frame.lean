import Mathlib
import Simplex.Run

/-!
# Frames of a run

A frame is a recorded table together with the columns that the recorded pivots have
made basic in its rows. `Tableau.isChain_frames` says that consecutive frames of a run
differ by the pivot that the options choose, and `Tableau.ends_run` in which frame each
way of ending a run leaves it. What holds at the start and is kept by chosen pivots
therefore holds in every frame, by `Tableau.frames_induction`.
-/

namespace Simplex

variable {α : Type}

/-- A table with the column that is basic in each of its constraint rows. -/
structure Frame (α : Type) where
  table : Table α
  basis : List Nat

/-- The basic columns after a recorded step: a pivot makes its column basic in its row. -/
def Step.track (basis : List Nat) (step : Step α) : List Nat :=
  match step.pivot with
  | none => basis
  | some info => basis.set info.row.toNat info.column.toNat

namespace Run

/-- The frames of recorded steps, from the basic columns before the first one. -/
def framesFrom (basis : List Nat) : List (Step α) → List (Frame α)
  | [] => []
  | step :: steps => ⟨step.table, step.track basis⟩ :: framesFrom (step.track basis) steps

/-- The frames of everything that a run recorded. -/
def frames (run : Run α) (basis : List Nat) : List (Frame α) := framesFrom basis run.steps

/-- The basic columns after everything that a run recorded. -/
def basis (run : Run α) (initial : List Nat) : List Nat := run.steps.foldl Step.track initial

@[simp] theorem length_framesFrom (basis : List Nat) (steps : List (Step α)) :
    (framesFrom basis steps).length = steps.length := by
  induction steps generalizing basis with
  | nil => rfl
  | cons step steps ih => simp [framesFrom, ih]

@[simp] theorem length_frames (run : Run α) (basis : List Nat) :
    (run.frames basis).length = run.steps.length :=
  length_framesFrom basis run.steps

/-- The frames have the recorded tables, in order. -/
theorem map_table_framesFrom (basis : List Nat) (steps : List (Step α)) :
    (framesFrom basis steps).map Frame.table = steps.map Step.table := by
  induction steps generalizing basis with
  | nil => rfl
  | cons step steps ih => rw [framesFrom, List.map_cons, List.map_cons, ih]

/-- Every recorded table is that of a frame. -/
theorem exists_frame_of_mem {basis : List Nat} {steps : List (Step α)} {step : Step α}
    (recorded : step ∈ steps) : ∃ frame ∈ framesFrom basis steps, frame.table = step.table := by
  have listed := List.mem_map_of_mem (f := Step.table) recorded
  rw [← map_table_framesFrom basis, List.mem_map] at listed
  exact listed

/-- The last frame has the final basic columns. -/
theorem basis_getLast {start : Frame α} {steps : List (Step α)} {last : Frame α}
    (ends : (start :: framesFrom start.basis steps).getLast? = some last) :
    last.basis = steps.foldl Step.track start.basis := by
  induction steps generalizing start with
  | nil =>
    obtain rfl : start = last := by simpa [framesFrom] using ends
    rfl
  | cons step steps ih =>
    rw [framesFrom, List.getLast?_cons_cons] at ends
    exact ih ends

end Run

namespace Frame

variable [Scalar α]

/-- The column that is basic in a row. -/
def basic (frame : Frame α) (row : Nat) : Nat := frame.basis.getD row 0

/-- The frame after a pivot. -/
def exchange (frame : Frame α) (row column : Nat) : Frame α :=
  ⟨frame.table.pivot row column, frame.basis.set row column⟩

/-- The pivot that the options choose in a frame. -/
structure Chooses (options : Options α) (candidates : Nat) (frame : Frame α)
    (row column : Nat) : Prop where
  entering : frame.table.entering? candidates options.rule options.tolerance = some column
  leaving : frame.table.leaving? column = some row

/-- One frame follows another by the chosen pivot. -/
def Next (options : Options α) (candidates : Nat) (frame next : Frame α) : Prop :=
  ∃ row column, frame.Chooses options candidates row column ∧ next = frame.exchange row column

/-- How a run can end in a frame. -/
def Ends (options : Options α) (candidates : Nat) (frame : Frame α) :
    Except RunError (Tableau α) → Prop
  | .ok final => final.table = frame.table ∧
      frame.table.entering? candidates options.rule options.tolerance = none
  | .error (.unbounded column) =>
      frame.table.entering? candidates options.rule options.tolerance = some column ∧
        frame.table.leaving? column = none
  | .error (.iterationLimit _) =>
      (frame.table.entering? candidates options.rule options.tolerance).isSome
  | .error (.unlabelledRow row) => ∃ column, frame.Chooses options candidates row column

end Frame

namespace Tableau

open Run

/-- The column and the row of a description are the position of its pivot. -/
theorem pivotInfo?_eq_some {tableau : Tableau α} {row column : Nat} {info : PivotInfo}
    (described : tableau.pivotInfo? row column = some info) :
    info.row = row ∧ info.column = column := by
  unfold pivotInfo? at described
  split at described
  · rw [← Option.some.inj described]
    exact ⟨rfl, rfl⟩
  · cases described

theorem track_pivotInfo? {tableau : Tableau α} {row column : Nat} {info : PivotInfo}
    (described : tableau.pivotInfo? row column = some info) (table : Table α)
    (basis : List Nat) :
    Step.track basis ⟨table, some info⟩ = basis.set row column := by
  obtain ⟨rowEq, columnEq⟩ := pivotInfo?_eq_some described
  simp [Step.track, rowEq, columnEq]

variable [Scalar α]

section Unfolding

variable {options : Options α} {tableau : Tableau α}

theorem pivots_of_none (entering : tableau.entering? options.rule options.tolerance = none)
    (remaining : Nat) : tableau.pivots options remaining = ⟨[], .ok tableau⟩ := by
  rw [pivots_eq, entering]

theorem pivots_zero {column : Nat}
    (entering : tableau.entering? options.rule options.tolerance = some column) :
    tableau.pivots options 0 =
      ⟨[], .error (.iterationLimit options.maxIterations.toNat)⟩ := by
  rw [pivots_eq, entering]

theorem pivots_succ {column : Nat}
    (entering : tableau.entering? options.rule options.tolerance = some column)
    (remaining : Nat) :
    tableau.pivots options (remaining + 1) =
      match tableau.table.leaving? column with
      | none => ⟨[], .error (.unbounded column)⟩
      | some row =>
        match tableau.pivotInfo? row column with
        | none => ⟨[], .error (.unlabelledRow row)⟩
        | some info =>
          let next := tableau.exchange row column info.entering
          (next.pivots options remaining).prepend ⟨next.table, some info⟩ := by
  have unfolded := pivots_eq options (remaining + 1) tableau
  rw [entering] at unfolded
  exact unfolded

end Unfolding

variable (options : Options α)

/-- Consecutive frames of the pivots of a tableau differ by the chosen pivot. -/
theorem isChain_pivots (remaining : Nat) (tableau : Tableau α) (basis : List Nat) :
    List.IsChain (Frame.Next options tableau.candidates)
      (⟨tableau.table, basis⟩ :: framesFrom basis (tableau.pivots options remaining).steps) := by
  fun_induction Tableau.pivots options remaining tableau generalizing basis with
  | case1 => exact List.isChain_singleton _
  | case2 => exact List.isChain_singleton _
  | case3 => exact List.isChain_singleton _
  | case4 tableau improvable remaining column row leaving info described next ih =>
    have entering : tableau.entering? options.rule options.tolerance = some column :=
      entering?_eq_some improvable
    rw [prepend, framesFrom, track_pivotInfo? described]
    refine List.isChain_cons_cons.2 ⟨⟨row, column, ⟨entering, leaving⟩, rfl⟩, ?_⟩
    exact ih (basis.set row column)
  | case5 => exact List.isChain_singleton _

/-- The pivots of a tableau end in the last of their frames. -/
theorem ends_pivots (remaining : Nat) (tableau : Tableau α) (basis : List Nat)
    {last : Frame α}
    (final : (⟨tableau.table, basis⟩ ::
      framesFrom basis (tableau.pivots options remaining).steps).getLast? = some last) :
    last.Ends options tableau.candidates (tableau.pivots options remaining).outcome := by
  fun_induction Tableau.pivots options remaining tableau generalizing basis with
  | case1 tableau improvable =>
    obtain rfl := Option.some.inj final
    exact isSome_entering?.trans improvable
  | case2 tableau improvable remaining column leaving =>
    obtain rfl := Option.some.inj final
    exact ⟨entering?_eq_some improvable, leaving⟩
  | case3 tableau improvable remaining column row leaving =>
    obtain rfl := Option.some.inj final
    exact ⟨column, entering?_eq_some improvable, leaving⟩
  | case4 tableau improvable remaining column row leaving info described next ih =>
    rw [prepend, framesFrom, track_pivotInfo? described, List.getLast?_cons_cons] at final
    exact ih (basis.set row column) final
  | case5 remaining tableau optimal =>
    obtain rfl := Option.some.inj final
    exact ⟨rfl, entering?_eq_none optimal⟩

/-- The limit stops the pivots of a tableau only after all of those that were left. -/
theorem length_steps_of_iterationLimit {remaining : Nat} {tableau : Tableau α} {limit : Nat}
    (stopped : (tableau.pivots options remaining).outcome = .error (.iterationLimit limit)) :
    (tableau.pivots options remaining).steps.length = remaining := by
  fun_induction Tableau.pivots options remaining tableau with
  | case1 => rfl
  | case2 => cases stopped
  | case3 => cases stopped
  | case4 tableau improvable remaining column row leaving info described next ih =>
    simpa [prepend] using ih stopped
  | case5 => cases stopped

/-- Pivoting keeps the names of the columns. -/
theorem names_of_ok {remaining : Nat} {tableau final : Tableau α}
    (returned : (tableau.pivots options remaining).outcome = .ok final) :
    final.structural = tableau.structural ∧ final.auxiliary = tableau.auxiliary := by
  fun_induction Tableau.pivots options remaining tableau with
  | case1 => cases returned
  | case2 => cases returned
  | case3 => cases returned
  | case4 tableau improvable remaining column row leaving info described next ih =>
    exact ih returned
  | case5 =>
    obtain rfl := Except.ok.inj returned
    exact ⟨rfl, rfl⟩

/-- A run that returns keeps the number of candidates. -/
theorem candidates_of_ok {tableau final : Tableau α}
    (returned : (tableau.run options).outcome = .ok final) :
    final.candidates = tableau.candidates := by
  obtain ⟨structural, auxiliary⟩ := names_of_ok options returned
  rw [candidates, candidates, structural, auxiliary]

/-- The last frame of a run, with the way in which the run ends there. -/
theorem ends_run (tableau : Tableau α) (basis : List Nat) :
    ∃ last, ((tableau.run options).frames basis).getLast? = some last ∧
      last.basis = (tableau.run options).basis basis ∧
      last.Ends options tableau.candidates (tableau.run options).outcome := by
  let pivots := tableau.pivots options options.maxIterations.toNat
  have nonempty : (⟨tableau.table, basis⟩ :: framesFrom basis pivots.steps) ≠ [] :=
    List.cons_ne_nil _ _
  have final := List.getLast?_eq_some_getLast nonempty
  exact ⟨_, final, basis_getLast final, ends_pivots options _ tableau basis final⟩

/-- A run ends in the table that it recorded last. -/
theorem ends_recorded (tableau : Tableau α) :
    ∃ step basis, (tableau.run options).steps.getLast? = some step ∧
      (Frame.mk step.table basis).Ends options tableau.candidates
        (tableau.run options).outcome := by
  obtain ⟨last, final, -, ends⟩ := ends_run options tableau []
  have table := congrArg (Option.map Frame.table) final
  rw [← List.getLast?_map, frames, map_table_framesFrom, List.getLast?_map, Option.map_some,
    Option.map_eq_some_iff] at table
  obtain ⟨step, recorded, same⟩ := table
  exact ⟨step, last.basis, recorded, same ▸ ends⟩

variable {options}

/-- Consecutive frames of a run differ by the chosen pivot. -/
theorem isChain_frames (tableau : Tableau α) (basis : List Nat) :
    List.IsChain (Frame.Next options tableau.candidates)
      ((tableau.run options).frames basis) :=
  isChain_pivots options _ tableau basis

/-- What holds of the first frame and is kept by every chosen pivot holds of all frames
of a run. -/
theorem frames_induction {tableau : Tableau α} {basis : List Nat}
    {Invariant : Frame α → Prop} (initial : Invariant ⟨tableau.table, basis⟩)
    (preserved : ∀ {frame row column}, Invariant frame →
      frame.Chooses options tableau.candidates row column →
        Invariant (frame.exchange row column)) :
    ∀ frame ∈ (tableau.run options).frames basis, Invariant frame := by
  refine (isChain_frames tableau basis).induction Invariant _ ?_ fun _ => initial
  rintro frame _ ⟨row, column, chosen, rfl⟩ holds
  exact preserved holds chosen

end Tableau

end Simplex
