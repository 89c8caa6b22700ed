import Simplex.Proofs.Bland
import Simplex.Proofs.Start
import Simplex.Proofs.Tracking

/-!
# Non-degenerate runs

A run of a standard program all of whose pivots are made on rows with positive right-hand sides
raises the objective with every pivot. The objective that a frame shows depends on the set of its
basic columns alone, so no set of basic variables comes back, and the run ends before it has seen
as many pivots as there are sets.
-/

namespace Simplex

/-- Every recorded pivot was made on a row with a positive right-hand side. -/
def Run.NonDegenerate (run : Run Rat) : Prop :=
  run.steps.IsChain fun before after => ∀ info ∈ after.pivot, 0 < before.table.rhs info.row.toNat

instance (run : Run Rat) : Decidable run.NonDegenerate :=
  inferInstanceAs (Decidable (run.steps.IsChain _))

namespace Run

theorem getElem?_framesFrom {α : Type} (basis : List Nat) (steps : List (Step α)) (index : Nat) :
    (framesFrom basis steps)[index]? = steps[index]?.map fun step =>
      ⟨step.table, (steps.take (index + 1)).foldl Step.track basis⟩ := by
  induction steps generalizing basis index with
  | nil => rfl
  | cons step steps ih =>
    cases index with
    | zero => rfl
    | succ index => exact ih (step.track basis) index

/-- The frame at a position has the table recorded there, and the columns that the steps until
then have made basic. -/
theorem getElem?_frames {α : Type} {run : Run α} {index : Nat} {step : Step α}
    (listed : run.steps[index]? = some step) (basis : List Nat) :
    (run.frames basis)[index]? =
      some ⟨step.table, (run.steps.take (index + 1)).foldl Step.track basis⟩ := by
  rw [frames, getElem?_framesFrom, listed, Option.map_some]

end Run

namespace Tableau

/-- The name of a column, and nothing for a position outside the table. -/
def nameAt {α : Type} (tableau : Tableau α) (column : Nat) : String :=
  tableau.columns.getD column ""

variable {start tableau : Tableau Rat} {options : Options Rat} {steps : List (Step Rat)}

/-- The names of the basic variables are those of the basic columns. -/
theorem Reaches.labels_eq {columns : List Nat}
    (reached : Reaches options start steps tableau)
    (initial : columns.map start.nameAt = start.basis) :
    steps.foldl Step.relabel start.basis =
      (steps.foldl Step.track columns).map start.nameAt := by
  induction reached with
  | initial => exact initial.symm
  | pivot reached entering leaving described ih =>
    obtain ⟨-, column⟩ := pivotInfo?_eq_some described
    have enters := (reached.names_of_pivotInfo? described).1
    rw [List.foldl_concat, List.foldl_concat, ih]
    simp [Step.relabel, Step.track, List.map_set, column, nameAt, enters]

/-- Different names make different sets of columns have different sets of names. -/
theorem subset_of_map_nameAt {first second : List Nat} (distinct : start.columns.Nodup)
    (firstInside : ∀ column ∈ first, column < start.columns.length)
    (secondInside : ∀ column ∈ second, column < start.columns.length)
    (same : (first.map start.nameAt).toFinset = (second.map start.nameAt).toFinset) :
    first ⊆ second := by
  intro column member
  have named : start.nameAt column ∈ (second.map start.nameAt).toFinset := by
    rw [← same, List.mem_toFinset]
    exact List.mem_map_of_mem member
  obtain ⟨other, otherMember, equal⟩ := List.mem_map.1 (List.mem_toFinset.1 named)
  rw [nameAt, nameAt, List.getD_eq_getElem _ _ (firstInside column member),
    List.getD_eq_getElem _ _ (secondInside other otherMember), distinct.getElem_inj_iff] at equal
  rwa [← equal]

end Tableau

/-- The basic columns of a frame have names. -/
theorem Frame.Describes.lt_length_columns {program : Program Rat} {frame : Frame Rat}
    (describes : frame.Describes program) (fits : program.Fits) :
    ∀ column ∈ frame.basis, column < program.primalTableau.columns.length := by
  intro column member
  obtain ⟨row, inside, rfl⟩ := describes.canonical.mem_basis_iff.1 member
  have candidate := describes.canonical.candidate row inside
  rw [Tableau.length_columns, fits.candidates_primalTableau]
  omega

namespace Program

variable {program : Program Rat} {options : Options Rat}

/-- A standard program starts with the auxiliary variables basic. -/
theorem Standard.map_slackColumns (standard : program.Standard) (fits : program.Fits) :
    program.slackColumns.map program.primalTableau.nameAt = program.primalTableau.basis := by
  have length : program.primalTableau.basis.length = program.constraints.length := by
    simp [primalTableau, fits.senses]
  refine List.ext_getElem (by simp [slackColumns, length]) fun row inside other => ?_
  have auxiliary := fits.getElem?_columns_auxiliary (length ▸ other)
  obtain ⟨sense, listed, label⟩ := getElem?_basis_primalTableau (List.getElem?_eq_getElem other)
  have upper := standard.senses sense (List.mem_of_getElem? listed)
  rw [label, if_neg (by simp [upper])]
  simp [slackColumns, Tableau.nameAt, auxiliary]

/-- The frame of a recorded step describes the program, and its basic columns have the names that
the steps until then have given to the rows. -/
theorem Standard.exists_frame (standard : program.Standard) (fits : program.Fits) {index : Nat}
    {step : Step Rat} (listed : (program.primalTableau.run options).steps[index]? = some step) :
    ∃ frame : Frame Rat, frame.Describes program ∧ frame.table = step.table ∧
      ((program.primalTableau.run options).steps.take (index + 1)).foldl Step.relabel
        program.primalTableau.basis = frame.basis.map program.primalTableau.nameAt := by
  have frame := Run.getElem?_frames listed program.slackColumns
  have describes := standard.describes_frames fits rfl fits.candidates_primalTableau _
    (List.mem_of_getElem? frame)
  obtain ⟨tableau, reached, -⟩ := Tableau.reaches_of_recorded listed
  exact ⟨_, describes, rfl, reached.labels_eq (standard.map_slackColumns fits)⟩

/-- The objective that a recorded step shows. -/
def shown (program : Program Rat) (step : Step Rat) : Rat :=
  step.table.rhs program.constraints.length

/-- With every pivot a non-degenerate run raises the objective. -/
theorem Standard.isChain_shown (standard : program.Standard) (fits : program.Fits)
    (tolerance : 0 ≤ options.tolerance)
    (nondegenerate : (program.primalTableau.run options).NonDegenerate) :
    (program.primalTableau.run options).steps.IsChain fun before after =>
      program.shown before < program.shown after := by
  rw [Run.NonDegenerate, List.isChain_iff_getElem] at nondegenerate
  rw [List.isChain_iff_getElem]
  intro index inside
  have listed := List.getElem?_eq_getElem (Nat.lt_of_succ_lt inside)
  have next := List.getElem?_eq_getElem inside
  obtain ⟨frame, describes, table, -⟩ := standard.exists_frame fits listed
  obtain ⟨row, column, info, entering, leaving, pivots⟩ := Tableau.pivots_of_recorded listed next
  have sized := describes.canonical.sized
  rw [table] at sized
  rw [fits.candidates_primalTableau] at entering
  obtain ⟨-, improving⟩ := sized.cost_of_entering? (by omega) entering
  have rises := ((table ▸ describes.feasible).rises sized leaving (by linarith)).2
  have positive := nondegenerate index inside info (by rw [pivots.recorded]; rfl)
  rw [pivots.position.1, Int.toNat_natCast] at positive
  rw [shown, shown, pivots.recorded, ← sized.height_eq]
  exact rises.2 positive

/-- Of two recorded steps of a non-degenerate run the later one has a basic column that the
earlier one has not: with the same basic columns both would show the same objective. -/
theorem Standard.not_subset (standard : program.Standard) (fits : program.Fits)
    (tolerance : 0 ≤ options.tolerance)
    (nondegenerate : (program.primalTableau.run options).NonDegenerate) {first second : Nat}
    (ordered : first < second) {early late : Step Rat}
    (earlyListed : (program.primalTableau.run options).steps[first]? = some early)
    (lateListed : (program.primalTableau.run options).steps[second]? = some late)
    {earlyFrame lateFrame : Frame Rat} (earlyDescribes : earlyFrame.Describes program)
    (lateDescribes : lateFrame.Describes program) (earlyTable : earlyFrame.table = early.table)
    (lateTable : lateFrame.table = late.table) : ¬ earlyFrame.basis ⊆ lateFrame.basis := by
  intro subset
  let Rises := fun before after : Step Rat => program.shown before < program.shown after
  have transitive : IsTrans (Step Rat) Rises := ⟨fun _ _ _ => lt_trans⟩
  have rising : (program.primalTableau.run options).steps.Pairwise Rises :=
    List.isChain_iff_pairwise.1 (standard.isChain_shown fits tolerance nondegenerate)
  obtain ⟨firstInside, rfl⟩ := List.getElem?_eq_some_iff.1 earlyListed
  obtain ⟨secondInside, rfl⟩ := List.getElem?_eq_some_iff.1 lateListed
  have rises := List.pairwise_iff_getElem.1 rising first second firstInside secondInside ordered
  have level := earlyDescribes.rhs_eq_of_basis_subset lateDescribes subset
  rw [earlyTable, lateTable] at level
  exact rises.ne level

/-- A non-degenerate run records no more steps than there are sets of basic columns. -/
theorem Standard.length_steps_le (standard : program.Standard) (fits : program.Fits)
    (tolerance : 0 ≤ options.tolerance)
    (nondegenerate : (program.primalTableau.run options).NonDegenerate) :
    (program.primalTableau.run options).steps.length ≤
      (program.objective.length + program.constraints.length).choose
        program.constraints.length := by
  let frames := (program.primalTableau.run options).frames program.slackColumns
  have describes : ∀ frame ∈ frames, frame.Describes program :=
    standard.describes_frames fits rfl fits.candidates_primalTableau
  have distinct : (frames.map fun frame => frame.basis.toFinset).Nodup := by
    rw [List.nodup_iff_getElem?_ne_getElem?]
    intro first second ordered inside same
    rw [List.length_map, Run.length_frames] at inside
    have earlyListed := List.getElem?_eq_getElem (ordered.trans inside)
    have lateListed := List.getElem?_eq_getElem inside
    have earlyFrame := Run.getElem?_frames earlyListed program.slackColumns
    have lateFrame := Run.getElem?_frames lateListed program.slackColumns
    rw [List.getElem?_map, List.getElem?_map, earlyFrame, lateFrame, Option.map_some,
      Option.map_some, Option.some.injEq] at same
    refine standard.not_subset fits tolerance nondegenerate ordered earlyListed lateListed
      (describes _ (List.mem_of_getElem? earlyFrame)) (describes _ (List.mem_of_getElem? lateFrame))
      rfl rfl fun column member => ?_
    exact List.mem_toFinset.1 (same ▸ List.mem_toFinset.2 member)
  rw [← Run.length_frames _ program.slackColumns]
  exact Frame.Canonical.length_le_choose (fun frame listed => (describes frame listed).canonical)
    distinct

/-- A run of a standard program, by either rule and with any tolerance, all of whose pivots are
made on rows with positive right-hand sides, comes back to no set of basic variables. It makes
fewer pivots than there are such sets, so a limit of that many never stops it. -/
theorem nondegenerate_run (program : Program Rat) (options : Options Rat)
    (checked : program.check = .ok ())
    (senses : ∀ sense ∈ program.senses, sense = .atMost) (rhs : Nonnegative program.rhs)
    (distinct : program.primalTableau.columns.Nodup) (tolerance : 0 ≤ options.tolerance)
    (nondegenerate : (program.primalTableau.run options).NonDegenerate) :
    let run := program.primalTableau.run options
    let labels := fun index : Nat =>
      ((run.steps.take (index + 1)).foldl Step.relabel program.primalTableau.basis).toFinset
    let bases := (program.objective.length + program.constraints.length).choose
      program.constraints.length
    (∀ first second, first < second → second < run.steps.length →
      labels first ≠ labels second) ∧
    run.steps.length - 1 < bases ∧
    (bases ≤ options.maxIterations → ∀ pivots,
      run.outcome ≠ .error (.iterationLimit pivots) ∧
        program.solve .primal options ≠ .error (.run (.iterationLimit pivots))) := by
  intro run labels bases
  have fits := (check_eq_ok_iff program).1 checked
  have standard : program.Standard := ⟨senses, rhs⟩
  have length : run.steps.length ≤ bases :=
    standard.length_steps_le fits tolerance nondegenerate
  refine ⟨fun first second ordered inside same => ?_, ?_, fun enough pivots => ?_⟩
  · have earlyListed := List.getElem?_eq_getElem (ordered.trans inside)
    have lateListed := List.getElem?_eq_getElem inside
    obtain ⟨_, earlyDescribes, earlyTable, earlyLabels⟩ := standard.exists_frame fits earlyListed
    obtain ⟨_, lateDescribes, lateTable, lateLabels⟩ := standard.exists_frame fits lateListed
    simp only [labels, run, earlyLabels, lateLabels] at same
    exact standard.not_subset fits tolerance nondegenerate ordered earlyListed lateListed
      earlyDescribes lateDescribes earlyTable lateTable
      (Tableau.subset_of_map_nameAt distinct (earlyDescribes.lt_length_columns fits)
        (lateDescribes.lt_length_columns fits) same)
  · have recorded : 0 < run.steps.length := by simp [run, Tableau.run, Run.prepend]
    omega
  · have returns : run.outcome ≠ .error (.iterationLimit pivots) := by
      intro stopped
      have steps : run.steps.length = options.maxIterations.toNat + 1 := by
        rw [← Run.length_frames run []]
        exact length_frames_of_iterationLimit stopped []
      omega
    refine ⟨returns, fun stopped => ?_⟩
    obtain ⟨tableau, -, started, outcome⟩ := exists_tableau_of_solve stopped
    obtain rfl := Except.ok.inj ((tableau_eq_ok checked .primal).symm.trans started)
    exact returns outcome

/-- A program with three limits, none of them met with equality at the start. -/
def threeWorkshops : Program Rat where
  objective := [3, 5]
  constraints := [[1, 0], [0, 2], [3, 2]]
  senses := [.atMost, .atMost, .atMost]
  rhs := [4, 12, 18]
  goal := .maximize
  names := ["doors", "windows"]

/-- The two pivots on `threeWorkshops` change the set of basic variables for good. There are ten
such sets, and a limit of ten pivots does not stop the run. -/
theorem nondegenerate_run_threeWorkshops :
    let options : Options Rat := { Options.default with maxIterations := 10 }
    let run := threeWorkshops.primalTableau.run options
    let labels := fun index : Nat =>
      ((run.steps.take (index + 1)).foldl Step.relabel threeWorkshops.primalTableau.basis).toFinset
    threeWorkshops.check = .ok () ∧ run.NonDegenerate ∧ run.steps.length = 3 ∧
      labels 0 ≠ labels 1 ∧ labels 1 ≠ labels 2 ∧ labels 0 ≠ labels 2 ∧
      ∀ pivots, run.outcome ≠ .error (.iterationLimit pivots) := by
  intro options run labels
  have checked : threeWorkshops.check = .ok () := by decide
  have senses : ∀ sense ∈ threeWorkshops.senses, sense = .atMost := by decide
  have rhs : Nonnegative threeWorkshops.rhs := by decide
  have distinct : threeWorkshops.primalTableau.columns.Nodup := by decide +kernel
  have tolerance : 0 ≤ options.tolerance := by decide +kernel
  have nondegenerate : run.NonDegenerate := by decide +kernel
  have recorded : run.steps.length = 3 := by decide +kernel
  obtain ⟨different, -, enough⟩ := nondegenerate_run threeWorkshops options checked senses rhs
    distinct tolerance nondegenerate
  have inside : ∀ index < 3, index < run.steps.length := fun index bound => recorded ▸ bound
  exact ⟨checked, nondegenerate, recorded, different 0 1 (by decide) (inside 1 (by decide)),
    different 1 2 (by decide) (inside 2 (by decide)),
    different 0 2 (by decide) (inside 2 (by decide)), fun pivots => (enough (by decide) pivots).1⟩

end Program

end Simplex
