import Simplex.Proofs.Labels
import Simplex.Proofs.Trace

/-!
# Bland's rule

Bland's rule avoids cycles when the smallest basic column leaves among the rows of least
ratio. Here the first of those rows is taken, which need not have that column. A run that
comes back to the same basic columns has therefore passed over a smaller column of ratio
zero in between; a run that never does so ends within as many pivots as there are sets of
basic columns.
-/

namespace Simplex

open Finset Table

/-- The chosen pivot has ratio zero, and so has another row, whose basic column is smaller
than the one that leaves. -/
def Frame.PassesOver (options : Options Rat) (candidates : Nat) (frame : Frame Rat) : Prop :=
  ∃ column ∈ frame.table.entering? candidates options.rule options.tolerance,
    ∃ row ∈ frame.table.leaving? column, frame.table.rhs row = 0 ∧
      ∃ other < frame.table.height, 0 < frame.table.entry other column ∧
        frame.table.rhs other = 0 ∧ frame.basic other < frame.basic row

instance (options : Options Rat) (candidates : Nat) (frame : Frame Rat) :
    Decidable (frame.PassesOver options candidates) :=
  inferInstanceAs (Decidable
    (∃ column ∈ frame.table.entering? candidates options.rule options.tolerance,
      ∃ row ∈ frame.table.leaving? column, _ ∧ ∃ other < frame.table.height, _ ∧ _ ∧ _))

namespace Trace

variable {program : Program Rat} {options : Options Rat} {length index : Nat}
  (trace : Trace program options length)

/-- Bland's rule enters the first column with a negative objective entry. -/
theorem cost_nonneg_before (bland : options.rule = .bland) (exact : options.tolerance = 0)
    (inside : index < length) {column : Nat} (before : column < trace.column index) :
    0 ≤ (trace.frame index).table.cost column := by
  have entering := (trace.chooses index inside).entering
  rw [bland, exact] at entering
  have sized := (trace.describes index inside.le).canonical.sized
  simpa using sized.cost_before_entering? (by omega) entering before

/-- The positions where the largest entering column of a trace enters and leaves. -/
structure Peak (enters leaves : Nat) : Prop where
  entersInside : enters < length
  leavesInside : leaves < length
  largest : ∀ index < length, trace.column index ≤ trace.column enters
  leaving : (trace.frame leaves).basic (trace.row leaves) = trace.column enters

variable {trace}

/-- The largest column that enters a closed trace leaves it as well. -/
theorem Closed.exists_peak (closed : trace.Closed) (exact : options.tolerance = 0)
    (moves : 0 < length) : ∃ enters leaves, trace.Peak enters leaves := by
  obtain ⟨enters, member, largest⟩ := exists_max_image (range length) trace.column
    ⟨0, mem_range.2 moves⟩
  have inside := mem_range.1 member
  obtain ⟨leaves, leavesInside, leaving⟩ := closed.exists_leaves exact inside
  exact ⟨enters, leaves, inside, leavesInside,
    fun index bound => largest index (mem_range.2 bound), leaving⟩

namespace Peak

variable {enters leaves column row : Nat}

/-- The column that enters in exchange for the largest one is smaller. -/
theorem column_lt (peak : trace.Peak enters leaves) (exact : options.tolerance = 0) :
    trace.column leaves < trace.column enters := by
  refine (peak.largest leaves peak.leavesInside).lt_of_ne fun same => ?_
  have nonbasic := trace.column_notMem_basis exact peak.leavesInside
  rw [same, ← peak.leaving] at nonbasic
  have canonical := (trace.describes leaves peak.leavesInside.le).canonical
  exact nonbasic (canonical.mem_basis_iff.2 ⟨_, (trace.chosen peak.leavesInside).1, rfl⟩)

/-- A column that contributes where the largest one enters is basic where that leaves. -/
theorem mem_basis_of_contributes (peak : trace.Peak enters leaves)
    (bland : options.rule = .bland) (exact : options.tolerance = 0)
    (inside : column < program.objective.length + program.constraints.length)
    (contributes : 0 < (trace.frame enters).table.cost column *
      (trace.frame leaves).balance (program.objective.length + program.constraints.length)
        (trace.column leaves) column) :
    column ∈ (trace.frame leaves).basis := by
  by_contra nonbasic
  have canonical := (trace.describes leaves peak.leavesInside.le).canonical
  rw [canonical.balance_nonbasic nonbasic inside.ne] at contributes
  by_cases source : column = trace.column leaves
  · have reaches := trace.cost_nonneg_before bland exact peak.entersInside
      (source ▸ peak.column_lt exact)
    rw [if_pos source] at contributes
    linarith
  · rw [if_neg source, neg_zero, mul_zero] at contributes
    exact lt_irrefl 0 contributes

/-- A row that contributes where the largest column enters has a smaller basic column, which
is nonbasic there. -/
theorem basic_of_contributes (peak : trace.Peak enters leaves) (closed : trace.Closed)
    (exact : options.tolerance = 0) (rowInside : row < program.constraints.length)
    (contributes : 0 < (trace.frame enters).table.cost ((trace.frame leaves).basic row) *
      (trace.frame leaves).table.entry row (trace.column leaves)) :
    (trace.frame leaves).basic row ∉ (trace.frame enters).basis ∧
      (trace.frame leaves).basic row < trace.column enters := by
  have canonical := (trace.describes leaves peak.leavesInside.le).canonical
  have entersCanonical := (trace.describes enters peak.entersInside.le).canonical
  have nonbasic : (trace.frame leaves).basic row ∉ (trace.frame enters).basis := by
    rw [entersCanonical.mem_basis_iff]
    rintro ⟨other, otherInside, same⟩
    rw [← same, entersCanonical.cost_basic otherInside, zero_mul] at contributes
    exact lt_irrefl 0 contributes
  have bounded : (trace.frame leaves).basic row ≤ trace.column enters := by
    by_contra larger
    refine nonbasic (closed.mem_basis_of_never_enters ?_ peak.leavesInside.le
      peak.entersInside.le (canonical.mem_basis_iff.2 ⟨row, rowInside, rfl⟩))
    intro index inside same
    exact larger (same ▸ peak.largest index inside)
  refine ⟨nonbasic, bounded.lt_of_ne fun same => ?_⟩
  -- The pivot row itself contributes with the wrong sign.
  obtain ⟨pivotInside, -, positive, -⟩ := trace.chosen peak.leavesInside
  obtain ⟨-, -, -, improving⟩ := trace.chosen peak.entersInside
  rw [exact, neg_zero] at improving
  have pivotRow := (canonical.basic_inj rowInside pivotInside).1 (same.trans peak.leaving.symm)
  rw [same, pivotRow] at contributes
  exact absurd contributes
    (not_lt.2 (mul_nonpos_of_nonpos_of_nonneg improving.le positive.le))

end Peak

/-- By Bland's rule a closed trace passes over a smaller basic column. -/
theorem Closed.exists_passesOver (closed : trace.Closed) (bland : options.rule = .bland)
    (exact : options.tolerance = 0) (moves : 0 < length) :
    ∃ index < length, (trace.frame index).PassesOver options
      (program.objective.length + program.constraints.length) := by
  obtain ⟨enters, leaves, peak⟩ := closed.exists_peak exact moves
  have leavesInside := peak.leavesInside
  have describes := trace.describes leaves leavesInside.le
  have canonical := describes.canonical
  have chooses := trace.chooses leaves leavesInside
  obtain ⟨-, sourceInside, -, improving⟩ := trace.chosen leavesInside
  rw [exact, neg_zero] at improving
  obtain ⟨column, inside, contributes⟩ := describes.exists_cost_mul_balance_pos
    (trace.describes enters peak.entersInside.le) sourceInside improving
  have basic := peak.mem_basis_of_contributes bland exact inside contributes
  obtain ⟨row, rowInside, rfl⟩ := canonical.mem_basis_iff.1 basic
  have different : (trace.frame leaves).basic row ≠ trace.column leaves := by
    intro same
    exact trace.column_notMem_basis exact leavesInside (same ▸ basic)
  rw [canonical.balance_basic rowInside, if_neg different, sub_zero] at contributes
  obtain ⟨nonbasic, smaller⟩ := peak.basic_of_contributes closed exact rowInside contributes
  have reaches := trace.cost_nonneg_before bland exact peak.entersInside smaller
  refine ⟨leaves, leavesInside, trace.column leaves, chooses.entering, trace.row leaves,
    chooses.leaving, closed.rhs_row exact leavesInside, row,
    canonical.sized.height_eq.symm ▸ rowInside, ?_, ?_, ?_⟩
  · exact pos_of_mul_pos_right contributes reaches
  · exact closed.rhs_eq_zero exact rowInside leavesInside.le peak.entersInside.le nonbasic
  · rwa [peak.leaving]

/-- Between two frames with the same basic columns a run by Bland's rule passes over a
smaller basic column. -/
theorem exists_passesOver_of_isChain {frames : List (Frame Rat)}
    (describes : ∀ frame ∈ frames, frame.Describes program)
    (chain : frames.IsChain (Frame.Next options
      (program.objective.length + program.constraints.length)))
    (bland : options.rule = .bland) (exact : options.tolerance = 0) {first second : Nat}
    (ordered : first < second) {early late : Frame Rat}
    (earlyListed : frames[first]? = some early) (lateListed : frames[second]? = some late)
    (same : early.basis.toFinset = late.basis.toFinset) :
    ∃ position frame, first ≤ position ∧ position < second ∧ frames[position]? = some frame ∧
      frame.PassesOver options (program.objective.length + program.constraints.length) := by
  obtain ⟨length, rfl⟩ := Nat.exists_eq_add_of_le ordered.le
  have inside := (List.getElem?_eq_some_iff.1 lateListed).1
  obtain ⟨trace, listed⟩ := exists_of_isChain describes chain inside
  have closed : trace.Closed := by
    have start := (listed 0 length.zero_le).symm.trans earlyListed
    have finish := (listed length le_rfl).symm.trans lateListed
    rw [Closed, Option.some.inj start, Option.some.inj finish, same]
  obtain ⟨index, within, passes⟩ := closed.exists_passesOver bland exact (by omega)
  exact ⟨first + index, trace.frame index, by omega, by omega, listed index within.le, passes⟩

/-- A run by Bland's rule that never passes over a smaller basic column repeats no set of
basic columns. The last frame is not pivoted. -/
theorem nodup_of_isChain {frames : List (Frame Rat)}
    (describes : ∀ frame ∈ frames, frame.Describes program)
    (chain : frames.IsChain (Frame.Next options
      (program.objective.length + program.constraints.length)))
    (bland : options.rule = .bland) (exact : options.tolerance = 0)
    (never : ∀ frame ∈ frames.dropLast, ¬ frame.PassesOver options
      (program.objective.length + program.constraints.length)) :
    (frames.map fun frame => frame.basis.toFinset).Nodup := by
  rw [List.nodup_iff_getElem?_ne_getElem?]
  intro first second ordered inside same
  rw [List.length_map] at inside
  have early := List.getElem?_eq_getElem (ordered.trans inside)
  have late := List.getElem?_eq_getElem inside
  rw [List.getElem?_map, List.getElem?_map, early, late, Option.map_some, Option.map_some,
    Option.some.injEq] at same
  obtain ⟨position, frame, -, before, listed, passes⟩ :=
    exists_passesOver_of_isChain describes chain bland exact ordered early late same
  refine never frame (List.mem_of_getElem? (i := position) ?_) passes
  rw [List.getElem?_dropLast, if_pos (by omega), listed]

end Trace

namespace Frame.Canonical

variable {frame : Frame Rat} {height candidates : Nat}

theorem nodup_basis (canonical : frame.Canonical height candidates) : frame.basis.Nodup := by
  rw [List.nodup_iff_injective_getElem]
  rintro ⟨first, firstInside⟩ ⟨second, secondInside⟩ same
  have basics : frame.basic first = frame.basic second := by
    rw [basic, basic, List.getD_eq_getElem _ _ firstInside, List.getD_eq_getElem _ _ secondInside]
    exact same
  rw [canonical.tracked] at firstInside secondInside
  exact Fin.ext ((canonical.basic_inj firstInside secondInside).1 basics)

/-- The basic columns of a canonical frame are a choice of as many candidates as there are
rows. -/
theorem toFinset_basis_mem (canonical : frame.Canonical height candidates) :
    frame.basis.toFinset ∈ powersetCard height (range candidates) := by
  rw [mem_powersetCard]
  constructor
  · intro column member
    obtain ⟨row, inside, rfl⟩ := canonical.mem_basis_iff.1 (List.mem_toFinset.1 member)
    exact mem_range.2 (canonical.candidate row inside)
  · rw [List.toFinset_card_of_nodup canonical.nodup_basis, canonical.tracked]

/-- There are no more frames with different sets of basic columns than such sets. -/
theorem length_le_choose {frames : List (Frame Rat)}
    (canonical : ∀ frame ∈ frames, frame.Canonical height candidates)
    (distinct : (frames.map fun frame => frame.basis.toFinset).Nodup) :
    frames.length ≤ candidates.choose height := by
  have subset : (frames.map fun frame => frame.basis.toFinset).toFinset ⊆
      powersetCard height (range candidates) := by
    intro basis member
    obtain ⟨frame, listed, rfl⟩ := List.mem_map.1 (List.mem_toFinset.1 member)
    exact (canonical frame listed).toFinset_basis_mem
  have bound := card_le_card subset
  rwa [List.toFinset_card_of_nodup distinct, List.length_map, card_powersetCard, card_range]
    at bound

end Frame.Canonical

namespace Program

variable {program : Program Rat} {options : Options Rat}

/-- A run that stops at the limit has recorded a frame for every permitted pivot and the
one before them. -/
theorem length_frames_of_iterationLimit {tableau : Tableau Rat} {limit : Nat}
    (stopped : (tableau.run options).outcome = .error (.iterationLimit limit))
    (basis : List Nat) :
    ((tableau.run options).frames basis).length = options.maxIterations.toNat + 1 := by
  rw [Run.length_frames, Tableau.run, Run.prepend, List.length_cons,
    Tableau.length_steps_of_iterationLimit options stopped]

/-- By Bland's rule without a tolerance a run of a standard program repeats a set of basic
columns only after it has passed over a smaller basic column. If it never does, no set is
repeated, and within as many pivots as there are sets the run returns or finds the objective
unbounded. -/
theorem bland_run (program : Program Rat) (options : Options Rat)
    (checked : program.check = .ok ())
    (senses : ∀ sense ∈ program.senses, sense = .atMost) (rhs : Nonnegative program.rhs)
    (bland : options.rule = .bland) (exact : options.tolerance = 0) :
    let run := program.primalTableau.run options
    let frames := run.frames program.slackColumns
    let candidates := program.objective.length + program.constraints.length
    (∀ first second (early late : Frame Rat), first < second →
      frames[first]? = some early → frames[second]? = some late →
      early.basis.toFinset = late.basis.toFinset →
      ∃ (position : Nat) (frame : Frame Rat), first ≤ position ∧ position < second ∧
        frames[position]? = some frame ∧ frame.PassesOver options candidates) ∧
    ((∀ frame ∈ frames.dropLast, ¬ frame.PassesOver options candidates) →
      (frames.map fun frame => frame.basis.toFinset).Nodup ∧
      (candidates.choose program.constraints.length ≤ options.maxIterations →
        (∃ final, run.outcome = .ok final) ∨
          ∃ column, run.outcome = .error (.unbounded column))) := by
  intro run frames candidates
  have fits := (check_eq_ok_iff program).1 checked
  have standard : program.Standard := ⟨senses, rhs⟩
  have describes : ∀ frame ∈ frames, frame.Describes program :=
    standard.describes_frames fits rfl fits.candidates_primalTableau
  have chain : frames.IsChain (Frame.Next options candidates) := by
    have consecutive :
        frames.IsChain (Frame.Next options program.primalTableau.candidates) :=
      Tableau.isChain_frames _ _
    rwa [fits.candidates_primalTableau] at consecutive
  refine ⟨?_, fun never => ?_⟩
  · intro first second early late ordered earlyListed lateListed same
    exact Trace.exists_passesOver_of_isChain describes chain bland exact ordered earlyListed
      lateListed same
  have distinct := Trace.nodup_of_isChain describes chain bland exact never
  refine ⟨distinct, fun enough => ?_⟩
  have labelled : program.primalTableau.Labelled := by
    rw [Tableau.Labelled, fits.sized_primalTableau.height_eq]
    simp [primalTableau, fits.senses]
  rcases labelled.outcome_cases with returned | unbounded | ⟨limit, stopped⟩
  · exact .inl returned
  · exact .inr unbounded
  · have bound : frames.length ≤ candidates.choose program.constraints.length :=
      Frame.Canonical.length_le_choose
        (fun frame member => (describes frame member).canonical) distinct
    have count : frames.length = options.maxIterations.toNat + 1 :=
      length_frames_of_iterationLimit stopped _
    omega

/-- A program whose first pivot has ratio zero. -/
def flatCorner : Program Rat where
  objective := [2, 1]
  constraints := [[1, -1], [1, 0], [0, 1]]
  senses := [.atMost, .atMost, .atMost]
  rhs := [0, 1, 1]
  goal := .maximize
  names := []

/-- The run of `flatCorner` never passes over a smaller basic column, so it ends. -/
theorem bland_run_flatCorner :
    flatCorner.check = .ok () ∧
      ((∃ final, (flatCorner.primalTableau.run ⟨10, 0, .bland⟩).outcome = .ok final) ∨
        ∃ column, (flatCorner.primalTableau.run ⟨10, 0, .bland⟩).outcome =
          .error (.unbounded column)) := by
  let options : Options Rat := ⟨10, 0, .bland⟩
  have checked : flatCorner.check = .ok () := by decide
  have never :
      ∀ frame ∈ ((flatCorner.primalTableau.run options).frames flatCorner.slackColumns).dropLast,
        ¬ frame.PassesOver options 5 := by
    decide +kernel
  obtain ⟨-, ends⟩ := bland_run flatCorner options checked (by decide) (by decide) rfl rfl
  exact ⟨checked, (ends never).2 (by decide)⟩

/-- A program on which taking the first row of ratio zero goes round in a cycle. -/
def cycling : Program Rat where
  objective := [-2, -54, 9, -26, 0, -8]
  constraints := [[1, -7, 1, 10, 1, -3], [2, -3, 1, 2, 0, -1]]
  senses := [.atMost, .atMost]
  rhs := [0, 0]
  goal := .maximize
  names := []

/-- By Bland's rule the run of `cycling` repeats sets of basic columns and stops only at the
limit, although that permits as many pivots as there are sets. -/
theorem bland_cycles :
    let run := cycling.primalTableau.run ⟨28, 0, .bland⟩
    cycling.check = .ok () ∧ (∀ sense ∈ cycling.senses, sense = .atMost) ∧
      Nonnegative cycling.rhs ∧
      ¬ ((run.frames cycling.slackColumns).map fun frame => frame.basis.toFinset).Nodup ∧
      (cycling.objective.length + cycling.constraints.length).choose
        cycling.constraints.length ≤ 28 ∧
      run.outcome = .error (.iterationLimit 28) := by
  decide +kernel

end Program

end Simplex
