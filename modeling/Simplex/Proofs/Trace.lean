import Simplex.Proofs.Standard

/-!
# Traces of pivots

A trace is a stretch of consecutive frames of a standard program with the pivots between
them. On a trace without tolerance the shown objective never falls. A closed trace, which
comes back to the basic columns it started from, therefore shows one objective all along:
its pivots all have ratio zero, no right-hand side changes, and every column that enters
also leaves.
-/

namespace Simplex

open Finset Table

/-- Consecutive frames of a standard program, each followed by its chosen pivot. -/
structure Trace (program : Program Rat) (options : Options Rat) (length : Nat) where
  frame : Nat → Frame Rat
  row : Nat → Nat
  column : Nat → Nat
  describes : ∀ index ≤ length, (frame index).Describes program
  chooses : ∀ index < length, (frame index).Chooses options
    (program.objective.length + program.constraints.length) (row index) (column index)
  next : ∀ index < length, frame (index + 1) = (frame index).exchange (row index) (column index)

namespace Frame.Describes

variable {program : Program Rat} {first last : Frame Rat}

/-- The objective row of one frame applied to the balance of a column in another frame. -/
theorem cost_add_sum_balance (firstDescribes : first.Describes program)
    (lastDescribes : last.Describes program) {source : Nat}
    (inside : source < program.objective.length + program.constraints.length + 2)
    (ordinary : source ≠ program.objective.length + program.constraints.length) :
    first.table.cost source +
        ∑ column ∈ range (program.objective.length + program.constraints.length),
          last.table.cost column *
            first.balance (program.objective.length + program.constraints.length) source column =
      if source = program.objective.length + program.constraints.length + 1 then
        last.table.rhs program.constraints.length
      else 0 := by
  have canonical := firstDescribes.canonical
  have vanish := canonical.annihilates_balance inside
  rw [firstDescribes.equivalent.annihilates, ← lastDescribes.equivalent.annihilates] at vanish
  have equation := lastDescribes.canonical.objective_of_annihilates vanish
  rw [canonical.balance_objective ordinary,
    canonical.balance_nonbasic (canonical.notMem_basis (by omega)) (by omega)] at equation
  by_cases rhs : source = program.objective.length + program.constraints.length + 1
  · rw [if_pos rhs.symm] at equation
    rw [if_pos rhs]
    linarith
  · rw [if_neg (Ne.symm rhs)] at equation
    rw [if_neg rhs]
    linarith

/-- Frames of one program with the same basic columns show the same objective. -/
theorem rhs_eq_of_basis_subset (firstDescribes : first.Describes program)
    (lastDescribes : last.Describes program) (subset : first.basis ⊆ last.basis) :
    first.table.rhs program.constraints.length = last.table.rhs program.constraints.length := by
  have canonical := firstDescribes.canonical
  have balanced := firstDescribes.cost_add_sum_balance lastDescribes (lt_add_one _) (by omega)
  have costs : ∑ column ∈ range (program.objective.length + program.constraints.length),
      last.table.cost column *
        first.balance (program.objective.length + program.constraints.length)
          (program.objective.length + program.constraints.length + 1) column = 0 := by
    apply sum_eq_zero
    intro column member
    have inside := mem_range.1 member
    by_cases basic : column ∈ first.basis
    · obtain ⟨row, rowInside, rfl⟩ := lastDescribes.canonical.mem_basis_iff.1 (subset basic)
      rw [lastDescribes.canonical.cost_basic rowInside, zero_mul]
    · rw [canonical.balance_nonbasic basic (by omega), if_neg (by omega), neg_zero, mul_zero]
  rw [costs, add_zero, if_pos rfl, canonical.cost_eq, ← canonical.rhs_eq] at balanced
  exact balanced

/-- Where one frame has a column that improves the objective, the balance of that column
agrees in sign with some objective entry of any other frame. -/
theorem exists_cost_mul_balance_pos (firstDescribes : first.Describes program)
    (lastDescribes : last.Describes program) {source : Nat}
    (inside : source < program.objective.length + program.constraints.length)
    (improving : first.table.cost source < 0) :
    ∃ column < program.objective.length + program.constraints.length,
      0 < last.table.cost column *
        first.balance (program.objective.length + program.constraints.length) source column := by
  have balanced := firstDescribes.cost_add_sum_balance lastDescribes
    (inside.trans (by omega)) inside.ne
  rw [if_neg (by omega)] at balanced
  by_contra! opposed
  have bounded := sum_nonpos fun column member => opposed column (mem_range.1 member)
  linarith

end Frame.Describes

namespace Trace

variable {program : Program Rat} {options : Options Rat} {length index : Nat}

/-- Frames that describe a program and follow each other by chosen pivots are those of a
trace, from any of them on. -/
theorem exists_of_isChain {frames : List (Frame Rat)}
    (describes : ∀ frame ∈ frames, frame.Describes program)
    (chain : frames.IsChain (Frame.Next options
      (program.objective.length + program.constraints.length)))
    {start : Nat} (inside : start + length < frames.length) :
    ∃ trace : Trace program options length,
      ∀ index ≤ length, frames[start + index]? = some (trace.frame index) := by
  let frame index := frames.getD (start + index) ⟨⟨[]⟩, []⟩
  have listed : ∀ index ≤ length, frames[start + index]? = some (frame index) := by
    intro index bound
    have present : start + index < frames.length := by omega
    rw [List.getElem?_eq_getElem present, ← List.getD_eq_getElem _ ⟨⟨[]⟩, []⟩ present]
  have moves : ∀ index, ∃ row column, index < length →
      (frame index).Chooses options (program.objective.length + program.constraints.length)
        row column ∧ frame (index + 1) = (frame index).exchange row column := by
    intro index
    by_cases bound : index < length
    · have present : start + index + 1 < frames.length := by omega
      obtain ⟨row, column, chosen, next⟩ := List.isChain_iff_getElem.1 chain _ present
      have own : frame index = frames[start + index] := List.getD_eq_getElem _ _ _
      have following : frame (index + 1) = frames[start + index + 1] :=
        List.getD_eq_getElem _ _ _
      exact ⟨row, column, fun _ => ⟨own ▸ chosen, by rw [following, next, own]⟩⟩
    · exact ⟨0, 0, fun within => absurd within bound⟩
  choose row column moves using moves
  exact ⟨{
    frame := frame
    row := row
    column := column
    describes := fun index bound =>
      describes _ (List.mem_of_getElem? (listed index bound))
    chooses := fun index bound => (moves index bound).1
    next := fun index bound => (moves index bound).2 }, listed⟩

variable (trace : Trace program options length)

/-- The pivot at a position of a trace. -/
theorem chosen (inside : index < length) :
    trace.row index < program.constraints.length ∧
      trace.column index < program.objective.length + program.constraints.length ∧
      0 < (trace.frame index).table.entry (trace.row index) (trace.column index) ∧
      (trace.frame index).table.cost (trace.column index) < -options.tolerance :=
  (trace.describes index inside.le).canonical.chooses (trace.chooses index inside)

/-- A pivot makes its column basic in its row and leaves the other rows alone. -/
theorem basic_succ (inside : index < length) (row : Nat) :
    (trace.frame (index + 1)).basic row =
      if row = trace.row index then trace.column index else (trace.frame index).basic row := by
  rw [trace.next index inside]
  exact (trace.describes index inside.le).canonical.basic_exchange (trace.chosen inside).1 row

/-- A pivot adds its column to the basic ones in exchange for that of its row. -/
theorem mem_basis_succ (inside : index < length) (column : Nat) :
    column ∈ (trace.frame (index + 1)).basis ↔
      column = trace.column index ∨
        column ∈ (trace.frame index).basis ∧
          column ≠ (trace.frame index).basic (trace.row index) := by
  have pivotInside := (trace.chosen inside).1
  have canonical := (trace.describes index inside.le).canonical
  rw [(trace.describes (index + 1) inside).canonical.mem_basis_iff, canonical.mem_basis_iff]
  simp only [trace.basic_succ inside]
  constructor
  · rintro ⟨row, rowInside, rfl⟩
    split_ifs with same
    · exact .inl rfl
    · refine .inr ⟨⟨row, rowInside, rfl⟩, fun shared => same ?_⟩
      exact (canonical.basic_inj rowInside pivotInside).1 shared
  · rintro (rfl | ⟨⟨row, rowInside, rfl⟩, different⟩)
    · exact ⟨trace.row index, pivotInside, if_pos rfl⟩
    · refine ⟨row, rowInside, if_neg fun same => different ?_⟩
      rw [same]

/-- A column that enters without tolerance was not basic. -/
theorem column_notMem_basis (exact : options.tolerance = 0) (inside : index < length) :
    trace.column index ∉ (trace.frame index).basis := by
  have canonical := (trace.describes index inside.le).canonical
  obtain ⟨-, -, -, improving⟩ := trace.chosen inside
  rw [canonical.mem_basis_iff]
  rintro ⟨row, rowInside, same⟩
  rw [← same, canonical.cost_basic rowInside, exact, neg_zero] at improving
  exact lt_irrefl 0 improving

/-- The right-hand sides after a pivot. -/
theorem rhs_succ (inside : index < length) (row : Nat) :
    (trace.frame (index + 1)).table.rhs row =
      if row = trace.row index then
        (trace.frame index).table.rhs (trace.row index) /
          (trace.frame index).table.entry (trace.row index) (trace.column index)
      else (trace.frame index).table.rhs row -
        (trace.frame index).table.entry row (trace.column index) *
          ((trace.frame index).table.rhs (trace.row index) /
            (trace.frame index).table.entry (trace.row index) (trace.column index)) := by
  rw [trace.next index inside]
  exact (trace.describes index inside.le).canonical.sized.rhs_pivot (trace.chosen inside).1.le row

/-- A pivot does not lower the shown objective, and keeps it only at ratio zero. -/
theorem value_succ (exact : options.tolerance = 0) (inside : index < length) :
    (trace.frame index).table.rhs program.constraints.length ≤
        (trace.frame (index + 1)).table.rhs program.constraints.length ∧
      ((trace.frame index).table.rhs program.constraints.length =
          (trace.frame (index + 1)).table.rhs program.constraints.length →
        (trace.frame index).table.rhs (trace.row index) = 0) := by
  have describes := trace.describes index inside.le
  obtain ⟨rowInside, -, -, improving⟩ := trace.chosen inside
  have nonnegative : 0 ≤ (trace.frame index).table.rhs (trace.row index) :=
    describes.feasible _ (by rwa [describes.canonical.sized.height_eq])
  rw [exact, neg_zero] at improving
  have rises := describes.feasible.rises describes.canonical.sized
    (trace.chooses index inside).leaving improving
  rw [describes.canonical.sized.height_eq] at rises
  rw [trace.next index inside]
  refine ⟨rises.1, fun kept => ?_⟩
  exact (nonnegative.eq_or_lt.resolve_right fun positive =>
    (rises.2.2 positive).ne kept).symm

/-- The shown objective rises along a trace. -/
theorem value_le (exact : options.tolerance = 0) {earlier later : Nat}
    (ordered : earlier ≤ later) (inside : later ≤ length) :
    (trace.frame earlier).table.rhs program.constraints.length ≤
      (trace.frame later).table.rhs program.constraints.length := by
  induction later, ordered using Nat.le_induction with
  | base => exact le_rfl
  | succ later _ ih => exact (ih (by omega)).trans (trace.value_succ exact inside).1

/-- The trace ends with the basic columns it started from. -/
def Closed : Prop := (trace.frame 0).basis.toFinset = (trace.frame length).basis.toFinset

variable {trace}

theorem Closed.mem_basis_iff (closed : trace.Closed) (column : Nat) :
    column ∈ (trace.frame 0).basis ↔ column ∈ (trace.frame length).basis := by
  rw [← List.mem_toFinset, closed, List.mem_toFinset]

/-- Every pivot of a closed trace has ratio zero. -/
theorem Closed.rhs_row (closed : trace.Closed) (exact : options.tolerance = 0)
    (inside : index < length) :
    (trace.frame index).table.rhs (trace.row index) = 0 := by
  have ends := (trace.describes 0 length.zero_le).rhs_eq_of_basis_subset
    (trace.describes length le_rfl) fun column => (closed.mem_basis_iff column).1
  have before := trace.value_le exact index.zero_le inside.le
  have after := trace.value_le exact (Nat.succ_le_of_lt inside) le_rfl
  obtain ⟨rises, flat⟩ := trace.value_succ exact inside
  exact flat (le_antisymm rises (after.trans (ends.ge.trans before)))

/-- No right-hand side changes along a closed trace. -/
theorem Closed.rhs_eq (closed : trace.Closed) (exact : options.tolerance = 0)
    (inside : index ≤ length) (row : Nat) :
    (trace.frame index).table.rhs row = (trace.frame 0).table.rhs row := by
  induction index with
  | zero => rfl
  | succ index ih =>
    rw [trace.rhs_succ inside, closed.rhs_row exact inside, zero_div, mul_zero, sub_zero]
    split_ifs with same
    · rw [← ih (by omega), same, closed.rhs_row exact inside]
    · exact ih (by omega)

/-- In a closed trace a column that never enters stays basic or stays nonbasic. -/
theorem Closed.mem_basis_of_never_enters (closed : trace.Closed) {column first second : Nat}
    (never : ∀ index < length, trace.column index ≠ column) (firstInside : first ≤ length)
    (secondInside : second ≤ length) (basic : column ∈ (trace.frame first).basis) :
    column ∈ (trace.frame second).basis := by
  have earlier : ∀ {start finish}, start ≤ finish → finish ≤ length →
      column ∈ (trace.frame finish).basis → column ∈ (trace.frame start).basis := by
    intro start finish ordered
    induction finish, ordered using Nat.le_induction with
    | base => exact fun _ => id
    | succ finish _ ih =>
      intro inside member
      have entered := (trace.mem_basis_succ inside column).1 member
      exact ih (by omega) (entered.resolve_left (never finish inside).symm).1
  have initial := earlier first.zero_le firstInside basic
  exact earlier secondInside le_rfl ((closed.mem_basis_iff column).1 initial)

/-- A column that enters in a closed trace also leaves in it. -/
theorem Closed.exists_leaves (closed : trace.Closed) (exact : options.tolerance = 0)
    (inside : index < length) :
    ∃ leaving < length,
      (trace.frame leaving).basic (trace.row leaving) = trace.column index := by
  by_contra! stays
  have later : ∀ {start finish}, start ≤ finish → finish ≤ length →
      trace.column index ∈ (trace.frame start).basis →
        trace.column index ∈ (trace.frame finish).basis := by
    intro start finish ordered
    induction finish, ordered using Nat.le_induction with
    | base => exact fun _ => id
    | succ finish _ ih =>
      intro bound member
      rw [trace.mem_basis_succ bound]
      exact .inr ⟨ih (by omega) member, (stays finish bound).symm⟩
  have entered : trace.column index ∈ (trace.frame (index + 1)).basis :=
    (trace.mem_basis_succ inside _).2 (.inl rfl)
  have final := later (Nat.succ_le_of_lt inside) le_rfl entered
  have initial := (closed.mem_basis_iff _).2 final
  exact trace.column_notMem_basis exact inside (later index.zero_le inside.le initial)

/-- A row whose basic column is nonbasic elsewhere in a trace is pivoted on. -/
theorem exists_row {row first second : Nat} (rowInside : row < program.constraints.length)
    (firstInside : first ≤ length) (secondInside : second ≤ length)
    (nonbasic : (trace.frame first).basic row ∉ (trace.frame second).basis) :
    ∃ index < length, trace.row index = row := by
  by_contra! never
  have kept : ∀ index ≤ length, (trace.frame index).basic row = (trace.frame 0).basic row := by
    intro index
    induction index with
    | zero => exact fun _ => rfl
    | succ index ih =>
      intro inside
      rw [trace.basic_succ inside, if_neg (never index inside).symm, ih (by omega)]
  refine nonbasic ((trace.describes second secondInside).canonical.mem_basis_iff.2 ?_)
  exact ⟨row, rowInside, (kept second secondInside).trans (kept first firstInside).symm⟩

/-- In a closed trace a row whose basic column is nonbasic elsewhere has the right-hand side
zero. -/
theorem Closed.rhs_eq_zero (closed : trace.Closed) (exact : options.tolerance = 0)
    {row first second : Nat} (rowInside : row < program.constraints.length)
    (firstInside : first ≤ length) (secondInside : second ≤ length)
    (nonbasic : (trace.frame first).basic row ∉ (trace.frame second).basis) :
    (trace.frame first).table.rhs row = 0 := by
  obtain ⟨index, inside, rfl⟩ := exists_row rowInside firstInside secondInside nonbasic
  rw [closed.rhs_eq exact firstInside, ← closed.rhs_eq exact inside.le,
    closed.rhs_row exact inside]

end Trace

end Simplex
