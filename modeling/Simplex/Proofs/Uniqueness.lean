import Simplex.Proofs.Start
import Simplex.Proofs.Table.Pivoted
import Simplex.Proofs.Tracking
import Simplex.Proofs.Transposition

/-!
# The basis determines the table

Whatever pivots lead to them, two tableaux of a program with the same name in every row hold the
same table. The name of a row that was pivoted on stands for a column that is the unit vector of
that row, and a row without a pivot has kept the column of its first name. For a lower bound that
column is minus the unit vector until the first pivot on the row, so the two tableaux have to agree
on which lower bounds were pivoted on.
-/

namespace Simplex

/-- A pivot was made on the row. -/
def PivotedOn (positions : List (Nat × Nat)) (row : Nat) : Prop :=
  ∃ position ∈ positions, position.1 = row

instance (positions : List (Nat × Nat)) (row : Nat) : Decidable (PivotedOn positions row) :=
  inferInstanceAs (Decidable (∃ position ∈ positions, position.1 = row))

theorem pivotedOn_concat {positions : List (Nat × Nat)} {row column other : Nat} :
    PivotedOn (positions ++ [(row, column)]) other ↔ PivotedOn positions other ∨ row = other := by
  simp [PivotedOn, or_and_right, exists_or]

namespace Tableau

/-- The tableaux that pivots on non-zero entries of constraint rows lead to, chosen by any rule or
by hand, each with the positions of the pivots. A pivot gives its row the name of its column. -/
inductive Driven (start : Tableau Rat) : List (Nat × Nat) → Tableau Rat → Prop where
  | initial : Driven start [] start
  | pivot {positions tableau row column entering} (driven : Driven start positions tableau)
      (inside : row < tableau.table.height) (nonzero : tableau.table.entry row column ≠ 0)
      (named : start.columns[column]? = some entering) :
      Driven start (positions ++ [(row, column)]) (tableau.exchange row column entering)

/-- Every row starts with a name. It is that of a column with a multiple of the row's unit vector,
or of no column at all. -/
structure Anchored (start : Tableau Rat) (own : Nat → Rat) : Prop where
  labelled : start.Labelled
  names : ∀ row label, start.basis[row]? = some label → label ∉ start.columns ∨
    ∃ column, start.columns[column]? = some label ∧ ∀ other ≤ start.table.height,
      start.table.entry other column = if other = row then own row else 0

variable {start tableau other : Tableau Rat} {positions otherPositions : List (Nat × Nat)}
  {height width row column : Nat} {own : Nat → Rat} {label : String}

namespace Driven

theorem pivoted (driven : start.Driven positions tableau) :
    Table.Pivoted start.table positions tableau.table := by
  induction driven with
  | initial => exact .initial
  | pivot driven inside nonzero named ih => exact ih.pivot inside nonzero

/-- Pivots change the table and the names of the basic variables and nothing else. -/
theorem eq_start (driven : start.Driven positions tableau) :
    tableau = { start with
      table := tableau.table
      basis := tableau.basis } := by
  induction driven with
  | initial => rfl
  | pivot driven inside nonzero named ih =>
    rw [exchange, ih]

theorem labelled (driven : start.Driven positions tableau) (labelled : start.Labelled) :
    tableau.Labelled := by
  induction driven with
  | initial => exact labelled
  | pivot driven inside nonzero named ih => exact ih.exchange _ _ _

/-- A row that was pivoted on has the name of a column that is its unit vector. -/
theorem exists_unit (driven : start.Driven positions tableau)
    (sized : start.table.Sized height width) (touched : PivotedOn positions row)
    (position : tableau.basis[row]? = some label) :
    ∃ column, start.columns[column]? = some label ∧ tableau.table.HasUnit row column := by
  induction driven with
  | initial => simp [PivotedOn] at touched
  | @pivot positions tableau pivotRow pivotColumn entering driven inside nonzero named ih =>
    have reached := driven.pivoted.sized sized
    rw [reached.height_eq] at inside
    simp only [Tableau.exchange, List.getElem?_set] at position
    by_cases same : pivotRow = row
    · rw [if_pos same, Option.ite_none_right_eq_some, Option.some.injEq] at position
      refine ⟨pivotColumn, position.2 ▸ named, fun other _ => ?_⟩
      rw [← same]
      exact reached.entry_pivot_column inside.le nonzero other
    · rw [if_neg same] at position
      obtain ⟨column, columnNamed, unit⟩ :=
        ih ((pivotedOn_concat.1 touched).resolve_right same) position
      refine ⟨column, columnNamed, fun other bound => ?_⟩
      have vanishes := unit pivotRow (reached.height_eq ▸ inside.le)
      rw [if_neg same] at vanishes
      simp only [Tableau.exchange, Table.height_pivot] at bound
      exact (reached.entry_pivot_of_eq_zero pivotColumn inside.le vanishes other).trans
        (unit other bound)

/-- A row without a pivot keeps its name. -/
theorem label_eq (driven : start.Driven positions tableau) (untouched : ¬ PivotedOn positions row) :
    tableau.basis[row]? = start.basis[row]? := by
  induction driven with
  | initial => rfl
  | pivot driven inside nonzero named ih =>
    rw [pivotedOn_concat, not_or] at untouched
    rw [Tableau.exchange, List.getElem?_set_ne untouched.2]
    exact ih untouched.1

/-- A row without a pivot leaves the columns as they are that are zero in all other rows. -/
theorem entry_eq (driven : start.Driven positions tableau)
    (sized : start.table.Sized height width) (untouched : ¬ PivotedOn positions row)
    (vanishes : ∀ other ≤ height, other ≠ row → start.table.entry other column = 0)
    (index : Nat) : tableau.table.entry index column = start.table.entry index column := by
  induction driven generalizing index with
  | initial => rfl
  | @pivot positions tableau pivotRow pivotColumn entering driven inside nonzero named ih =>
    rw [pivotedOn_concat, not_or] at untouched
    have reached := driven.pivoted.sized sized
    rw [reached.height_eq] at inside
    have zero : tableau.table.entry pivotRow column = 0 := by
      rw [ih untouched.1]
      exact vanishes pivotRow inside.le untouched.2
    exact (reached.entry_pivot_of_eq_zero pivotColumn inside.le zero index).trans
      (ih untouched.1 index)

/-- A row without a pivot still has the column of its name as unit vector, if it had at the
start. -/
theorem unit_of_untouched (driven : start.Driven positions tableau)
    (sized : start.table.Sized height width) (anchored : start.Anchored own)
    (distinct : start.columns.Nodup) (untouched : ¬ PivotedOn positions row)
    (position : tableau.basis[row]? = some label) (named : start.columns[column]? = some label)
    (unit : own row = 1) : tableau.table.HasUnit row column := by
  rw [driven.label_eq untouched] at position
  rcases anchored.names row label position with unnamed | ⟨source, sourceNamed, entries⟩
  · exact absurd (List.mem_of_getElem? named) unnamed
  · obtain rfl := column_eq distinct sourceNamed named
    rw [sized.height_eq] at entries
    intro other bound
    rw [(driven.pivoted.sized sized).height_eq] at bound
    have stays := driven.entry_eq sized untouched fun index inside different =>
      (entries index inside).trans (if_neg different)
    rw [stays, entries other bound, unit]

/-- Two tableaux reached from one by pivots are the same if they have the same name in every row,
and agree on the pivoted ones among the rows that do not start with a unit column. -/
theorem eq_of_basis_eq (driven : start.Driven positions tableau)
    (otherDriven : start.Driven otherPositions other) (sized : start.table.Sized height width)
    (anchored : start.Anchored own) (distinct : start.columns.Nodup)
    (same : tableau.basis = other.basis)
    (alike : ∀ row, own row ≠ 1 → (PivotedOn positions row ↔ PivotedOn otherPositions row)) :
    tableau = other := by
  have table : tableau.table = other.table := by
    refine driven.pivoted.eq_of_units
      (fun row => PivotedOn positions row ∨ PivotedOn otherPositions row) otherDriven.pivoted sized
      (fun position member => .inl ⟨position, member, rfl⟩)
      (fun position member => .inr ⟨position, member, rfl⟩) fun row inside touchedOnce => ?_
    have labelled := driven.labelled anchored.labelled
    rw [Labelled, (driven.pivoted.sized sized).height_eq] at labelled
    obtain ⟨label, position⟩ : ∃ label, tableau.basis[row]? = some label :=
      ⟨_, List.getElem?_eq_getElem (by rwa [labelled])⟩
    have otherPosition : other.basis[row]? = some label := same ▸ position
    by_cases touched : PivotedOn positions row
    · obtain ⟨column, named, unit⟩ := driven.exists_unit sized touched position
      refine ⟨column, unit, ?_⟩
      by_cases otherTouched : PivotedOn otherPositions row
      · obtain ⟨source, sourceNamed, otherUnit⟩ :=
          otherDriven.exists_unit sized otherTouched otherPosition
        rwa [column_eq distinct named sourceNamed]
      · have one : own row = 1 := by
          by_contra different
          exact otherTouched ((alike row different).1 touched)
        exact otherDriven.unit_of_untouched sized anchored distinct otherTouched otherPosition named
          one
    · have otherTouched := touchedOnce.resolve_left touched
      obtain ⟨column, named, otherUnit⟩ :=
        otherDriven.exists_unit sized otherTouched otherPosition
      have one : own row = 1 := by
        by_contra different
        exact touched ((alike row different).2 otherTouched)
      exact ⟨column, driven.unit_of_untouched sized anchored distinct touched position named one,
        otherUnit⟩
  rw [driven.eq_start, otherDriven.eq_start, table, same]

end Driven

/-- The positions of recorded pivots. -/
def pivotPositions {α : Type} (steps : List (Step α)) : List (Nat × Nat) :=
  steps.filterMap fun step => step.pivot.map fun info => (info.row.toNat, info.column.toNat)

/-- One more recorded pivot adds its position. -/
theorem pivotPositions_concat {α : Type} (steps : List (Step α)) (table : Table α)
    {info : PivotInfo} (position : info.row = row ∧ info.column = column) :
    pivotPositions (steps ++ [⟨table, some info⟩]) = pivotPositions steps ++ [(row, column)] := by
  simp [pivotPositions, position.1, position.2]

/-- The recorded steps of a run come from pivots on non-zero entries of constraint rows. -/
theorem Reaches.driven {options : Options Rat} {steps : List (Step Rat)}
    (reached : Reaches options start steps tableau) :
    start.Driven (pivotPositions steps) tableau := by
  induction reached with
  | initial => exact .initial
  | pivot reached entering leaving described ih =>
    obtain ⟨inside, positive⟩ := Table.pos_of_leaving? leaving
    rw [pivotPositions_concat _ _ (pivotInfo?_eq_some described)]
    exact ih.pivot inside positive.ne' (reached.names_of_pivotInfo? described).1

end Tableau

/-- A row's name is none of the names that start with another letter. -/
theorem rowName_notMem {names : List String}
    (others : ∀ name ∈ names, name.toList.head? ≠ some 'r') (number : Nat) :
    s!"row{number}" ∉ names := by
  intro member
  refine others _ member ?_
  rw [String.toList_append]
  rfl

namespace Program

variable {program : Program Rat}

/-- The columns of the dual's tableau have different names. -/
theorem nodup_columns_dualTableau (program : Program Rat) :
    program.dualTableau.columns.Nodup := by
  have columns : program.dualTableau.columns = numberedNames "y" program.constraints.length ++
      numberedNames "s" program.objective.length ++ ["p", "RHS"] := rfl
  have equallyLong : "y".length = "s".length := rfl
  have disjoint := disjoint_numberedNames equallyLong (by decide) program.constraints.length
    program.objective.length
  rw [columns, List.nodup_append', List.nodup_append']
  refine ⟨⟨nodup_numberedNames _ _, nodup_numberedNames _ _, disjoint⟩, by decide,
    fun name member last => ?_⟩
  have letter : name.toList.head? = some 'y' ∨ name.toList.head? = some 's' :=
    (List.mem_append.1 member).imp (head?_of_mem_numberedNames rfl)
      (head?_of_mem_numberedNames rfl)
  have others : ∀ name ∈ ["p", "RHS"],
      name.toList.head? ≠ some 'y' ∧ name.toList.head? ≠ some 's' := by
    decide
  exact letter.elim (others name last).1 (others name last).2

/-- Both methods start from rows with names. Only the lower bounds of the primal method do not
have the unit vector of their row in the column of that name, but minus one times it. -/
theorem Fits.exists_anchored (fits : program.Fits) (method : Method)
    (named : method = .primal → program.WellNamed) :
    ∃ own : Nat → Rat, (program.start method).Anchored own ∧
      ∀ row, own row ≠ 1 → method = .primal ∧ program.senses[row]? = some .atLeast := by
  have labelled := fits.labelled_start method
  cases method with
  | primal =>
    have tracked := fits.tracked_primalTableau (named rfl)
    have height := tracked.sized.height_eq
    refine ⟨program.ownEntry [⟨program.primalTableau.table, none⟩],
      ⟨labelled, fun row label listed => ?_⟩, fun row different => ?_⟩
    · rcases tracked.names row label listed with ⟨-, -, rfl⟩ | ⟨column, -, columnNamed, entries⟩
      · exact .inl ((named rfl).ordinary _)
      · exact .inr ⟨column, columnNamed, fun other bound => entries other (height ▸ bound)⟩
    · refine ⟨rfl, ?_⟩
      by_contra other
      exact different (if_neg fun lower => other lower.1)
  | dual =>
    have height := fits.sized_dualTableau.height_eq
    refine ⟨fun _ => 1, ⟨labelled, fun row label listed => .inr ?_⟩,
      fun row different => absurd rfl different⟩
    change program.dualTableau.auxiliary[row]? = some label at listed
    have column := Tableau.getElem?_columns_auxiliary listed
    have structural : program.dualTableau.structural.length = program.constraints.length := by
      simp [dualTableau, numberedNames]
    have inside : row < program.objective.length := by
      simpa [dualTableau, numberedNames] using (List.getElem?_eq_some_iff.1 listed).1
    have upper : program.transposed.senses[row]? = some .atMost := by
      simp [Program.transposed, inside]
    have entries := fits.transposed.entry_auxiliary upper
    rw [← table_dualTableau_exact, length_constraints_transposed,
      fits.length_objective_transposed] at entries
    refine ⟨_, column, fun other bound => ?_⟩
    exact structural ▸ entries other (height ▸ bound)

/-- Tables that pivots on non-zero entries of constraint rows lead to from one table, in any order,
are equal if each constraint row has a column that is its unit vector in both. Two tableaux of one
program, whether runs by any options or pivots by hand lead to them, are therefore the same when
they have the same name in every row, provided that no two columns and no row share a name, and
that the same lower bounds were pivoted on. -/
theorem basis_determines_table :
    (∀ {start first second : Table Rat} {height width : Nat}
      {positions otherPositions : List (Nat × Nat)} (columns : Nat → Nat),
      start.Sized height width → start.Pivoted positions first →
      start.Pivoted otherPositions second →
      (∀ row < height, first.HasUnit row (columns row) ∧ second.HasUnit row (columns row)) →
        first = second) ∧
    ∀ (program : Program Rat) (method : Method), program.check = .ok () →
      (method = .primal → program.primalTableau.columns.Nodup ∧
        ∀ number : Nat, s!"row{number}" ∉ program.primalTableau.columns) →
      let start := program.start method
      (∀ {positions otherPositions : List (Nat × Nat)} {tableau other : Tableau Rat},
        start.Driven positions tableau → start.Driven otherPositions other →
        tableau.basis = other.basis →
        (∀ row, method = .primal → program.senses[row]? = some .atLeast →
          (PivotedOn positions row ↔ PivotedOn otherPositions row)) →
          tableau = other) ∧
      ∀ (options : Options Rat) (index : Nat) (step : Step Rat),
        (start.run options).steps[index]? = some step →
          let recorded := (start.run options).steps.take (index + 1)
          ∃ tableau, start.Driven (Tableau.pivotPositions recorded) tableau ∧
            tableau.table = step.table ∧
            tableau.basis = recorded.foldl Step.relabel start.basis := by
  constructor
  · intro start first second height width positions otherPositions columns sized pivoted
      otherPivoted units
    exact pivoted.eq_of_units (fun _ => True) otherPivoted sized (fun _ _ => trivial)
      (fun _ _ => trivial) fun row inside _ => ⟨columns row, units row inside⟩
  intro program method checked ordinary start
  constructor
  · intro positions otherPositions tableau other driven otherDriven same alike
    have fits := (check_eq_ok_iff program).1 checked
    have named : method = .primal → program.WellNamed :=
      fun primal => ⟨(ordinary primal).1, (ordinary primal).2⟩
    have distinct : start.columns.Nodup := by
      cases method with
      | primal => exact (ordinary rfl).1
      | dual => exact program.nodup_columns_dualTableau
    obtain ⟨own, anchored, lower⟩ := fits.exists_anchored method named
    exact driven.eq_of_basis_eq otherDriven (fits.sized_start method) anchored distinct same
      fun row different => alike row (lower row different).1 (lower row different).2
  · intro options index step listed recorded
    obtain ⟨tableau, reached, table⟩ := Tableau.reaches_of_recorded listed
    exact ⟨tableau, reached.driven, table, by
      rw [reached.eq_foldl_replay, Tableau.basis_foldl_replay]⟩

/-- A program with a lower bound, on which the two rules make the same two pivots in different
orders. -/
def raisedFloor : Program Rat where
  objective := [2, 3]
  constraints := [[1, 0], [1, 2]]
  senses := [.atLeast, .atMost]
  rhs := [1, 5]
  goal := .maximize
  names := []

/-- The pivots on `raisedFloor` give the same table in either order, and both rules hold it after
their second pivot. -/
theorem basis_determines_table_raisedFloor :
    let start := raisedFloor.start .primal
    let dantzig := start.run .default
    let bland := start.run ⟨10, 0, .bland⟩
    (start.table.pivot 0 0).pivot 1 1 = (start.table.pivot 1 1).pivot 0 0 ∧
      raisedFloor.check = .ok () ∧
      ∃ first second : Step Rat, dantzig.steps[2]? = some first ∧ bland.steps[2]? = some second ∧
        first.pivot ≠ second.pivot ∧ first.table = second.table := by
  intro start dantzig bland
  have checked : raisedFloor.check = .ok () := by decide
  have fits := (check_eq_ok_iff raisedFloor).1 checked
  have distinct : raisedFloor.primalTableau.columns.Nodup := by decide +kernel
  have ordinary : ∀ number : Nat, s!"row{number}" ∉ raisedFloor.primalTableau.columns :=
    rowName_notMem (by decide +kernel)
  obtain ⟨tables, tableaux⟩ := basis_determines_table
  obtain ⟨unique, driven⟩ := tableaux raisedFloor .primal checked fun _ => ⟨distinct, ordinary⟩
  refine ⟨?_, checked, ?_⟩
  · have forward : start.table.Pivoted [(0, 0), (1, 1)] ((start.table.pivot 0 0).pivot 1 1) :=
      (Table.Pivoted.initial.pivot (by decide +kernel) (by decide +kernel)).pivot
        (by decide +kernel) (by decide +kernel)
    have backward : start.table.Pivoted [(1, 1), (0, 0)] ((start.table.pivot 1 1).pivot 0 0) :=
      (Table.Pivoted.initial.pivot (by decide +kernel) (by decide +kernel)).pivot
        (by decide +kernel) (by decide +kernel)
    exact tables id (fits.sized_start .primal) forward backward (by decide +kernel)
  · have recorded : 2 < dantzig.steps.length ∧ 2 < bland.steps.length := by decide +kernel
    have labels : (dantzig.steps.take 3).foldl Step.relabel start.basis =
        (bland.steps.take 3).foldl Step.relabel start.basis := by
      decide +kernel
    have touched : PivotedOn (Tableau.pivotPositions (dantzig.steps.take 3)) 0 ∧
        PivotedOn (Tableau.pivotPositions (bland.steps.take 3)) 0 := by
      decide +kernel
    have lower : ∀ row, raisedFloor.senses[row]? = some .atLeast → row = 0 := by
      intro row listed
      match row with
      | 0 => rfl
      | 1 => cases listed
      | row + 2 => cases listed
    have dantzigListed := List.getElem?_eq_getElem recorded.1
    have blandListed := List.getElem?_eq_getElem recorded.2
    obtain ⟨first, firstDriven, firstTable, firstBasis⟩ := driven .default 2 _ dantzigListed
    obtain ⟨second, secondDriven, secondTable, secondBasis⟩ :=
      driven ⟨10, 0, .bland⟩ 2 _ blandListed
    have same := unique firstDriven secondDriven (firstBasis.trans (labels.trans secondBasis.symm))
      fun row _ listed => lower row listed ▸ iff_of_true touched.1 touched.2
    have pivots : dantzig.steps[2]?.map Step.pivot ≠ bland.steps[2]?.map Step.pivot := by
      decide +kernel
    rw [dantzigListed, blandListed] at pivots
    refine ⟨_, _, dantzigListed, blandListed, fun alike => pivots (congrArg some alike), ?_⟩
    rw [← firstTable, ← secondTable, same]

/-- Two recorded steps of a run leave every row with the same name and have different tables. -/
def Ambiguous (program : Program Rat) (options : Options Rat) (first second : Nat) : Prop :=
  let steps := (program.primalTableau.run options).steps
  let labels := program.primalTableau.basis
  (steps.take (first + 1)).foldl Step.relabel labels =
      (steps.take (second + 1)).foldl Step.relabel labels ∧
    ∃ early ∈ steps[first]?, ∃ late ∈ steps[second]?, early.table ≠ late.table

instance (program : Program Rat) (options : Options Rat) (first second : Nat) :
    Decidable (program.Ambiguous options first second) :=
  inferInstanceAs (Decidable (_ ∧ ∃ early ∈ _, ∃ late ∈ _, _))

/-- Two lower bounds, which start with minus the unit vectors of their rows. -/
def lowerBounds : Program Rat where
  objective := [2, -3]
  constraints := [[1, -2], [1, -1]]
  senses := [.atLeast, .atLeast]
  rhs := [0, 0]
  goal := .maximize
  names := []

/-- Two variables of one name. -/
def twinNames : Program Rat where
  objective := [1, 2]
  constraints := [[1, 1]]
  senses := [.atMost]
  rhs := [1]
  goal := .maximize
  names := ["x1", "x1"]

/-- A variable that is called like the row of the equation. -/
def rowNamed : Program Rat where
  objective := [1]
  constraints := [[1]]
  senses := [.equal]
  rhs := [1]
  goal := .maximize
  names := ["row1"]

/-- The names of the basic variables alone do not determine the table. The run of `lowerBounds`
comes back to them after four pivots with the constraint rows negated, and then finds the objective
unbounded; that of `twinNames` exchanges one variable for the other of its name, and that of
`rowNamed` an equation's row for the variable of that name, and both return. -/
theorem labels_ambiguous :
    let options : Options Rat := ⟨10, 0, .bland⟩
    (lowerBounds.check = .ok () ∧ lowerBounds.Ambiguous options 0 4 ∧
      (lowerBounds.primalTableau.run options).outcome = .error (.unbounded 0)) ∧
    (twinNames.check = .ok () ∧ twinNames.Ambiguous options 1 2 ∧
      (twinNames.primalTableau.run options).outcome.isOk) ∧
    rowNamed.check = .ok () ∧ rowNamed.Ambiguous options 0 1 ∧
      (rowNamed.primalTableau.run options).outcome.isOk := by
  decide +kernel

end Program

end Simplex
