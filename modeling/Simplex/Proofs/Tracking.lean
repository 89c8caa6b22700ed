import Simplex.Proofs.History
import Simplex.Proofs.Labels
import Simplex.Proofs.Reading
import Simplex.Proofs.Standard

/-!
# The tracked basis

The names of the basic variables are kept beside the table and are updated apart from it.
At every recorded step of a run they say the truth about the table, whatever relations and
right sides the program has: the column that a row's name stands for is zero in all other
rows, the objective row included, and one in its own row, or minus one where a lower bound
has not been pivoted on. An equation's row has a name that is no column's until it is pivoted
on.
-/

namespace Simplex

/-- No recorded pivot was made on the row. -/
def Untouched {α : Type} (steps : List (Step α)) (row : Nat) : Prop :=
  ∀ step ∈ steps, ∀ info ∈ step.pivot, info.row ≠ row

instance {α : Type} (steps : List (Step α)) (row : Nat) : Decidable (Untouched steps row) :=
  inferInstanceAs (Decidable (∀ step ∈ steps, ∀ info ∈ step.pivot, info.row ≠ row))

theorem untouched_concat {α : Type} {steps : List (Step α)} {table : Table α} {info : PivotInfo}
    {row : Nat} :
    Untouched (steps ++ [⟨table, some info⟩]) row ↔ Untouched steps row ∧ info.row ≠ row := by
  simp [Untouched, or_imp, forall_and]

namespace Program

variable {program : Program Rat} {options : Options Rat} {steps : List (Step Rat)}
  {tableau : Tableau Rat} {row column : Nat}

/-- What a row has in the column of its basic variable: the auxiliary variable of a lower
bound is counted negatively until the first pivot on its row. -/
def ownEntry (program : Program Rat) (steps : List (Step Rat)) (row : Nat) : Rat :=
  if program.senses[row]? = some .atLeast ∧ Untouched steps row then -1 else 1

/-- A pivot makes the own entry of its row one. -/
theorem ownEntry_concat (program : Program Rat) (steps : List (Step Rat)) (table : Table Rat)
    {info : PivotInfo} (place : info.row = row) (other : Nat) :
    program.ownEntry (steps ++ [⟨table, some info⟩]) other =
      if other = row then 1 else program.ownEntry steps other := by
  simp only [ownEntry, untouched_concat, place, ne_eq, Nat.cast_inj]
  by_cases same : other = row
  · simp [same]
  · simp [same, Ne.symm same]

/-- The name of a row stands for a column that is zero in all other rows. Only an equation has
the name of its row until the first pivot there. -/
def Names (program : Program Rat) (steps : List (Step Rat)) (table : Table Rat) (row : Nat)
    (label : String) : Prop :=
  (program.senses[row]? = some .equal ∧ Untouched steps row ∧ label = s!"row{row + 1}") ∨
    ∃ column < program.objective.length + program.constraints.length,
      program.primalTableau.columns[column]? = some label ∧
      ∀ other ≤ program.constraints.length,
        table.entry other column = if other = row then program.ownEntry steps row else 0

/-- Every row has a name of its own, which tells its basic column. -/
structure Tracked (program : Program Rat) (steps : List (Step Rat)) (tableau : Tableau Rat) :
    Prop where
  sized : tableau.table.Sized program.constraints.length
    (program.objective.length + program.constraints.length + 2)
  length : tableau.basis.length = program.constraints.length
  distinct : tableau.basis.Nodup
  names : ∀ row label, tableau.basis[row]? = some label →
    program.Names steps tableau.table row label

/-- The columns of the tableau have different names, and none is called like a row. -/
structure WellNamed (program : Program Rat) : Prop where
  distinct : program.primalTableau.columns.Nodup
  ordinary : ∀ number : Nat, s!"row{number}" ∉ program.primalTableau.columns

theorem WellNamed.column_eq (named : program.WellNamed) {first second : Nat} {label : String}
    (firstNamed : program.primalTableau.columns[first]? = some label)
    (secondNamed : program.primalTableau.columns[second]? = some label) : first = second :=
  Tableau.column_eq named.distinct firstNamed secondNamed

/-- The name of a column that improves the objective is no row's: all tracked columns have
the objective entry zero. -/
theorem Tracked.notMem_basis (tracked : program.Tracked steps tableau)
    (named : program.WellNamed) {label : String}
    (listed : program.primalTableau.columns[column]? = some label)
    (improving : tableau.table.cost column < 0) : label ∉ tableau.basis := by
  intro member
  obtain ⟨row, position⟩ := List.mem_iff_getElem?.1 member
  have inside := (List.getElem?_eq_some_iff.1 position).1
  rw [tracked.length] at inside
  rcases tracked.names row label position with ⟨-, -, rfl⟩ | ⟨own, -, ownNamed, entries⟩
  · exact named.ordinary _ (List.mem_of_getElem? listed)
  · obtain rfl := named.column_eq ownNamed listed
    have zero := entries program.constraints.length le_rfl
    rw [if_neg (by omega), ← tracked.sized.height_eq] at zero
    exact improving.ne zero

/-- A chosen pivot keeps the basis tracked: the entering column becomes a unit vector, and
the tracked columns of the other rows, which are zero in the pivot row, stay as they are. -/
theorem Tracked.exchange (tracked : program.Tracked steps tableau) (named : program.WellNamed)
    {info : PivotInfo} (place : info.row = row) (inside : row < program.constraints.length)
    (candidate : column < program.objective.length + program.constraints.length)
    (positive : 0 < tableau.table.entry row column) (improving : tableau.table.cost column < 0)
    (listed : program.primalTableau.columns[column]? = some info.entering) :
    program.Tracked (steps ++ [⟨tableau.table.pivot row column, some info⟩])
      (tableau.exchange row column info.entering) where
  sized := tracked.sized.pivot column inside.le
  length := by simp [Tableau.exchange, tracked.length]
  distinct := tracked.distinct.set (tracked.notMem_basis named listed improving)
  names := by
    intro other label position
    simp only [Tableau.exchange, List.getElem?_set, tracked.length, inside, if_true] at position
    by_cases same : row = other
    · rw [if_pos same, Option.some.injEq] at position
      refine .inr ⟨column, candidate, position ▸ listed, fun index bound => ?_⟩
      rw [ownEntry_concat _ _ _ place, if_pos same.symm, ← same]
      exact tracked.sized.entry_pivot_column inside.le positive.ne' index
    · rw [if_neg same] at position
      rcases tracked.names other label position with
        ⟨equation, untouched, unnamed⟩ | ⟨own, ownInside, ownNamed, entries⟩
      · refine .inl ⟨equation, untouched_concat.2 ⟨untouched, fun equal => same ?_⟩, unnamed⟩
        exact Int.ofNat.inj (place.symm.trans equal)
      · refine .inr ⟨own, ownInside, ownNamed, fun index bound => ?_⟩
        have vanishes := entries row inside.le
        rw [if_neg same] at vanishes
        rw [ownEntry_concat _ _ _ place, if_neg (Ne.symm same)]
        exact (tracked.sized.entry_pivot_of_eq_zero column inside.le vanishes index).trans
          (entries index bound)

/-- The names of the initial basis: an auxiliary column or, for an equation, that of its
row. -/
theorem getElem?_basis_primalTableau {label : String}
    (listed : program.primalTableau.basis[row]? = some label) :
    ∃ sense, program.senses[row]? = some sense ∧
      label = if sense = .equal then s!"row{row + 1}" else s!"s{row + 1}" := by
  simp only [primalTableau, List.getElem?_mapIdx, Option.map_eq_some_iff] at listed
  obtain ⟨sense, position, rfl⟩ := listed
  refine ⟨sense, position, ?_⟩
  cases sense <;> rfl

/-- The name of an auxiliary column. -/
theorem Fits.getElem?_columns_auxiliary (fits : program.Fits)
    (inside : row < program.constraints.length) :
    program.primalTableau.columns[program.objective.length + row]? = some s!"s{row + 1}" := by
  have auxiliary : program.primalTableau.auxiliary[row]? = some s!"s{row + 1}" :=
    getElem?_numberedNames "s" inside
  rw [← fits.length_variableNames]
  exact Tableau.getElem?_columns_auxiliary auxiliary

/-- The rows start with different names. -/
theorem Fits.nodup_basis_primalTableau (fits : program.Fits) (named : program.WellNamed) :
    program.primalTableau.basis.Nodup := by
  have count : program.primalTableau.basis.length = program.constraints.length := by
    simp [primalTableau, fits.senses]
  rw [List.nodup_iff_getElem?_ne_getElem?]
  intro first second ordered inside same
  rw [count] at inside
  have early : first < program.primalTableau.basis.length := by omega
  have present := List.getElem?_eq_getElem early
  obtain ⟨firstSense, -, firstLabel⟩ := getElem?_basis_primalTableau present
  obtain ⟨secondSense, -, secondLabel⟩ := getElem?_basis_primalTableau (same ▸ present)
  have auxiliary : ∀ {index}, index < program.constraints.length →
      s!"s{index + 1}" ∈ program.primalTableau.columns :=
    fun bound => List.mem_of_getElem? (fits.getElem?_columns_auxiliary bound)
  rw [firstLabel] at secondLabel
  split_ifs at secondLabel with firstEqual secondEqual secondEqual
  · have numbers := (numberedName_inj rfl secondLabel).2
    omega
  · exact named.ordinary _ (secondLabel ▸ auxiliary inside)
  · exact named.ordinary _ (secondLabel ▸ auxiliary (ordered.trans inside))
  · have numbers := (numberedName_inj rfl secondLabel).2
    omega

/-- The initial column of an auxiliary variable, over all rows. -/
theorem Fits.entry_auxiliary (fits : program.Fits) {sense : Sense}
    (listed : program.senses[row]? = some sense) :
    ∀ other ≤ program.constraints.length,
      program.primalTableau.table.entry other (program.objective.length + row) =
        if other = row then auxiliarySign sense else 0 := by
  intro other bound
  have inside := (List.getElem?_eq_some_iff.1 listed).1
  rw [fits.senses] at inside
  rcases bound.lt_or_eq with constraint | rfl
  · obtain ⟨relation, related⟩ := fits.exists_relation constraint
    refine ((fits.entry_primalTableau related).1 row inside).trans ?_
    by_cases same : other = row
    · obtain rfl := same
      have rest := (List.getElem?_zip_eq_some.1 related).2
      have own : relation.2.1 = sense :=
        Option.some.inj ((List.getElem?_zip_eq_some.1 rest).1.symm.trans listed)
      rw [if_pos rfl, if_pos rfl, own]
    · rw [if_neg same, if_neg (Ne.symm same)]
  · rw [if_neg (by omega)]
    exact fits.cost_primalTableau.1 row inside

/-- The initial tableau is tracked. -/
theorem Fits.tracked_primalTableau (fits : program.Fits) (named : program.WellNamed) :
    program.Tracked [⟨program.primalTableau.table, none⟩] program.primalTableau where
  sized := fits.sized_primalTableau
  length := by simp [primalTableau, fits.senses]
  distinct := fits.nodup_basis_primalTableau named
  names := by
    intro row label position
    obtain ⟨sense, listed, rfl⟩ := getElem?_basis_primalTableau position
    have inside := (List.getElem?_eq_some_iff.1 listed).1
    rw [fits.senses] at inside
    have untouched : Untouched [⟨program.primalTableau.table, none⟩] row := by
      simp [Untouched]
    split_ifs with equation
    · exact .inl ⟨equation ▸ listed, untouched, rfl⟩
    · have own : (auxiliarySign sense : Rat) =
          program.ownEntry [⟨program.primalTableau.table, none⟩] row := by
        rw [ownEntry, listed]
        cases sense with
        | atMost => simp [auxiliarySign]
        | atLeast => simp [auxiliarySign, untouched]
        | equal => exact absurd rfl equation
      refine .inr ⟨program.objective.length + row, by omega,
        fits.getElem?_columns_auxiliary inside, ?_⟩
      rw [← own]
      exact fits.entry_auxiliary listed

/-- What a chosen pivot of a tracked tableau satisfies. -/
theorem Tracked.chosen (tracked : program.Tracked steps tableau) (fits : program.Fits)
    (tolerance : 0 ≤ options.tolerance)
    (reached : program.primalTableau.Reaches options steps tableau)
    (entering : tableau.entering? options.rule options.tolerance = some column)
    (leaving : tableau.table.leaving? column = some row) {info : PivotInfo}
    (described : tableau.pivotInfo? row column = some info) :
    row < program.constraints.length ∧
      column < program.objective.length + program.constraints.length ∧
      0 < tableau.table.entry row column ∧ tableau.table.cost column < 0 ∧
      program.primalTableau.columns[column]? = some info.entering := by
  obtain ⟨inside, positive⟩ := Table.pos_of_leaving? leaving
  rw [tracked.sized.height_eq] at inside
  rw [Tableau.entering?, reached.candidates_eq, fits.candidates_primalTableau] at entering
  obtain ⟨candidate, improving⟩ := tracked.sized.cost_of_entering? (by omega) entering
  exact ⟨inside, candidate, positive, by linarith, (reached.names_of_pivotInfo? described).1⟩

/-- Every tableau that a run reaches is tracked. -/
theorem Fits.tracked_of_reaches (fits : program.Fits) (named : program.WellNamed)
    (tolerance : 0 ≤ options.tolerance)
    (reached : program.primalTableau.Reaches options steps tableau) :
    program.Tracked steps tableau := by
  induction reached with
  | initial => exact fits.tracked_primalTableau named
  | pivot reached entering leaving described ih =>
    obtain ⟨inside, candidate, positive, improving, listed⟩ :=
      ih.chosen fits tolerance reached entering leaving described
    exact ih.exchange named (Tableau.pivotInfo?_eq_some described).1 inside candidate positive
      improving listed

/-- At every recorded step of a run the names of the basic variables are different and tell
their columns: such a column is zero in the objective row and in every other constraint row,
and has the own entry of its row there. The next pivot brings in a name that is not among
them in exchange for that of its row. A run that returns ends with the names so tracked. -/
theorem basis_tracked (program : Program Rat) (options : Options Rat)
    (checked : program.check = .ok ()) (distinct : program.primalTableau.columns.Nodup)
    (ordinary : ∀ number : Nat, s!"row{number}" ∉ program.primalTableau.columns)
    (tolerance : 0 ≤ options.tolerance) :
    let columns := program.primalTableau.columns
    let run := program.primalTableau.run options
    (∀ index step, run.steps[index]? = some step →
      let recorded := run.steps.take (index + 1)
      let labels := recorded.foldl Step.relabel program.primalTableau.basis
      labels.length = program.constraints.length ∧ labels.Nodup ∧
      (∀ row label, labels[row]? = some label → label ∈ columns ∨
        program.senses[row]? = some .equal ∧ Untouched recorded row ∧
          label = s!"row{row + 1}") ∧
      (∀ row column label, labels[row]? = some label → columns[column]? = some label →
        ∀ other ≤ program.constraints.length, step.table.entry other column =
          if other = row then
            if program.senses[row]? = some .atLeast ∧ Untouched recorded row then -1 else 1
          else 0) ∧
      ∀ next, run.steps[index + 1]? = some next → ∃ info, next.pivot = some info ∧
        info.entering ∉ labels ∧ labels[info.row.toNat]? = some info.leaving) ∧
    ∀ final, run.outcome = .ok final →
      final.basis = run.steps.foldl Step.relabel program.primalTableau.basis := by
  intro columns run
  have fits := (check_eq_ok_iff program).1 checked
  have named : program.WellNamed := ⟨distinct, ordinary⟩
  refine ⟨fun index step listed => ?_, fun final returned => ?_⟩
  · intro recorded labels
    have reached := Tableau.reaches_take options program.primalTableau index
    have tracked := fits.tracked_of_reaches named tolerance reached
    have basis : (recorded.foldl Tableau.replay program.primalTableau).basis = labels :=
      Tableau.basis_foldl_replay _ _
    have table : (recorded.foldl Tableau.replay program.primalTableau).table = step.table :=
      Tableau.table_foldl_replay_take _ listed
    have names : ∀ row label, labels[row]? = some label →
        program.Names recorded step.table row label := by
      rw [← basis, ← table]
      exact tracked.names
    refine ⟨basis ▸ tracked.length, basis ▸ tracked.distinct, ?_, ?_, ?_⟩
    · intro row label position
      rcases names row label position with unnamed | ⟨own, -, ownNamed, -⟩
      · exact .inr unnamed
      · exact .inl (List.mem_of_getElem? ownNamed)
    · intro row column label position columnNamed
      rcases names row label position with ⟨-, -, rfl⟩ | ⟨own, -, ownNamed, entries⟩
      · exact absurd (List.mem_of_getElem? columnNamed) (ordinary _)
      · obtain rfl := named.column_eq ownNamed columnNamed
        exact entries
    · intro next nextListed
      obtain ⟨before, row, column, info, beforeReached, beforeTable, entering, leaving, described,
        rfl⟩ := Tableau.exists_pivot_of_recorded listed nextListed
      obtain rfl := beforeReached.eq_foldl_replay
      rw [← beforeTable] at leaving
      obtain ⟨-, -, -, improving, enters⟩ :=
        tracked.chosen fits tolerance reached entering leaving described
      refine ⟨info, rfl, basis ▸ tracked.notMem_basis named enters improving, ?_⟩
      rw [(Tableau.pivotInfo?_eq_some described).1, Int.toNat_natCast]
      exact (reached.names_of_pivotInfo? described).2
  · rw [(Tableau.reaches_of_ok returned).eq_foldl_replay, Tableau.basis_foldl_replay]

/-- After the first pivot of `mixedRelations`, on its equation, the lower bound still has its
own auxiliary column, counted negatively. -/
theorem basis_tracked_mixedRelations :
    let run := mixedRelations.primalTableau.run .default
    mixedRelations.check = .ok () ∧ mixedRelations.primalTableau.columns.Nodup ∧
      (∀ number : Nat, s!"row{number}" ∉ mixedRelations.primalTableau.columns) ∧
      ∃ step : Step Rat, run.steps[1]? = some step ∧
        ∀ other ≤ 3, step.table.entry other 3 = if other = 1 then -1 else 0 := by
  intro run
  have checked : mixedRelations.check = .ok () := by decide
  have distinct : mixedRelations.primalTableau.columns.Nodup := by decide +kernel
  have ordinary : ∀ number : Nat, s!"row{number}" ∉ mixedRelations.primalTableau.columns := by
    intro number member
    have first : (s!"row{number}").toList.head? = some 'r' := by
      rw [String.toList_append]
      rfl
    have others : ∀ name ∈ mixedRelations.primalTableau.columns,
        name.toList.head? ≠ some 'r' := by
      decide +kernel
    exact others _ member first
  have tolerance : (0 : Rat) ≤ (Options.default : Options Rat).tolerance := by decide +kernel
  have present : ∃ step, run.steps[1]? = some step :=
    Option.isSome_iff_exists.1 (by decide +kernel)
  have labelled : ((run.steps.take 2).foldl Step.relabel mixedRelations.primalTableau.basis)[1]? =
      some "s2" := by
    decide +kernel
  have untouched : mixedRelations.senses[1]? = some .atLeast ∧ Untouched (run.steps.take 2) 1 := by
    decide +kernel
  obtain ⟨step, second⟩ := present
  obtain ⟨-, -, -, entries, -⟩ :=
    (basis_tracked mixedRelations .default checked distinct ordinary tolerance).1 1 step second
  have own := entries 1 3 "s2" labelled (by decide +kernel)
  rw [if_pos untouched] at own
  exact ⟨checked, distinct, ordinary, step, second, own⟩

end Program

end Simplex
