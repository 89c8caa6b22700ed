import Simplex.Proofs.Selection
import Simplex.Proofs.Table.Sized
import Simplex.Table.Choice

/-!
# The chosen pivot

In any arithmetic a column that enters is a candidate, and the row that leaves is a
constraint row with a positive entry there.
Where the objective entries are ordered, the column is the one that the rule asks for. Where the
ratios are, the row is the first with the least ratio among those that bound the column, and its
ratio lies below infinity.

In exact arithmetic an entering column has an objective entry below minus the tolerance,
under Bland's rule with no such entry before it, and there is none exactly when all
candidates are above. A leaving row has the least ratio, and there is none exactly when
no entry is positive.
-/

namespace Simplex.Table

section Scanned

variable {α : Type} [Scalar α] {table : Table α} {height width candidates column row : Nat}
  {rule : PivotRule} {tolerance : α}

/-- A column that enters is a candidate. -/
theorem lt_of_entering? (entering : table.entering? candidates rule tolerance = some column) :
    column < candidates := by
  have listed : column < (table.candidateCosts candidates).length := by
    cases rule with
    | bland => exact (List.findIdx?_eq_some_iff_getElem.1 entering).1
    | dantzig =>
      simp only [entering?, Option.ite_none_right_eq_some] at entering
      exact Selection.lt_of_leastIndex? entering.2
  rw [candidateCosts, List.length_take] at listed
  omega

/-- The ratio of the right-hand side of a row to its entry in a column. -/
def ratio (table : Table α) (column row : Nat) : α := table.rhs row / table.entry row column

/-- The row is a constraint with a positive entry in the column. -/
structure Bounds (table : Table α) (column row : Nat) : Prop where
  inside : row < table.height
  positive : 0 < table.entry row column

/-- The row is the first one with the least ratio among those that bound the column. -/
structure BoundsFirst (table : Table α) (column row : Nat) : Prop
    extends Bounds table column row where
  least : ∀ other, table.Bounds column other → table.ratio column row ≤ table.ratio column other
  first : ∀ earlier < row, table.Bounds column earlier →
    table.ratio column row < table.ratio column earlier

instance : Decidable (table.Bounds column row) :=
  decidable_of_iff (row < table.height ∧ 0 < table.entry row column)
    ⟨fun ⟨inside, positive⟩ => ⟨inside, positive⟩, fun bounds => ⟨bounds.inside, bounds.positive⟩⟩

instance : Decidable (table.BoundsFirst column row) :=
  decidable_of_iff
    (table.Bounds column row ∧
      (∀ other < table.height, table.Bounds column other →
        table.ratio column row ≤ table.ratio column other) ∧
      ∀ earlier < row, table.Bounds column earlier →
        table.ratio column row < table.ratio column earlier)
    ⟨fun ⟨bounds, least, first⟩ =>
        ⟨bounds, fun other others => least other others.inside others, first⟩,
      fun bounds => ⟨bounds.toBounds, fun other _ => bounds.least other, bounds.first⟩⟩

/-- A ratio is listed for every constraint row with a positive entry. -/
theorem mem_ratios {ratio : α} :
    (row, ratio) ∈ table.ratios column ↔
      row < table.height ∧ 0 < table.entry row column ∧
        table.rhs row / table.entry row column = ratio := by
  simp only [ratios, List.mem_filterMap, List.mem_range, Option.ite_none_right_eq_some,
    Option.some.injEq, Prod.mk.injEq]
  constructor
  · rintro ⟨listed, inside, positive, rfl, rfl⟩
    exact ⟨inside, positive, rfl⟩
  · rintro ⟨inside, positive, rfl⟩
    exact ⟨row, inside, positive, rfl, rfl⟩

theorem mem_ratios_iff {value : α} :
    (row, value) ∈ table.ratios column ↔ table.Bounds column row ∧ table.ratio column row = value :=
  mem_ratios.trans ⟨fun ⟨inside, positive, same⟩ => ⟨⟨inside, positive⟩, same⟩,
    fun ⟨⟨inside, positive⟩, same⟩ => ⟨inside, positive, same⟩⟩

/-- A row that leaves is a constraint row with a positive entry in the entering column. -/
theorem pos_of_leaving? (leaving : table.leaving? column = some row) :
    row < table.height ∧ 0 < table.entry row column := by
  obtain ⟨ratio, scanned⟩ := Selection.exists_mem_of_firstLeast? leaving
  obtain ⟨inside, positive, -⟩ := mem_ratios.1 scanned
  exact ⟨inside, positive⟩

/-- The objective row is the last one. -/
theorem objective_eq_row {α : Type} (table : Table α) :
    table.objective = table.row table.height := by
  rw [objective, row, height, List.getLastD_eq_getLast?, List.getLast?_eq_getElem?,
    List.getD_eq_getElem?_getD]

/-- The candidate costs are the objective entries of the candidate columns. -/
theorem Sized.getElem?_candidateCosts (sized : table.Sized height width)
    (fits : candidates ≤ width) (column : Nat) :
    (table.candidateCosts candidates)[column]? =
      if column < candidates then some (table.cost column) else none := by
  have length : (table.row table.height).length = width := by
    rw [sized.height_eq]
    exact sized.length_row le_rfl
  rw [candidateCosts, List.getElem?_take, objective_eq_row]
  split_ifs with inside
  · have present : column < (table.row table.height).length := by omega
    rw [cost, entry, List.getElem?_eq_getElem present, List.getD_eq_getElem _ _ present]
  · rfl

theorem Sized.mem_candidateCosts (sized : table.Sized height width)
    (fits : candidates ≤ width) {value : α} :
    value ∈ table.candidateCosts candidates ↔
      ∃ column < candidates, table.cost column = value := by
  simp only [List.mem_iff_getElem?, sized.getElem?_candidateCosts fits,
    Option.ite_none_right_eq_some, Option.some.injEq]

/-- Some candidate improves the objective exactly when its objective entry lies below minus the
tolerance. -/
theorem Sized.canImprove_iff (sized : table.Sized height width) (fits : candidates ≤ width) :
    table.canImprove candidates tolerance = true ↔
      ∃ column < candidates, table.cost column < -tolerance := by
  simp only [canImprove, List.any_eq_true, improving, decide_eq_true_eq,
    sized.mem_candidateCosts fits]
  constructor
  · rintro ⟨-, ⟨column, inside, rfl⟩, below⟩
    exact ⟨column, inside, below⟩
  · rintro ⟨column, inside, below⟩
    exact ⟨_, ⟨column, inside, rfl⟩, below⟩

/-- The column that a rule asks for: the first one that improves the objective by more than
the tolerance, or the first one among the candidates with the least objective entry. -/
def Preferred (table : Table α) (candidates : Nat) (tolerance : α) (column : Nat) :
    PivotRule → Prop
  | .bland => table.cost column < -tolerance ∧
      ∀ earlier < column, ¬ table.cost earlier < -tolerance
  | .dantzig => (∀ other < candidates, table.cost column ≤ table.cost other) ∧
      ∀ earlier < column, table.cost column < table.cost earlier

/-- The entering column is the one that the rule asks for. -/
theorem Sized.preferred_of_entering? [OrderedScalar α] (sized : table.Sized height width)
    (fits : candidates ≤ width)
    (ordered : ∀ cost ∈ table.candidateCosts candidates, ¬ Scalar.Unordered cost)
    (entering : table.entering? candidates rule tolerance = some column) :
    table.Preferred candidates tolerance column rule := by
  have candidate := lt_of_entering? entering
  have listed := sized.getElem?_candidateCosts fits
  cases rule with
  | bland =>
    obtain ⟨inside, improves, first⟩ := List.findIdx?_eq_some_iff_getElem.1 entering
    have cost : ∀ place ≤ column, ∀ present : place < (table.candidateCosts candidates).length,
        (table.candidateCosts candidates)[place] = table.cost place := by
      intro place before present
      have position := listed place
      rwa [List.getElem?_eq_getElem present, if_pos (by omega), Option.some.injEq] at position
    rw [improving, decide_eq_true_eq, cost column le_rfl] at improves
    refine ⟨improves, fun earlier before => ?_⟩
    have above := first earlier before
    rwa [improving, decide_eq_true_eq, cost earlier before.le] at above
  | dantzig =>
    simp only [entering?, Option.ite_none_right_eq_some] at entering
    obtain ⟨value, position, least, first⟩ :=
      Selection.leastIndex?_eq_some ordered entering.2
    rw [listed, if_pos candidate, Option.some.injEq] at position
    subst position
    refine ⟨fun other inside => ?_, fun earlier before => ?_⟩
    · exact least _ ((sized.mem_candidateCosts fits).2 ⟨other, inside, rfl⟩)
    · exact first earlier before _ (by rw [listed, if_pos (before.trans candidate)])

/-- The rows that bound a column are listed in their order. -/
theorem pairwise_ratios (table : Table α) (column : Nat) :
    (table.ratios column).Pairwise fun earlier later => earlier.1 < later.1 := by
  refine List.Pairwise.filterMap _ ?_ List.pairwise_lt_range
  intro earlier later before first firstListed second secondListed
  simp only [Option.ite_none_right_eq_some, Option.some.injEq] at firstListed secondListed
  rwa [← firstListed.2, ← secondListed.2]

/-- The ratios of a column compare with themselves. -/
def OrderedRatios (table : Table α) (column : Nat) : Prop :=
  ∀ row, table.Bounds column row → ¬ Scalar.Unordered (table.ratio column row)

theorem OrderedRatios.ordered (ratios : table.OrderedRatios column) :
    Selection.Ordered (table.ratios column) := by
  rintro ⟨row, value⟩ listed
  obtain ⟨bounds, rfl⟩ := mem_ratios_iff.1 listed
  exact ratios row bounds

variable [BoundedScalar α]

/-- No row leaves exactly when no row bounds the column at a ratio below infinity. -/
theorem OrderedRatios.leaving?_eq_none_iff (ratios : table.OrderedRatios column) :
    table.leaving? column = none ↔
      ∀ row, table.Bounds column row → ¬ Scalar.BelowInfinity (table.ratio column row) := by
  rw [leaving?, Selection.firstLeast?_eq_none_iff_above ratios.ordered]
  constructor
  · exact fun above row bounds => above (row, _) (mem_ratios_iff.2 ⟨bounds, rfl⟩)
  · rintro above ⟨row, value⟩ listed
    obtain ⟨bounds, rfl⟩ := mem_ratios_iff.1 listed
    exact above row bounds

theorem OrderedRatios.boundsFirst_of_leaving? (ratios : table.OrderedRatios column)
    (leaving : table.leaving? column = some row) :
    table.BoundsFirst column row ∧ Scalar.BelowInfinity (table.ratio column row) := by
  obtain ⟨value, below, least⟩ := Selection.isFirstLeast_of_firstLeast? ratios.ordered leaving
  obtain ⟨bounds, rfl⟩ := mem_ratios_iff.1 least.mem
  refine ⟨⟨bounds, fun other otherBounds => ?_, fun earlier before earlierBounds => ?_⟩, below⟩
  · exact least.le ratios.ordered (other, _) (mem_ratios_iff.2 ⟨otherBounds, rfl⟩)
  · have listed := mem_ratios_iff.2 ⟨earlierBounds, rfl⟩
    have sorted := table.pairwise_ratios column
    obtain ⟨front, back, split, smaller, -⟩ := least
    rw [split] at listed sorted
    -- What comes after the chosen row in the list is a later row.
    rcases List.mem_append.1 listed with inFront | inBack
    · exact smaller _ inFront
    · rcases List.mem_cons.1 inBack with same | after
      · exact absurd (Prod.mk.inj same).1 before.ne
      · have later := (List.pairwise_cons.1 (List.pairwise_append.1 sorted).2.1).1 _ after
        exact absurd before later.not_gt

theorem BoundsFirst.not_lt {other : Nat} (first : table.BoundsFirst column row)
    (second : table.BoundsFirst column other) (ratios : table.OrderedRatios column) :
    ¬ row < other := by
  intro before
  have strict := second.first row before first.toBounds
  rw [OrderedScalar.lt_iff_not_le (ratios other second.toBounds)
    (ratios row first.toBounds)] at strict
  exact strict (first.least other second.toBounds)

/-- A row leaves exactly when it is the first one with the least ratio and that ratio lies below
infinity. -/
theorem OrderedRatios.leaving?_eq_some_iff (ratios : table.OrderedRatios column) :
    table.leaving? column = some row ↔
      table.BoundsFirst column row ∧ Scalar.BelowInfinity (table.ratio column row) := by
  refine ⟨ratios.boundsFirst_of_leaving?, fun ⟨bounds, below⟩ => ?_⟩
  cases leaving : table.leaving? column with
  | none => exact absurd below (ratios.leaving?_eq_none_iff.1 leaving row bounds.toBounds)
  | some other =>
    have otherBounds := (ratios.boundsFirst_of_leaving? leaving).1
    have before := bounds.not_lt otherBounds ratios
    have after := otherBounds.not_lt bounds ratios
    exact congrArg some (by omega)

end Scanned

variable {table : Table Rat} {height width candidates column row : Nat} {rule : PivotRule}
  {tolerance : Rat}

/-- In exact arithmetic the entering column is always the one that the rule asks for. -/
theorem Sized.preferred_of_entering?_exact (sized : table.Sized height width)
    (fits : candidates ≤ width)
    (entering : table.entering? candidates rule tolerance = some column) :
    table.Preferred candidates tolerance column rule :=
  sized.preferred_of_entering? fits (fun cost _ => not_unordered cost) entering

/-- No column enters exactly when the objective entries of all candidates reach minus the
tolerance. -/
theorem Sized.entering?_eq_none_iff (sized : table.Sized height width)
    (fits : candidates ≤ width) :
    table.entering? candidates rule tolerance = none ↔
      ∀ column < candidates, -tolerance ≤ table.cost column := by
  rw [← Option.not_isSome_iff_eq_none, isSome_entering?, sized.canImprove_iff fits]
  push Not
  rfl

/-- An entering column is a candidate whose objective entry lies below minus the
tolerance. -/
theorem Sized.cost_of_entering? (sized : table.Sized height width) (fits : candidates ≤ width)
    (entering : table.entering? candidates rule tolerance = some column) :
    column < candidates ∧ table.cost column < -tolerance := by
  refine ⟨lt_of_entering? entering, ?_⟩
  have preferred := sized.preferred_of_entering?_exact fits entering
  cases rule with
  | bland => exact preferred.1
  | dantzig =>
    have improvable := (congrArg Option.isSome entering).symm.trans isSome_entering?
    obtain ⟨other, inside, below⟩ := (sized.canImprove_iff fits).1 improvable.symm
    exact (preferred.1 other inside).trans_lt below

/-- Under Bland's rule every column before the entering one reaches minus the tolerance. -/
theorem Sized.cost_before_entering? (sized : table.Sized height width)
    (fits : candidates ≤ width)
    (entering : table.entering? candidates .bland tolerance = some column) {earlier : Nat}
    (before : earlier < column) : -tolerance ≤ table.cost earlier :=
  not_lt.1 ((sized.preferred_of_entering?_exact fits entering).2 earlier before)

theorem orderedRatios_exact (table : Table Rat) (column : Nat) : table.OrderedRatios column :=
  fun _ _ => not_unordered _

/-- The leaving row has a positive entry, and no other such row has a smaller ratio. -/
theorem ratio_le_of_leaving? (leaving : table.leaving? column = some row) :
    row < table.height ∧ 0 < table.entry row column ∧
      ∀ other < table.height, 0 < table.entry other column →
        table.rhs row / table.entry row column ≤ table.rhs other / table.entry other column := by
  obtain ⟨first, -⟩ := (table.orderedRatios_exact column).boundsFirst_of_leaving? leaving
  exact ⟨first.inside, first.positive,
    fun other inside positive => first.least other ⟨inside, positive⟩⟩

/-- No row leaves exactly when the column has no positive entry in a constraint row. -/
theorem leaving?_eq_none_iff :
    table.leaving? column = none ↔ ∀ row < table.height, table.entry row column ≤ 0 := by
  rw [leaving?, Selection.firstLeast?_eq_none_iff, List.eq_nil_iff_forall_not_mem]
  constructor
  · intro absent row inside
    by_contra positive
    exact absent (row, _) (mem_ratios_iff.2 ⟨⟨inside, not_le.1 positive⟩, rfl⟩)
  · rintro bounded ⟨row, ratio⟩ member
    obtain ⟨bounds, -⟩ := mem_ratios_iff.1 member
    exact absurd bounds.positive (not_lt.2 (bounded row bounds.inside))

end Simplex.Table
