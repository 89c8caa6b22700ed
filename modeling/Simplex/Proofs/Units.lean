import Simplex.Proofs.Simulation
import Simplex.Proofs.Table.Rescaled
import Simplex.Proofs.Transposition

/-!
# Change of units

A program in other units has its constraints, its variables and its objective multiplied by
positive factors. In exact arithmetic Bland's rule without a tolerance makes the same pivots on it,
by either method and whatever the relations and the signs of the right sides are, because every
tableau of the one run is that of the other with its rows and columns rescaled.
-/

namespace Simplex

/-- Positive factors of the constraints, of the variables' coefficients and of the objective. -/
structure Units where
  row : Nat → Rat
  column : Nat → Rat
  objective : Rat
  row_pos : ∀ index, 0 < row index
  column_pos : ∀ index, 0 < column index
  objective_pos : 0 < objective

namespace Units

/-- The units of the transposed program: rows and columns change places, and the factor of the
objective, which was that of the right sides, goes from the columns to the rows. -/
def transposed (units : Units) : Units where
  row index := units.objective * units.column index
  column index := units.row index / units.objective
  objective := units.objective
  row_pos index := mul_pos units.objective_pos (units.column_pos index)
  column_pos index := div_pos (units.row_pos index) units.objective_pos
  objective_pos := units.objective_pos

/-- The weights of the columns of a tableau. The factor of a constraint is undone in its auxiliary
column, and that of the objective in the objective column. -/
def weights (units : Units) (structural auxiliary : Nat) : Weights where
  column index :=
    if index < structural then units.column index
    else if index < structural + auxiliary then (units.row (index - structural))⁻¹
    else if index = structural + auxiliary then units.objective⁻¹
    else 1
  objective := units.objective
  column_pos index := by
    split_ifs
    · exact units.column_pos index
    · exact inv_pos.2 (units.row_pos (index - structural))
    · exact inv_pos.2 units.objective_pos
    · exact one_pos
  objective_pos := units.objective_pos

/-- Right-hand sides have the units of their rows. -/
theorem weights_rhs (units : Units) (structural auxiliary : Nat) :
    (units.weights structural auxiliary).column (structural + auxiliary + 1) = 1 := by
  simp only [weights]
  rw [if_neg (by omega), if_neg (by omega), if_neg (by omega)]

end Units

/-- A list whose values are multiplied by factors, read at a position. -/
theorem getD_mapIdx_mul (factor : Nat → Rat) (values : List Rat) (index : Nat) :
    (values.mapIdx fun index value => factor index * value).getD index 0 =
      factor index * values.getD index 0 := by
  rw [List.getD_eq_getElem?_getD, List.getD_eq_getElem?_getD, List.getElem?_mapIdx]
  cases values[index]? <;> simp

namespace Program

/-- The program in other units. -/
def inUnits (program : Program Rat) (units : Units) : Program Rat :=
  { program with
    objective := program.objective.mapIdx fun column value =>
      units.objective * units.column column * value
    constraints := program.constraints.mapIdx fun row coefficients =>
      coefficients.mapIdx fun column value => units.row row * units.column column * value
    rhs := program.rhs.mapIdx fun row value => units.row row * value }

variable {program : Program Rat} (units : Units)

@[simp] theorem length_objective_inUnits :
    (program.inUnits units).objective.length = program.objective.length := by
  simp [inUnits]

@[simp] theorem length_constraints_inUnits :
    (program.inUnits units).constraints.length = program.constraints.length := by
  simp [inUnits]

theorem Fits.inUnits (fits : program.Fits) : (program.inUnits units).Fits where
  objective := by simpa [Program.inUnits] using fits.objective
  constraints := by simpa [Program.inUnits] using fits.constraints
  names := by simpa [Program.inUnits] using fits.names
  senses := by simpa [Program.inUnits] using fits.senses
  rhs := by simpa [Program.inUnits] using fits.rhs
  rows := by
    intro row member
    obtain ⟨index, inside, rfl⟩ := List.mem_mapIdx.1 member
    simpa [Program.inUnits] using fits.rows _ (List.getElem_mem inside)

/-- The constraint at a position, in other units. -/
theorem getElem?_relations_inUnits {index : Nat} {relation : List Rat × Sense × Rat}
    (listed : program.relations[index]? = some relation) :
    (program.inUnits units).relations[index]? = some
      (relation.1.mapIdx fun column value => units.row index * units.column column * value,
        relation.2.1, units.row index * relation.2.2) := by
  obtain ⟨row, rest⟩ := List.getElem?_zip_eq_some.1 listed
  obtain ⟨sense, rhs⟩ := List.getElem?_zip_eq_some.1 rest
  refine List.getElem?_zip_eq_some.2 ⟨?_, List.getElem?_zip_eq_some.2 ⟨sense, ?_⟩⟩
  · simp [inUnits, row]
  · simp [inUnits, rhs]

/-- A row is rescaled if its entries of every kind are: the coefficients, those of the auxiliary
variables and of the objective, and the right-hand side. -/
theorem Fits.rowScaled (fits : program.Fits) {factor : Rat} {row : Nat}
    (structural : ∀ column < program.objective.length,
      (program.inUnits units).primalTableau.table.entry row column =
        factor * units.column column * program.primalTableau.table.entry row column)
    (auxiliary : ∀ slack < program.constraints.length,
      (program.inUnits units).primalTableau.table.entry row (program.objective.length + slack) =
        factor * (units.row slack)⁻¹ *
          program.primalTableau.table.entry row (program.objective.length + slack))
    (objective : (program.inUnits units).primalTableau.table.entry row
        (program.objective.length + program.constraints.length) =
      factor * units.objective⁻¹ * program.primalTableau.table.entry row
        (program.objective.length + program.constraints.length))
    (rhs : (program.inUnits units).primalTableau.table.entry row
        (program.objective.length + program.constraints.length + 1) =
      factor * program.primalTableau.table.entry row
        (program.objective.length + program.constraints.length + 1)) :
    Table.RowScaled (units.weights program.objective.length program.constraints.length) factor
      program.primalTableau.table (program.inUnits units).primalTableau.table row := by
  have sized := fits.sized_primalTableau
  have otherSized := (fits.inUnits units).sized_primalTableau
  simp only [length_objective_inUnits, length_constraints_inUnits] at otherSized
  intro column
  simp only [Units.weights]
  split_ifs with front middle last
  · exact structural column front
  · obtain ⟨slack, rfl⟩ := Nat.exists_eq_add_of_le (not_lt.1 front)
    rw [Nat.add_sub_cancel_left]
    exact auxiliary slack (by omega)
  · rw [last]
    exact objective
  · rw [mul_one]
    rcases (by omega : program.objective.length + program.constraints.length + 1 ≤ column).eq_or_lt
      with rfl | beyond
    · exact rhs
    · rw [sized.entry_of_width_le row beyond, otherSized.entry_of_width_le row beyond, mul_zero]

/-- The initial tableau of the program in other units is rescaled. -/
theorem Fits.rescaled_primalTableau (fits : program.Fits) :
    Table.Rescaled (units.weights program.objective.length program.constraints.length)
      program.constraints.length (program.objective.length + program.constraints.length + 2)
      program.primalTableau.table (program.inUnits units).primalTableau.table where
  sized := fits.sized_primalTableau
  otherSized := by
    have sized := (fits.inUnits units).sized_primalTableau
    rwa [length_objective_inUnits, length_constraints_inUnits] at sized
  rows := by
    intro row inside
    obtain ⟨relation, listed⟩ := fits.exists_relation inside
    have otherListed := getElem?_relations_inUnits units listed
    obtain ⟨auxiliary, objective, rhs⟩ := fits.entry_primalTableau listed
    obtain ⟨otherAuxiliary, otherObjective, otherRhs⟩ :=
      (fits.inUnits units).entry_primalTableau otherListed
    rw [length_objective_inUnits, length_constraints_inUnits] at otherObjective otherRhs
    rw [length_objective_inUnits, length_constraints_inUnits] at otherAuxiliary
    refine ⟨units.row row, units.row_pos row, fits.rowScaled units ?_ ?_ ?_ ?_⟩
    · intro column front
      rw [fits.entry_primalTableau_structural listed front,
        (fits.inUnits units).entry_primalTableau_structural otherListed (by simpa using front)]
      exact getD_mapIdx_mul (fun column => units.row row * units.column column) relation.1 column
    · intro slack bound
      rw [auxiliary slack bound, otherAuxiliary slack bound]
      split_ifs with same
      · rw [same, mul_inv_cancel₀ (units.row_pos row).ne', one_mul]
      · rw [mul_zero]
    · rw [objective, otherObjective, mul_zero]
    · rw [rhs, otherRhs]
  objective := by
    obtain ⟨auxiliary, objective⟩ := fits.cost_primalTableau
    obtain ⟨structural, rhs⟩ := fits.cost_primalTableau_structural
    obtain ⟨otherAuxiliary, otherObjective⟩ := (fits.inUnits units).cost_primalTableau
    obtain ⟨otherStructural, otherRhs⟩ := (fits.inUnits units).cost_primalTableau_structural
    simp only [length_objective_inUnits, length_constraints_inUnits] at otherAuxiliary otherRhs
    simp only [length_objective_inUnits, length_constraints_inUnits] at otherObjective
    simp only [length_objective_inUnits, length_constraints_inUnits] at otherStructural
    refine fits.rowScaled units ?_ ?_ ?_ ?_
    · intro column front
      rw [structural column front, otherStructural column front]
      have scaled : (program.inUnits units).objective.getD column 0 =
          units.objective * units.column column * program.objective.getD column 0 :=
        getD_mapIdx_mul (fun column => units.objective * units.column column) _ column
      have goal : (program.inUnits units).goal = program.goal := rfl
      rw [scaled, goal]
      exact mul_left_comm _ _ _
    · intro slack bound
      rw [auxiliary slack bound, otherAuxiliary slack bound, mul_zero]
    · rw [objective, otherObjective, mul_one]
      exact (mul_inv_cancel₀ units.objective_pos.ne').symm
    · rw [rhs, otherRhs, mul_zero]

/-- The coefficients of a variable, in other units. -/
theorem coefficientColumn_inUnits (program : Program Rat) (index : Nat) :
    (program.inUnits units).coefficientColumn index =
      (program.coefficientColumn index).mapIdx fun row value =>
        units.row row * units.column index * value := by
  apply List.ext_getElem?
  intro row
  simp only [coefficientColumn, inUnits, List.getElem?_map, List.getElem?_mapIdx, Option.map_map]
  refine congrArg (Option.map · program.constraints[row]?) (funext fun coefficients => ?_)
  exact getD_mapIdx_mul (fun column => units.row row * units.column column) coefficients index

/-- Transposing a program transposes its units. -/
theorem transposed_inUnits (program : Program Rat) :
    (program.inUnits units).transposed = program.transposed.inUnits units.transposed := by
  have cancels : ∀ factor : Rat, units.objective * (factor / units.objective) = factor :=
    fun factor => mul_div_cancel₀ factor units.objective_pos.ne'
  have factor : ∀ row column, units.transposed.row row * units.transposed.column column =
      units.row column * units.column row := by
    intro row column
    calc units.objective * units.column row * (units.row column / units.objective) =
          units.objective * (units.row column / units.objective) * units.column row := by ring
      _ = units.row column * units.column row := by rw [cancels]
  have objective : (program.inUnits units).rhs =
      program.rhs.mapIdx fun column value =>
        units.transposed.objective * units.transposed.column column * value := by
    simp only [inUnits, Units.transposed, cancels]
  have constraints : (List.range program.objective.length).map
        (program.inUnits units).coefficientColumn =
      ((List.range program.objective.length).map program.coefficientColumn).mapIdx
        fun row coefficients => coefficients.mapIdx fun column value =>
          units.transposed.row row * units.transposed.column column * value := by
    apply List.ext_getElem?
    intro row
    simp only [List.getElem?_map, List.getElem?_mapIdx, Option.map_map]
    by_cases inside : row < program.objective.length
    · rw [List.getElem?_range inside]
      refine congrArg some ((coefficientColumn_inUnits units program row).trans ?_)
      refine congrArg (List.mapIdx · _) (funext₂ fun column value => ?_)
      rw [factor]
    · rw [List.getElem?_eq_none (by simpa using inside)]
      rfl
  simp only [transposed, length_objective_inUnits, objective, constraints]
  rfl

/-- A method starts on the program in other units from the same names and a rescaled table, with
right-hand sides in the units of their rows. -/
theorem Fits.rescaled_start (fits : program.Fits) (method : Method) :
    (program.inUnits units).start method =
        { program.start method with table := ((program.inUnits units).start method).table } ∧
      ∃ weights : Weights, weights.objective = units.objective ∧
        weights.column (program.candidates + 1) = 1 ∧
        Table.Rescaled weights (program.height method) (program.candidates + 2)
          (program.start method).table ((program.inUnits units).start method).table := by
  cases method with
  | primal =>
    refine ⟨?_, _, rfl, units.weights_rhs _ _, fits.rescaled_primalTableau units⟩
    simp only [start, primalTableau, variableNames, length_objective_inUnits,
      length_constraints_inUnits]
    rfl
  | dual =>
    have rescaled := fits.transposed.rescaled_primalTableau units.transposed
    have size : program.transposed.objective.length + program.transposed.constraints.length =
        program.candidates := by
      rw [fits.length_objective_transposed, length_constraints_transposed]
      exact add_comm _ _
    have rhs := units.transposed.weights_rhs program.transposed.objective.length
      program.transposed.constraints.length
    rw [size] at rhs
    rw [← transposed_inUnits, ← table_dualTableau_exact, ← table_dualTableau_exact, size]
      at rescaled
    refine ⟨?_, _, rfl, rhs, ?_⟩
    · simp only [start, dualTableau, length_objective_inUnits, length_constraints_inUnits]
    · exact length_constraints_transposed program ▸ rescaled

end Program

namespace Tableau

/-- The other tableau has the same names and a rescaled table. -/
structure Rescaled (weights : Weights) (height width : Nat) (tableau other : Tableau Rat) :
    Prop where
  names : other = { tableau with table := other.table }
  tables : Table.Rescaled weights height width tableau.table other.table
  fits : tableau.candidates ≤ width

namespace Rescaled

variable {weights : Weights} {height width row column : Nat} {tableau other : Tableau Rat}
  {options : Options Rat}

theorem pivotInfo?_eq (rescaled : Rescaled weights height width tableau other) :
    other.pivotInfo? row column = tableau.pivotInfo? row column := by
  rw [rescaled.names]
  rfl

/-- A pivot leads to tableaux that are rescaled alike. -/
theorem exchange (rescaled : Rescaled weights height width tableau other) (inside : row < height)
    (column : Nat) (entering : String) :
    Rescaled weights height width (tableau.exchange row column entering)
      (other.exchange row column entering) where
  names := by
    rw [Tableau.exchange, rescaled.names]
    rfl
  tables := rescaled.tables.pivot inside column
  fits := rescaled.fits

/-- The objective value has the units of the objective. -/
theorem objectiveValue_eq (rescaled : Rescaled weights height (width + 1) tableau other)
    (unit : weights.column width = 1) :
    other.objectiveValue = weights.objective * tableau.objectiveValue := by
  have scaled := rescaled.tables.objective width
  rw [unit, mul_one] at scaled
  simpa only [objectiveValue, Table.rhs, rescaled.tables.sized.rhsColumn_eq,
    rescaled.tables.otherSized.rhsColumn_eq, rescaled.tables.sized.height_eq,
    rescaled.tables.otherSized.height_eq] using scaled

/-- Under Bland's rule without a tolerance rescaled tableaux choose the same pivots. -/
theorem simulation (weights : Weights) (height width : Nat) (bland : options.rule = .bland)
    (exact : options.tolerance = 0) :
    Simulation options (Rescaled weights height width) Eq where
  entering := by
    intro tableau other rescaled
    have candidates : other.candidates = tableau.candidates := by
      rw [rescaled.names]
      rfl
    rw [entering?, entering?, bland, exact, candidates,
      rescaled.tables.entering?_eq rescaled.fits]
  leaving rescaled _ := rescaled.tables.leaving?_eq _
  described := by
    intro tableau other row column rescaled _ _
    rw [rescaled.pivotInfo?_eq]
    cases tableau.pivotInfo? row column with
    | none => exact .none
    | some info => exact .some rfl
  exchange := by
    intro tableau other row column info otherInfo rescaled _ leaving described otherDescribed
    rw [rescaled.pivotInfo?_eq, described] at otherDescribed
    obtain rfl := Option.some.inj otherDescribed
    have inside := (Table.pos_of_leaving? leaving).1
    rw [rescaled.tables.sized.height_eq] at inside
    exact rescaled.exchange inside column info.entering

end Rescaled

end Tableau

namespace Program

/-- A change of units does not change a run of Bland's rule without a tolerance, by either method.
The program in other units passes the check, its run makes the same pivots and ends alike, and a
final tableau shows the optimal value in the units of the objective. -/
theorem solve_inUnits (program : Program Rat) (units : Units) (method : Method)
    (options : Options Rat) (checked : program.check = .ok ()) (bland : options.rule = .bland)
    (exact : options.tolerance = 0) :
    let rescaled := program.inUnits units
    let run := (program.start method).run options
    let rescaledRun := (rescaled.start method).run options
    rescaled.check = .ok () ∧
    rescaledRun.steps.map Step.pivot = run.steps.map Step.pivot ∧
    EndAlike (fun final rescaledFinal =>
        (rescaledFinal.reading method rescaled.goal).optimalValue =
          units.objective * (final.reading method program.goal).optimalValue)
      run.outcome rescaledRun.outcome ∧
    EndAlike (fun report rescaledReport =>
        rescaledReport.steps.map Step.pivot = report.steps.map Step.pivot ∧
          rescaledReport.columns = report.columns ∧ rescaledReport.iterations = report.iterations)
      (program.solve method options) (rescaled.solve method options) := by
  intro rescaled run rescaledRun
  have fits := (check_eq_ok_iff program).1 checked
  have rescaledChecked := (check_eq_ok_iff rescaled).2 (fits.inUnits units)
  obtain ⟨names, weights, objective, unit, tables⟩ := fits.rescaled_start units method
  have candidates := fits.candidates_start method
  have started : Tableau.Rescaled weights (program.height method) (program.candidates + 2)
      (program.start method) (rescaled.start method) := ⟨names, tables, by omega⟩
  have matched := (Tableau.Rescaled.simulation weights _ _ bland exact).run started
  have pivots := matched.map_pivot_eq
  refine ⟨rescaledChecked, pivots, matched.outcome.imp fun final other related => ?_,
    endAlike_solve method method checked rescaledChecked matched.outcome fun _ => ⟨pivots, ?_, ?_⟩⟩
  · have value := related.objectiveValue_eq unit
    rw [objective] at value
    cases method with
    | dual => exact value
    | primal =>
      have goal : rescaled.goal = program.goal := rfl
      simp only [Tableau.reading, Tableau.primalReading, goal]
      cases program.goal with
      | maximize => exact value
      | minimize => rw [value, mul_neg]
  · rw [names]
    rfl
  · have lengths := congrArg List.length pivots
    rw [List.length_map, List.length_map] at lengths
    exact congrArg (· - 1) lengths

/-- Units in which one constraint counts in thousandths and the others in minutes, the first
variable comes in dozens and the objective in hundredths. -/
def fineUnits : Units where
  row index := if index = 0 then 1000 else 1 / 60
  column index := if index = 0 then 12 else 1
  objective := 100
  row_pos index := by split_ifs <;> norm_num
  column_pos index := by split_ifs <;> norm_num
  objective_pos := by norm_num

/-- In the units `fineUnits` the run of `mixedRelations` makes the same three pivots and ends with
a hundred times the optimal value. -/
theorem solve_inUnits_mixedRelations :
    let options : Options Rat := ⟨10, 0, .bland⟩
    let run := ((mixedRelations.inUnits fineUnits).start .primal).run options
    mixedRelations.check = .ok () ∧
      run.steps.map (Option.map (fun info => (info.row, info.column)) ∘ Step.pivot) =
        [none, some (2, 0), some (1, 1), some (0, 3)] ∧
      ∃ final, run.outcome = .ok final ∧ (final.reading .primal .maximize).optimalValue = 1000 := by
  intro options run
  have checked : mixedRelations.check = .ok () := by decide
  have pivots : (((mixedRelations.start .primal).run options).steps.map Step.pivot).map
      (Option.map fun info => (info.row, info.column)) =
        [none, some (2, 0), some (1, 1), some (0, 3)] := by
    decide +kernel
  have value : ((mixedRelations.start .primal).run options).outcome.toOption.map
      (fun final => (final.reading .primal .maximize).optimalValue) = some 10 := by
    decide +kernel
  obtain ⟨-, steps, ends, -⟩ :=
    solve_inUnits mixedRelations fineUnits .primal options checked rfl rfl
  refine ⟨checked, ?_, ?_⟩
  · rw [← List.map_map]
    exact (congrArg _ steps).trans pivots
  · change EndAlike _ _ run.outcome at ends
    generalize ((mixedRelations.start .primal).run options).outcome = outcome at ends value
    generalize run.outcome = other at ends ⊢
    cases ends with
    | failed failure => cases value
    | @returned final otherFinal scaled =>
      have original : (final.reading .primal .maximize).optimalValue = 10 := Option.some.inj value
      refine ⟨otherFinal, rfl, scaled.trans ?_⟩
      change 100 * (final.reading .primal .maximize).optimalValue = 1000
      rw [original]
      norm_num

end Program

end Simplex
