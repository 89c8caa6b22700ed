import Simplex.Proofs.BoundedSum
import Simplex.Proofs.Initial
import Simplex.Proofs.Table.RatioTest
import Simplex.Proofs.Text.Problem
import Simplex.Solve

/-!
# Programs of finite doubles

The right sides of a program that is read are finite, because they are tested. Its coefficients are
sums that are not tested. A sum of doubles that has once overflowed does not become finite again, so
the coefficients are finite exactly when no running sum of them overflows, and then so are the
entries of both initial tableaux: `readProblem_finite`. Numbers of at most `2 ^ 971`, about
`2 * 10 ^ 292`, cannot overflow in any text that is shorter than `2 ^ 53`.
-/

namespace Simplex

section Tableaux

variable {program : Program Float}

/-- All coefficients and right sides of the program are finite. -/
structure Program.Finite (program : Program Float) : Prop where
  objective : ∀ value ∈ program.objective, Scalar.Finite value
  constraints : ∀ row ∈ program.constraints, ∀ value ∈ row, Scalar.Finite value
  rhs : ∀ bound ∈ program.rhs, Scalar.Finite bound

theorem finite_zero : Scalar.Finite (0 : Float) := by decide +kernel

theorem finite_one : Scalar.Finite (1 : Float) := by decide +kernel

/-- A row of a tableau is finite when what it has of the program is. -/
theorem finite_row_iff {front : List Float} {count position : Nat} {value last : Float}
    (finite : Scalar.Finite value) :
    (∀ entry ∈ front ++ unitRow count position value ++ [0, last], Scalar.Finite entry) ↔
      (∀ entry ∈ front, Scalar.Finite entry) ∧ Scalar.Finite last := by
  have unit : ∀ entry ∈ unitRow count position value, Scalar.Finite entry := by
    refine List.forall_mem_map.2 fun index _ => ?_
    split_ifs
    · exact finite
    · exact finite_zero
  simp only [List.forall_mem_append, List.forall_mem_cons]
  constructor
  · rintro ⟨⟨entries, -⟩, -, bound, -⟩
    exact ⟨entries, bound⟩
  · rintro ⟨entries, bound⟩
    exact ⟨⟨entries, unit⟩, finite_zero, bound, by simp⟩

theorem finite_lastRow_iff {front : List Float} {count : Nat} :
    (∀ entry ∈ front ++ List.replicate count 0 ++ [1, 0], Scalar.Finite entry) ↔
      ∀ entry ∈ front, Scalar.Finite entry := by
  simp [or_imp, forall_and, finite_zero, finite_one]

namespace Program

theorem finite_auxiliarySign (sense : Sense) : Scalar.Finite (auxiliarySign sense : Float) := by
  cases sense <;> decide +kernel

/-- The sign of the goal keeps a coefficient finite or not finite. -/
theorem finite_goalSign_mul_iff (goal : Goal) (value : Float) :
    Scalar.Finite (goalSign goal * value) ↔ Scalar.Finite value := by
  cases goal with
  | maximize => rw [goalSign, Double.neg_one_mul, Double.finite_neg_iff]
  | minimize => rw [goalSign, Double.one_mul]

theorem forall_mem_mapIdx {α β : Type} {f : Nat → α → β} {values : List α} {holds : β → Prop} :
    (∀ output ∈ values.mapIdx f, holds output) ↔
      ∀ index (inside : index < values.length), holds (f index values[index]) := by
  simp only [List.mem_mapIdx]
  constructor
  · exact fun all index inside => all _ ⟨index, inside, rfl⟩
  · rintro all _ ⟨index, inside, rfl⟩
    exact all index inside

theorem Fits.map_relations {α : Type} {program : Program α} (fits : program.Fits) :
    program.relations.map Prod.fst = program.constraints ∧
      program.relations.map (·.2.2) = program.rhs := by
  have inner : (program.senses.zip program.rhs).length = program.constraints.length := by
    simp [fits.senses, fits.rhs]
  refine ⟨List.map_fst_zip inner.ge, ?_⟩
  have bounds : (program.senses.zip program.rhs).map Prod.snd = program.rhs :=
    List.map_snd_zip (by rw [fits.senses, fits.rhs])
  have pairs : program.relations.map Prod.snd = program.senses.zip program.rhs :=
    List.map_snd_zip inner.le
  rwa [← pairs, List.map_map] at bounds

/-- A program is finite when its constraints, with their right sides, and its objective are. -/
theorem Fits.finite_iff (fits : program.Fits) :
    program.Finite ↔ (∀ relation ∈ program.relations,
      (∀ value ∈ relation.1, Scalar.Finite value) ∧ Scalar.Finite relation.2.2) ∧
        ∀ value ∈ program.objective, Scalar.Finite value := by
  obtain ⟨rows, bounds⟩ := fits.map_relations
  constructor
  · rintro ⟨objective, constraints, rhs⟩
    refine ⟨fun relation listed => ?_, objective⟩
    obtain ⟨row, -, bound⟩ := mem_of_mem_relations listed
    exact ⟨constraints _ row, rhs _ bound⟩
  · rintro ⟨finite, objective⟩
    refine ⟨objective, ?_, ?_⟩
    · rw [← rows]
      exact List.forall_mem_map.2 fun relation listed => (finite relation listed).1
    · rw [← bounds]
      exact List.forall_mem_map.2 fun relation listed => (finite relation listed).2

/-- The primal tableau is finite when the program is. -/
theorem Fits.finite_primalTableau_iff (fits : program.Fits) :
    program.primalTableau.table.Finite ↔ program.Finite := by
  rw [Table.Finite, rows_primalTableau, List.forall_mem_append, List.forall_mem_singleton,
    finite_lastRow_iff, List.forall_mem_map, forall_mem_mapIdx]
  simp only [constraintRow, finite_row_iff (finite_auxiliarySign _), finite_goalSign_mul_iff]
  exact (fits.finite_iff.trans (and_congr_left' List.forall_mem_iff_getElem)).symm

/-- The columns of the constraints are finite when their rows are. -/
theorem Fits.finite_columns_iff (fits : program.Fits) :
    (∀ index < program.objective.length,
      ∀ value ∈ program.coefficientColumn index, Scalar.Finite value) ↔
        ∀ row ∈ program.constraints, ∀ value ∈ row, Scalar.Finite value := by
  simp only [coefficientColumn, List.forall_mem_map]
  constructor
  · intro columns row listed value member
    obtain ⟨index, inside, rfl⟩ := List.getElem_of_mem member
    have entry := columns index (by rwa [← fits.rows row listed]) row listed
    rwa [List.getD_eq_getElem _ _ inside] at entry
  · intro rows index inside row listed
    rw [← fits.rows row listed] at inside
    rw [List.getD_eq_getElem _ _ inside]
    exact rows row listed _ (List.getElem_mem inside)

/-- The dual tableau is finite when the program is. -/
theorem Fits.finite_dualTableau_iff (fits : program.Fits) :
    program.dualTableau.table.Finite ↔ program.Finite := by
  rw [Table.Finite, dualTableau, List.forall_mem_append, List.forall_mem_singleton,
    finite_lastRow_iff, List.forall_mem_map, forall_mem_mapIdx]
  simp only [finite_row_iff finite_one, Double.finite_neg_iff, forall₂_and,
    fits.finite_columns_iff, ← List.forall_mem_iff_getElem]
  exact ⟨fun ⟨⟨constraints, objective⟩, rhs⟩ => ⟨objective, constraints, rhs⟩,
    fun ⟨objective, constraints, rhs⟩ => ⟨⟨constraints, objective⟩, rhs⟩⟩

/-- Whatever a program is solved by, it starts from finite entries when it is finite. -/
theorem Fits.finite_tableau_iff (fits : program.Fits) (method : Method) :
    ∃ tableau, program.tableau method = .ok tableau ∧
      (tableau.table.Finite ↔ program.Finite) := by
  have checked := program.check_eq_ok_iff.2 fits
  cases method with
  | primal => exact ⟨_, by simp [tableau, checked], fits.finite_primalTableau_iff⟩
  | dual => exact ⟨_, by simp [tableau, checked], fits.finite_dualTableau_iff⟩

end Program

end Tableaux

namespace Text

section Sums

variable {taken written : List Term} {name : String}

/-- The sum of the coefficients that some of the terms of an expression give to a variable, from the
left. -/
def runningSum (taken : List Term) (name : String) : Float :=
  taken.foldl (fun sum term => if term.name = name then sum + term.coefficient else sum) 0

theorem coefficientOf_eq_runningSum (expression name : String) :
    coefficientOf expression name = runningSum (terms expression) name :=
  rfl

theorem runningSum_concat (taken : List Term) (term : Term) (name : String) :
    runningSum (taken ++ [term]) name =
      if term.name = name then runningSum taken name + term.coefficient
      else runningSum taken name := by
  rw [runningSum, List.foldl_append]
  rfl

/-- A sum that overflows stays so. -/
theorem finite_runningSum_of_prefix (early : taken <+: written)
    (finite : Scalar.Finite (runningSum written name)) :
    Scalar.Finite (runningSum taken name) := by
  obtain ⟨rest, rfl⟩ := early
  induction rest using List.reverseRecOn with
  | nil => rwa [List.append_nil] at finite
  | append_singleton rest term ih =>
    rw [← List.append_assoc, runningSum_concat] at finite
    refine ih ?_
    split_ifs at finite
    · exact (Double.finite_of_add finite).1
    · exact finite

/-- The numbers of the term are at most `2 ^ 971`. -/
def Term.Moderate (term : Term) : Prop :=
  ∀ literal ∈ term.literal, |literal.toRat| ≤ 2 ^ 971

theorem Term.Moderate.within {term : Term} (moderate : term.Moderate) :
    Double.Within 1 (term.coefficient : Float) := by
  obtain ⟨negative, literal, name⟩ := term
  have magnitude : Double.Within 1 (Term.coefficient ⟨false, literal, name⟩ : Float) := by
    cases literal with
    | none => exact Double.within_one
    | some literal => exact Double.within_toFloat (moderate literal rfl)
  cases negative with
  | false => exact magnitude
  | true => exact magnitude.neg

/-- A sum of few moderate numbers does not overflow. -/
theorem within_runningSum (moderate : ∀ term ∈ taken, term.Moderate)
    (few : taken.length < 2 ^ 53) (name : String) :
    Double.Within taken.length (runningSum taken name) := by
  induction taken using List.reverseRecOn with
  | nil => exact Double.within_zero
  | append_singleton taken term ih =>
    rw [List.length_append, List.length_singleton] at few ⊢
    have sum := ih (fun other listed => moderate other (List.mem_append_left _ listed)) (by omega)
    rw [runningSum_concat]
    split_ifs
    · exact sum.add (moderate term (by simp)).within few
    · exact sum.mono (Nat.le_succ _)

end Sums

section Reading

variable {objective : Option String} {constraints : List (Option String)} {goal : Option Goal}
  {program : Program Float} {written : String} {relations : List (Constraint Float)}

/-- No running sum of the coefficients of a variable in the text overflows. -/
def SumsFinite (names : List String) (expression : String) : Prop :=
  ∀ name ∈ names, ∀ taken, taken <+: terms expression → Scalar.Finite (runningSum taken name)

/-- An expression is laid out as finite coefficients exactly if none of its sums overflows. -/
theorem finite_layOut_iff (names : List String) (expression : String) :
    (∀ value ∈ layOut names expression, Scalar.Finite (value : Float)) ↔
      SumsFinite names expression := by
  rw [layOut, List.forall_mem_map]
  refine forall₂_congr fun name _ => ?_
  rw [coefficientOf_eq_runningSum]
  exact ⟨fun finite taken early => finite_runningSum_of_prefix early finite,
    fun sums => sums _ (List.prefix_refl _)⟩

/-- An expression of fewer than `2 ^ 53` terms whose numbers are at most `2 ^ 971`. -/
structure Moderate (expression : String) : Prop where
  few : (terms expression).length < 2 ^ 53
  terms : ∀ term ∈ terms expression, term.Moderate

theorem Moderate.sumsFinite {expression : String} (moderate : Moderate expression)
    (names : List String) : SumsFinite names expression := by
  intro name _ taken early
  refine finite_runningSum_of_prefix early ?_
  exact (within_runningSum moderate.terms moderate.few name).finite

/-- A program that is laid out has finite coefficients exactly if no sum overflows. -/
theorem LaidOut.finite_iff (laid : LaidOut written relations program)
    (bounded : ∀ bound ∈ program.rhs, Scalar.Finite bound) :
    program.Finite ↔ ∀ expression ∈ written :: relations.map Constraint.expression,
      SumsFinite program.names expression := by
  have rows : (∀ row ∈ program.constraints, ∀ value ∈ row, Scalar.Finite value) ↔
      ∀ relation ∈ relations, SumsFinite program.names relation.expression := by
    rw [laid.constraints, List.forall_mem_map]
    exact forall₂_congr fun relation _ => finite_layOut_iff _ _
  rw [List.forall_mem_cons, List.forall_mem_map, ← rows, ← finite_layOut_iff, ← laid.objective]
  exact ⟨fun finite => ⟨finite.objective, finite.constraints⟩,
    fun ⟨objective, constraints⟩ => ⟨objective, constraints, bounded⟩⟩

/-- The right sides of constraints that are read are finite. -/
theorem finite_rhs {texts : List String} (accepted : texts.mapM readConstraint = .ok relations) :
    ∀ bound ∈ relations.map Constraint.rhs, Scalar.Finite bound := by
  refine List.forall_mem_map.2 fun relation listed => ?_
  obtain ⟨text, -, read⟩ := exists_input accepted listed
  obtain ⟨_, _, -, bound, -⟩ := readConstraint_eq_ok_iff.1 read
  obtain ⟨_, -, finite, -⟩ := readFinite?_eq_some_iff.1 bound
  exact finite

/-- A program that is read has finite right sides, but its coefficients are finite only as long as
no running sum of the numbers in front of a variable overflows. Its two initial tableaux, which it
always has, are finite exactly if the program is. No sum overflows in expressions of fewer than
`2 ^ 53` terms whose numbers are at most `2 ^ 971`. -/
theorem readProblem_finite (read : readProblem objective constraints goal = .ok program) :
    (∀ bound ∈ program.rhs, Scalar.Finite bound) ∧
    (∀ method, ∃ tableau, program.tableau method = .ok tableau ∧
      (tableau.table.Finite ↔ program.Finite)) ∧
    ∃ relations : List (Constraint Float),
      (presentConstraints constraints).mapM readConstraint = .ok relations ∧
      (program.Finite ↔
        ∀ expression ∈ objective.getD "" :: relations.map Constraint.expression,
          SumsFinite program.names expression) ∧
      ((∀ expression ∈ objective.getD "" :: relations.map Constraint.expression,
        Moderate expression) → program.Finite) := by
  obtain ⟨relations, -, accepted, laid⟩ := LaidOut.of_readProblem read
  have bounded : ∀ bound ∈ program.rhs, Scalar.Finite bound := laid.rhs ▸ finite_rhs accepted
  have fits := program.check_eq_ok_iff.1 (check_of_readProblem read)
  have sums := laid.finite_iff bounded
  exact ⟨bounded, fits.finite_tableau_iff, relations, accepted, sums, fun moderate =>
    sums.2 fun expression listed => (moderate expression listed).sumsFinite _⟩

/-- What is read of numbers that are far from overflowing. -/
def fewUnits : Program Float where
  objective := [3, 5]
  constraints := [[1, 0], [0, 2]]
  senses := [.atMost, .atMost]
  rhs := [4, 12]
  goal := .maximize
  names := ["x1", "x2"]

theorem readProblem_finite_fewUnits :
    readProblem (some "3x1 + 5x2") [some "x1 <= 4", some "2x2 <= 12"] (some .maximize) =
        .ok fewUnits ∧
      (∀ bound ∈ fewUnits.rhs, Scalar.Finite bound) ∧ fewUnits.Finite ∧
      ∀ method, ∃ tableau, fewUnits.tableau method = .ok tableau ∧ tableau.table.Finite := by
  have read : readProblem (some "3x1 + 5x2") [some "x1 <= 4", some "2x2 <= 12"]
      (some .maximize) = .ok fewUnits := by
    decide +kernel
  obtain ⟨bounded, tableaux, relations, accepted, -, small⟩ := readProblem_finite read
  have listed : relations = [⟨"x1", .atMost, 4⟩, ⟨"2x2", .atMost, 12⟩] := by
    have again : (presentConstraints [some "x1 <= 4", some "2x2 <= 12"]).mapM readConstraint =
        .ok [(⟨"x1", .atMost, 4⟩ : Constraint Float), ⟨"2x2", .atMost, 12⟩] := by
      decide +kernel
    exact Except.ok.inj (accepted.symm.trans again)
  have moderate : ∀ expression ∈ ["3x1 + 5x2", "x1", "2x2"], (terms expression).length < 2 ^ 53 ∧
      ∀ term ∈ terms expression, ∀ literal ∈ term.literal, |literal.toRat| ≤ 2 ^ 971 := by
    decide +kernel
  have finite : fewUnits.Finite := small fun expression member => by
    obtain ⟨few, literals⟩ := moderate expression (by simpa [listed] using member)
    exact ⟨few, literals⟩
  refine ⟨read, bounded, finite, fun method => ?_⟩
  obtain ⟨tableau, started, entries⟩ := tableaux method
  exact ⟨tableau, started, entries.2 finite⟩

/-- A coefficient of 310 digits and its variable. -/
def manyNines : List Char := List.replicate 310 '9' ++ ['x', '1']

/-- A constraint with a coefficient that overflows. -/
def largeConstraint : String := String.ofList (manyNines ++ [' ', '<', '=', ' ', '1'])

/-- What is read of a coefficient that overflows. -/
def overflown : Program Float where
  objective := [1]
  constraints := [[Double.ofMagnitudeBits false Double.infinityBits]]
  senses := [.atMost]
  rhs := [1]
  goal := .maximize
  names := ["x1"]

theorem presentConstraints_largeConstraint :
    presentConstraints [some largeConstraint] = [largeConstraint] := by
  have chars : trim (manyNines ++ [' ', '<', '=', ' ', '1']) =
      manyNines ++ [' ', '<', '=', ' ', '1'] := by
    decide +kernel
  have same : trimmed (some largeConstraint) = largeConstraint := by
    rw [trimmed, Option.getD_some, largeConstraint, String.toList_ofList, chars]
  have nonempty : largeConstraint ≠ "" := by
    rw [largeConstraint, Ne, String.ofList_eq_empty_iff]
    exact List.append_ne_nil_of_right_ne_nil _ (by decide)
  simp [presentConstraints, same, nonempty]

theorem readConstraint_largeConstraint : readConstraint largeConstraint =
    .ok (⟨String.ofList manyNines, .atMost, 1⟩ : Constraint Float) := by
  have parted : splitRelation? largeConstraint.toList =
      some (manyNines ++ [' '], .atMost, [' ', '1']) := by
    rw [largeConstraint, String.toList_ofList]
    decide +kernel
  have left : String.ofList manyNines = String.ofList (trim (manyNines ++ [' '])) := by
    rw [String.ofList_inj]
    decide +kernel
  exact readConstraint_eq_ok_iff.2 ⟨_, _, parted, by decide +kernel, left⟩

theorem variablesOf_largeConstraint :
    variablesOf [trimmed (some "x1"), largeConstraint] = .ok ["x1"] := by
  have late : identifiers largeConstraint = ["x1"] := by
    rw [identifiers, largeConstraint, String.toList_ofList]
    decide +kernel
  rw [variablesOf, List.flatMap_cons, List.flatMap_cons, late]
  decide +kernel

theorem coefficientOf_manyNines : coefficientOf (String.ofList manyNines) "x1" =
    Double.ofMagnitudeBits false Double.infinityBits := by
  rw [coefficientOf, terms, String.toList_ofList]
  decide +kernel

/-- A coefficient that overflows is read as infinity, and so it stands in the tableaux. -/
theorem readProblem_infinite :
    readProblem (some "x1") [some largeConstraint] (some .maximize) = .ok overflown ∧
      ¬ overflown.Finite ∧ ¬ overflown.primalTableau.table.Finite ∧
      ¬ overflown.dualTableau.table.Finite := by
  have accepted : (presentConstraints [some largeConstraint]).mapM readConstraint =
      .ok [(⟨String.ofList manyNines, .atMost, 1⟩ : Constraint Float)] := by
    rw [presentConstraints_largeConstraint, List.mapM_cons, readConstraint_largeConstraint]
    rfl
  have first : coefficientOf (trimmed (some "x1")) "x1" = (1 : Float) := by decide +kernel
  have read : readProblem (some "x1") [some largeConstraint] (some .maximize) =
      .ok overflown := by
    refine readProblem_eq_ok_iff.2 ⟨by simp [presentConstraints_largeConstraint],
      by decide +kernel, _, ["x1"], .maximize, accepted, ?_, by simp, rfl, ?_⟩
    · rw [presentConstraints_largeConstraint, variablesOf_largeConstraint]
    · simp [programOf, layOut, first, coefficientOf_manyNines, overflown]
  have fits := overflown.check_eq_ok_iff.1 (check_of_readProblem read)
  have infinite : ¬ overflown.Finite := by
    intro finite
    have entry := finite.constraints _ (List.mem_singleton_self _) _ (List.mem_singleton_self _)
    exact absurd entry (by decide +kernel)
  exact ⟨read, infinite, mt fits.finite_primalTableau_iff.1 infinite,
    mt fits.finite_dualTableau_iff.1 infinite⟩

end Reading

end Text

end Simplex
