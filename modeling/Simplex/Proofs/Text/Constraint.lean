import Simplex.Proofs.Text.Identifier

/-!
# Reading a constraint

A constraint that is read is its left side, the symbol of its relation and its right side, in this
order (`eq_append_of_cutAtRelation?`), and every text of that form is read so
(`cutAtRelation?_append`). The symbol and the right side hold no `x`, so the identifiers of a
constraint are those of its left side alone: `identifiers_of_readConstraint`.
-/

namespace Simplex.Text

variable {text left right : List Char} {sense : Sense}

section Relation

/-- Whether a character may begin the symbol of a relation. -/
def isRelationStart (char : Char) : Bool := char == '<' || char == '>' || char == '='

theorem isRelationStart_iff {char : Char} :
    isRelationStart char = true ↔ char = '<' ∨ char = '>' ∨ char = '=' := by
  simp [isRelationStart, or_assoc]

theorem isRelationStart_of_mem_symbol {char : Char} (member : char ∈ sense.symbol.toList) :
    isRelationStart char = true := by
  rw [isRelationStart_iff]
  cases sense <;> simp [Sense.symbol] at member <;> tauto

theorem isWord_eq_false_of_isRelationStart {char : Char} (start : isRelationStart char = true) :
    isWord char = false := by
  rcases isRelationStart_iff.1 start with rfl | rfl | rfl <;> decide +kernel

/-- The parts of a text around its first relation make up the text. -/
theorem eq_append_of_cutAtRelation? (found : cutAtRelation? text = some (left, sense, right)) :
    text = left ++ sense.symbol.toList ++ right := by
  fun_induction cutAtRelation? text generalizing left with
  | case1 => cases found
  | case2 rest =>
    obtain ⟨rfl, rfl, rfl⟩ := found
    rfl
  | case3 rest =>
    obtain ⟨rfl, rfl, rfl⟩ := found
    rfl
  | case4 rest =>
    obtain ⟨rfl, rfl, rfl⟩ := found
    rfl
  | case5 char rest _ _ _ ih =>
    obtain ⟨⟨front, later⟩, cut, parts⟩ := Option.map_eq_some_iff.1 found
    obtain ⟨rfl, rfl⟩ := parts
    exact congrArg (char :: ·) (ih cut)

/-- Every relation sign holds one equals sign, and no equals sign stands outside of one. -/
theorem length_relationSigns (text : List Char) :
    (relationSigns text).length = text.count '=' := by
  fun_induction relationSigns text with
  | case1 => rfl
  | case2 rest ih => simp [ih]
  | case3 rest ih => simp [ih]
  | case4 rest ih => simp [ih]
  | case5 char rest _ _ different ih =>
    rw [ih, List.count_cons_of_ne different]

theorem relationSigns_eq_nil_iff : relationSigns text = [] ↔ '=' ∉ text := by
  rw [← List.length_eq_zero_iff, length_relationSigns, List.count_eq_zero]

/-- A text is cut at the first of its signs, and the others stand after it. -/
theorem relationSigns_eq (text : List Char) :
    relationSigns text = match cutAtRelation? text with
      | none => []
      | some (_, sense, rest) => sense :: relationSigns rest := by
  fun_induction cutAtRelation? text with
  | case1 => rfl
  | case2 rest => rfl
  | case3 rest => rfl
  | case4 rest => rfl
  | case5 char rest less greater different ih =>
    rw [relationSigns, ih]
    · cases cutAtRelation? rest <;> rfl
    · exact less
    · exact greater
    · exact different

/-- A text has one sign when it is cut at a sign with no equals sign after it. -/
theorem splitRelation?_eq_filter (text : List Char) :
    splitRelation? text = (cutAtRelation? text).filter fun parts => !parts.2.2.contains '=' := by
  rw [splitRelation?, relationSigns_eq]
  cases cutAtRelation? text with
  | none => simp
  | some parts =>
    simp [Option.filter, relationSigns_eq_nil_iff]

theorem cutAtRelation?_of_splitRelation? {parts : List Char × Sense × List Char}
    (found : splitRelation? text = some parts) : cutAtRelation? text = some parts := by
  rw [splitRelation?, Option.ite_none_right_eq_some] at found
  exact found.2

/-- A text that begins with no relation is searched further on. -/
theorem cutAtRelation?_cons {char : Char} (plain : isRelationStart char = false)
    (text : List Char) : cutAtRelation? (char :: text) =
      (cutAtRelation? text).map fun parts => (char :: parts.1, parts.2) := by
  have different : ¬ (char = '<' ∨ char = '>' ∨ char = '=') := by
    rw [← isRelationStart_iff, plain]
    exact Bool.false_ne_true
  simp only [not_or] at different
  rw [cutAtRelation?]
  · exact fun rest equal _ => different.1 equal
  · exact fun rest equal _ => different.2.1 equal
  · exact different.2.2

/-- A relation is found after a text that holds no character of a symbol. -/
theorem cutAtRelation?_append (plain : ∀ char ∈ left, isRelationStart char = false)
    (sense : Sense) (right : List Char) :
    cutAtRelation? (left ++ sense.symbol.toList ++ right) = some (left, sense, right) := by
  induction left with
  | nil => cases sense <;> rfl
  | cons char left ih =>
    have later := ih fun other member => plain other (List.mem_cons_of_mem _ member)
    rw [List.cons_append, List.cons_append, cutAtRelation?_cons (plain char List.mem_cons_self),
      later]
    rfl

/-- A text with one relation is parted around it. -/
theorem splitRelation?_append (plain : ∀ char ∈ left, isRelationStart char = false)
    (sense : Sense) (single : '=' ∉ right) :
    splitRelation? (left ++ sense.symbol.toList ++ right) = some (left, sense, right) := by
  rw [splitRelation?_eq_filter, cutAtRelation?_append plain]
  simpa using single

theorem eq_append_of_splitRelation? (found : splitRelation? text = some (left, sense, right)) :
    text = left ++ sense.symbol.toList ++ right ∧ '=' ∉ right := by
  have cut := cutAtRelation?_of_splitRelation? found
  rw [splitRelation?_eq_filter, Option.filter_eq_some_iff] at found
  exact ⟨eq_append_of_cutAtRelation? cut, by simpa using found.2⟩

end Relation

section Bound

variable {α : Type} [Scalar α]

/-- A right side is read when it is a number whose scalar is finite. -/
theorem readFinite?_eq_some_iff {scalar : α} : readFinite? text = some scalar ↔
    ∃ value, readNumeral? digitValue? (trim text) = some (.finite value) ∧
      Scalar.Finite scalar ∧ Scalar.ofDecimal value = scalar := by
  simp only [readFinite?]
  split
  · rename_i value read
    simp only [Option.ite_none_right_eq_some, Option.some.injEq, read, Numeral.finite.injEq]
    constructor
    · rintro ⟨finite, rfl⟩
      exact ⟨value, rfl, finite, rfl⟩
    · rintro ⟨_, rfl, finite, rfl⟩
      exact ⟨finite, rfl⟩
  · rename_i unread
    simp only [reduceCtorEq, false_iff]
    rintro ⟨value, read, -⟩
    exact unread value read

/-- Exact arithmetic knows no infinity. -/
theorem finite_rat (value : Rat) : Scalar.Finite value := by
  rintro bound ⟨⟩

/-- A right side that is read holds no identifier. -/
theorem not_mem_of_readFinite? {scalar : α} (read : readFinite? text = some scalar) :
    'x' ∉ text := by
  obtain ⟨value, numeral, -⟩ := readFinite?_eq_some_iff.1 read
  obtain ⟨front, back, blankFront, blankBack, split⟩ := exists_around_trimBy isBlank text
  intro member
  rw [split, List.mem_append, List.mem_append] at member
  rcases member with (inFront | inNumber) | inBack
  · exact absurd (blankFront 'x' inFront) (by decide)
  · exact absurd (isNumeralChar_of_readNumeral? numeral 'x' inNumber) (by decide)
  · exact absurd (blankBack 'x' inBack) (by decide)

end Bound

section Constraint

variable {α : Type} [Scalar α] {written : String} {relation : Constraint α}

/-- What is said of a constraint that is read. -/
theorem readConstraint_eq_ok_iff : readConstraint written = .ok relation ↔
    ∃ left right, splitRelation? written.toList = some (left, relation.sense, right) ∧
      readFinite? right = some relation.rhs ∧
      relation.expression = String.ofList (trim left) := by
  obtain ⟨expression, sense, rhs⟩ := relation
  unfold readConstraint
  split
  · rename_i unsplit
    simp [unsplit]
  · rename_i left sense right parted
    cases bound : readFinite? (α := α) right with
    | none => simp +contextual [parted, bound, and_assoc]
    | some value =>
      simp only [Except.ok.injEq, Constraint.mk.injEq, parted, Option.some.injEq, Prod.mk.injEq]
      constructor
      · rintro ⟨rfl, rfl, rfl⟩
        exact ⟨left, right, ⟨rfl, rfl, rfl⟩, bound, rfl⟩
      · rintro ⟨_, _, ⟨rfl, rfl, rfl⟩, read, rfl⟩
        rw [bound, Option.some.injEq] at read
        exact ⟨rfl, rfl, read⟩

/-- A constraint is refused because it has not exactly one relation, or else because its right
side is no finite number. -/
theorem readConstraint_eq_error_iff {fault : ProgramFault} :
    readConstraint (α := α) written = .error fault ↔
      (splitRelation? written.toList = none ∧ fault = .constraintFormat written) ∨
      (∃ left sense right, splitRelation? written.toList = some (left, sense, right) ∧
        readFinite? (α := α) right = none ∧ fault = .rightHandSide written) := by
  unfold readConstraint
  split
  · rename_i unsplit
    simp [unsplit, eq_comm]
  · rename_i left sense right parted
    cases bound : readFinite? (α := α) right with
    | none => simp [parted, bound, eq_comm]
    | some value => simp +contextual [parted, bound]

/-- Whatever is read in some arithmetic is read exactly, with the same left side and relation. -/
theorem exists_exact_of_readConstraint (read : readConstraint written = .ok relation) :
    ∃ exact : Constraint Rat, readConstraint written = .ok exact ∧
      exact.expression = relation.expression ∧ exact.sense = relation.sense := by
  obtain ⟨left, right, parted, bound, expression⟩ := readConstraint_eq_ok_iff.1 read
  obtain ⟨value, numeral, -⟩ := readFinite?_eq_some_iff.1 bound
  have exactBound : readFinite? (α := Rat) right = some (Scalar.ofDecimal value) :=
    readFinite?_eq_some_iff.2 ⟨value, numeral, finite_rat _, rfl⟩
  refine ⟨⟨relation.expression, relation.sense, Scalar.ofDecimal value⟩, ?_, rfl, rfl⟩
  exact readConstraint_eq_ok_iff.2 ⟨left, right, parted, exactBound, expression⟩

/-- The identifiers of a constraint all stand on its left side. -/
theorem identifiers_of_readConstraint (read : readConstraint written = .ok relation) :
    identifiers written = identifiers relation.expression := by
  obtain ⟨left, right, parted, bound, expression⟩ := readConstraint_eq_ok_iff.1 read
  obtain ⟨split, -⟩ := eq_append_of_splitRelation? parted
  -- The symbol ends every word before it, and neither it nor the number holds an `x`.
  have absent : 'x' ∉ relation.sense.symbol.toList ++ right := by
    rw [List.mem_append]
    rintro (inSymbol | inRight)
    · exact absurd (isRelationStart_of_mem_symbol inSymbol) (by decide)
    · exact not_mem_of_readFinite? bound inRight
  have separate : ∀ char ∈ (relation.sense.symbol.toList ++ right).head?,
      isWord char = false := by
    intro char first
    have inSymbol : char ∈ relation.sense.symbol.toList.head? := by
      cases sense : relation.sense <;> simpa [sense, Sense.symbol] using first
    exact isWord_eq_false_of_isRelationStart
      (isRelationStart_of_mem_symbol (List.mem_of_mem_head? inSymbol))
  have same : identifiersAfter none written.toList =
      identifiersAfter none relation.expression.toList := by
    rw [split, List.append_assoc, identifiersAfter_append separate,
      identifiersAfter_eq_nil absent, List.append_nil, expression, String.toList_ofList,
      identifiersAfter_trim]
  rw [identifiers, identifiers, same]

end Constraint

end Simplex.Text
