import Simplex.Proofs.FiniteDouble
import Simplex.Proofs.Text.Constraint

/-!
# Numbers in front of a variable

A number that is read on the right side of a constraint can also stand in front of a variable. With
digits and a point only it is the coefficient (`coefficientOf_numeral`). With underscores or a power
of ten it is no number of a term, and what it is part of is skipped. But a power of ten may have a
sign, and an expression is cut before every sign: then the digits of the power are left over as a
number of their own, and they become the coefficient (`coefficientOf_right_side`).
-/

namespace Simplex.Text

section Signs

variable {negative : Bool} {value : Decimal} {front rest : List Char} {sign : Char}

theorem ne_of_isSign {char : Char} (signed : isSign sign = true) (plain : isSign char = false) :
    sign ≠ char := by
  rintro rfl
  rw [signed] at plain
  cases plain

theorem Literal.isSign_eq_false_of_mem_chars {literal : Literal} {char : Char}
    (member : char ∈ literal.chars) : isSign char = false :=
  isSign_eq_false_of_isTermChar (Literal.isTermChar_of_mem_chars member)

/-- A sign among the digits of a number is that of its power of ten. -/
theorem power_of_isSign (signed : isSign sign = true)
    (read : readDecimal? digitValue? negative (ungroup isDigit false (front ++ sign :: rest)) =
      some value) :
    (∃ before mark, front = before ++ [mark] ∧ (mark = 'e' ∨ mark = 'E')) ∧
      (∀ char ∈ ungroup isDigit false rest, isDigit char = true) ∧
      ungroup isDigit false rest ≠ [] := by
  have plain : isDigit sign = false := by
    rcases isSign_iff.1 signed with rfl | rfl <;> decide
  have form := powered_of_readDecimal? read
  rw [ungroup_append_cons plain (ne_of_isSign signed (by decide))] at form
  generalize parts : ungroup isDigit false front ++ sign :: ungroup isDigit false rest = text
    at form
  cases form with
  | plain literal =>
    have member : sign ∈ literal.chars := by simp [← parts]
    exact absurd rfl (ne_of_isSign signed (Literal.isSign_eq_false_of_mem_chars member))
  | @power literal mark marked powerSign digits digit nonempty =>
    have unmarked : sign ≠ mark := by
      rcases marked with rfl | rfl <;> exact ne_of_isSign signed (by decide)
    have notInLiteral : sign ∉ literal.chars := fun member =>
      ne_of_isSign signed (Literal.isSign_eq_false_of_mem_chars member) rfl
    have notInDigits : sign ∉ digits := fun member =>
      ne_of_isSign signed (isSign_eq_false_of_isDigit (digit sign member)) rfl
    cases powerSign with
    | none =>
      have member : sign ∈ literal.chars ++ mark :: (signChars none ++ digits) := by simp [← parts]
      simp [signChars, unmarked, notInLiteral, notInDigits] at member
    | some powerNegative =>
      have same : (literal.chars ++ [mark]) ++ (if powerNegative then '-' else '+') :: digits =
          ungroup isDigit false front ++ sign :: ungroup isDigit false rest := by
        rw [parts]
        simp [signChars]
      obtain ⟨before, -, rfl⟩ := (List.append_cons_inj_of_notMem
        (by simp [unmarked, notInLiteral]) notInDigits).1 same
      have last := getLast?_ungroup isDigit false front
      rw [← before, List.getLast?_concat] at last
      obtain ⟨beginning, rfl⟩ := List.getLast?_eq_some_iff.1 last.symm
      exact ⟨⟨beginning, mark, rfl, marked⟩, digit, nonempty⟩

end Signs

section Fragments

variable {α : Type} [Scalar α] {front : List Char} {sign : Char}

/-- Without the letter of variables there are no terms. -/
theorem terms_eq_nil (absent : 'x' ∉ front) : terms (String.ofList front) = [] := by
  rw [List.eq_nil_iff_forall_not_mem]
  intro term listed
  have named := mem_identifiers_iff.1 (name_mem_identifiers listed)
  rw [String.toList_ofList, identifiersAfter_eq_nil absent] at named
  cases named

/-- What stands before the last sign of an expression, and has no variable, does not count. -/
theorem coefficientOf_append_sign (absent : 'x' ∉ front) (signed : isSign sign = true)
    (rest : List Char) (name : String) :
    (coefficientOf (String.ofList (front ++ sign :: rest)) name : α) =
      coefficientOf (String.ofList (sign :: rest)) name := by
  have none := terms_eq_nil absent
  simp only [terms, String.toList_ofList] at none
  simp only [coefficientOf, terms, String.toList_ofList, fragments_append_sign signed,
    List.filterMap_append, none, List.nil_append]

end Fragments

section Coefficient

variable {sign : Option Bool} {magnitude back name : List Char} {value : Decimal}

/-- The digits, point and power of ten of a number that is read, after its sign. -/
theorem readDecimal?_of_readNumeral? {text : List Char} {negative : Bool}
    (split : signed text = (negative, magnitude))
    (read : readNumeral? digitValue? text = some (.finite value)) :
    readDecimal? digitValue? negative (ungroup isDigit false magnitude) = some value := by
  simp only [readNumeral?, split, signedNumeral?] at read
  split_ifs at read
  · cases read
  · cases read
  obtain ⟨decimal, readable, same⟩ := Option.map_eq_some_iff.1 read
  exact Numeral.finite.inj same ▸ readable

/-- A fragment with a character that no term has is no term. -/
theorem readTerm?_eq_none_of_mem {fragment : List Char} {char : Char} (member : char ∈ fragment)
    (unsigned : isSign char = false) (other : isTermChar char = false) :
    readTerm? fragment = none := by
  rw [Option.eq_none_iff_forall_ne_some]
  intro term read
  obtain ⟨form, rfl, -⟩ := exists_termForm_of_readTerm? read
  rw [TermForm.chars, List.mem_append, List.mem_append] at member
  rcases member with inSign | inGap | inBody
  · rw [isSign_of_mem_signChars inSign] at unsigned
    cases unsigned
  · rw [isTermChar_of_isBlank (form.afterSign.blank char inGap)] at other
    cases other
  · rw [TermForm.isTermChar_of_mem_body inBody] at other
    cases other

/-- A number of digits and a point in front of a variable is read as its coefficient. -/
theorem readTerm?_literal (sign : Option Bool) (literal : Literal) (blank : Blank back)
    (variableName : isVariable name = true) :
    readTerm? (signChars sign ++ (literal.chars ++ back ++ name)) =
      some ⟨sign == some true, some (literal.decimal false), String.ofList name⟩ := by
  let form : TermForm := ⟨sign, .empty, some literal, ⟨back, blank⟩, false, .empty, name,
    variableName⟩
  have chars : form.chars = signChars sign ++ (literal.chars ++ back ++ name) := by
    simp [form, TermForm.chars, TermForm.body, TermForm.starred, numberChars, starChars, Gap.empty]
  rw [← chars, form.readTerm?_chars]
  rfl

/-- The coefficient of a number is the double it denotes together with its sign. -/
theorem coefficient_literal (literal : Literal) (negative : Bool) (name : String) :
    Term.coefficient ⟨negative, some (literal.decimal false), name⟩ =
      (literal.decimal negative).toFloat := by
  cases negative with
  | false => rfl
  | true => exact (Double.toFloat_negative _ _).symm

theorem unsigned_of_isVariable (variableName : isVariable name = true) : Unsigned name := by
  obtain ⟨lead, rest, rfl, leading, digits⟩ := exists_of_isVariable variableName
  intro char member
  rcases List.mem_cons.1 member with rfl | inDigits
  · decide
  · rcases List.mem_cons.1 inDigits with rfl | later
    · exact isSign_eq_false_of_isDigit (isDigit_of_isLeadingDigit leading)
    · exact isSign_eq_false_of_isDigit (digits char later)

theorem isBlank_eq_false_of_isNumeralChar {char : Char} (numeral : isNumeralChar char = true) :
    isBlank char = false := by
  simp only [isNumeralChar, Bool.or_eq_true, beq_iff_eq, or_assoc] at numeral
  rcases numeral with digit | signed | rfl | rfl | rfl | rfl
  · exact isBlank_eq_false_of_isDigit digit
  · rcases isSign_iff.1 signed with rfl | rfl <;> decide
  · decide
  · decide
  · decide
  · decide

theorem isBlank_eq_false_of_mem_getLast?_name (variableName : isVariable name = true) {char : Char}
    (last : char ∈ name.getLast?) : isBlank char = false := by
  obtain ⟨lead, rest, rfl, leading, digits⟩ := exists_of_isVariable variableName
  rw [List.getLast?_cons_cons] at last
  rcases List.mem_cons.1 (List.mem_of_getLast? last) with rfl | later
  · exact isBlank_eq_false_of_isDigit (isDigit_of_isLeadingDigit leading)
  · exact isBlank_eq_false_of_isDigit (digits char later)

/-- A number in front of a variable belongs to one fragment with it. -/
theorem fragments_numeral (variableName : isVariable name = true) (blank : Blank back)
    (unsigned : Unsigned magnitude) (nonempty : magnitude ≠ [])
    (chars : ∀ char ∈ signChars sign ++ magnitude, isNumeralChar char = true) :
    fragments (signChars sign ++ (magnitude ++ back ++ name)) =
      [signChars sign ++ (magnitude ++ back ++ name)] := by
  refine fragments_eq_singleton sign ?_ ⟨fun char first => ?_, fun char last => ?_⟩
    (by simp [nonempty])
  · exact (unsigned.append (unsigned_of_blank blank)).append (unsigned_of_isVariable variableName)
  · rw [List.append_assoc, ← List.append_assoc,
      List.head?_append_of_ne_nil _ (by simp [nonempty])] at first
    exact isBlank_eq_false_of_isNumeralChar (chars char (List.mem_of_mem_head? first))
  · obtain ⟨lead, rest, split, -⟩ := exists_of_isVariable variableName
    rw [← List.append_assoc, List.getLast?_append_of_ne_nil _ (by simp [split])] at last
    exact isBlank_eq_false_of_mem_getLast?_name variableName last

/-- A text that is one fragment has at most one term. -/
theorem terms_of_fragment {text : List Char} (fragment : fragments text = [text]) :
    terms (String.ofList text) = (readTerm? text).toList := by
  rw [terms, String.toList_ofList, fragment]
  cases read : readTerm? text <;> simp [read]

/-- A number without underscores and without a power of ten is the coefficient of the variable after
it, and any other number keeps the variable from being read. -/
theorem coefficientOf_numeral (variableName : isVariable name = true) (blank : Blank back)
    (unsigned : Unsigned magnitude)
    (read : readNumeral? digitValue? (signChars sign ++ magnitude) = some (.finite value)) :
    coefficientOf (String.ofList (signChars sign ++ (magnitude ++ back ++ name)))
        (String.ofList name) = value.toFloat ∨
      coefficientOf (String.ofList (signChars sign ++ (magnitude ++ back ++ name)))
        (String.ofList name) = (0 : Float) := by
  have split := signed_append sign fun _ char (first : char ∈ magnitude.head?) =>
    unsigned char (List.mem_of_mem_head? first)
  have readable := readDecimal?_of_readNumeral? split read
  have form := powered_of_readDecimal? readable
  have nonempty : magnitude ≠ [] := by
    rintro rfl
    cases readable
  have one := terms_of_fragment (fragments_numeral variableName blank unsigned nonempty
    (isNumeralChar_of_readNumeral? read))
  have skipped (char : Char) (member : char ∈ magnitude) (plain : isSign char = false)
      (other : isTermChar char = false) :
      coefficientOf (String.ofList (signChars sign ++ (magnitude ++ back ++ name)))
        (String.ofList name) = (0 : Float) := by
    have within : char ∈ signChars sign ++ (magnitude ++ back ++ name) := by simp [member]
    rw [coefficientOf, one, readTerm?_eq_none_of_mem within plain other]
    rfl
  by_cases grouped : '_' ∈ magnitude
  · exact .inr (skipped '_' grouped (by decide) (by decide))
  rw [ungroup_eq_self grouped] at form
  cases form with
  | power literal marked powerSign digit _ =>
    right
    rcases marked with rfl | rfl
    · exact skipped 'e' (by simp) (by decide) (by decide)
    · exact skipped 'E' (by simp) (by decide) (by decide)
  | plain literal =>
    have term := readTerm?_literal sign literal blank variableName
    rw [coefficientOf, one, term]
    simp only [Option.toList_some, List.foldl_cons, List.foldl_nil, if_true, coefficient_literal]
    exact Double.zero_add_eq_or _

end Coefficient

section RightSide

variable {text : String} {front power : List Char} {mark sign : Char}

/-- A text that is read as a right side is a number between blanks, and it has no variable. -/
theorem exists_numeral_of_readConstraint {α : Type} [Scalar α] {relation : Constraint α}
    (read : readConstraint ("x1 <= " ++ text) = .ok relation) :
    'x' ∉ text.toList ∧ ∃ value,
      readNumeral? digitValue? (trim text.toList) = some (.finite value) ∧
        relation.rhs = Scalar.ofDecimal value := by
  obtain ⟨left, right, parted, bound, -⟩ := readConstraint_eq_ok_iff.1 read
  have cut := cutAtRelation?_of_splitRelation? parted
  have found : cutAtRelation? ("x1 <= " ++ text).toList =
      some (['x', '1', ' '], .atMost, ' ' :: text.toList) := by
    rw [String.toList_append]
    rfl
  rw [found, Option.some.injEq, Prod.mk.injEq, Prod.mk.injEq] at cut
  obtain ⟨-, -, rfl⟩ := cut
  obtain ⟨value, numeral, -, denotes⟩ := readFinite?_eq_some_iff.1 bound
  have blank : ∀ char ∈ [' '], isBlank char = true := by simp; decide
  have trimmed : trim (' ' :: text.toList) = trim text.toList := trimBy_append_left blank _
  rw [trimmed] at numeral
  exact ⟨List.not_mem_of_not_mem_cons (not_mem_of_readFinite? bound), value, numeral,
    denotes.symm⟩

/-- A power of ten with a sign stands in the text. -/
structure SignedPower (text front : List Char) (mark sign : Char) (power : List Char) : Prop where
  parts : text = front ++ mark :: sign :: power
  marked : mark = 'e' ∨ mark = 'E'
  signed : isSign sign = true

theorem SignedPower.append {text : List Char} (found : SignedPower text front mark sign power)
    (before after : List Char) :
    SignedPower (before ++ text ++ after) (before ++ front) mark sign (power ++ after) :=
  ⟨by simp [found.parts], found.marked, found.signed⟩

/-- A number whose power of ten has no sign has no other sign than that in front. -/
theorem unsigned_of_no_signedPower {text magnitude : List Char} {value : Decimal} {negative : Bool}
    (split : signed text = (negative, magnitude))
    (read : readNumeral? digitValue? text = some (.finite value))
    (none : ∀ front mark sign power, ¬ SignedPower magnitude front mark sign power) :
    Unsigned magnitude := by
  intro sign member
  by_contra signed
  rw [Bool.not_eq_false] at signed
  obtain ⟨front, power, rfl⟩ := List.append_of_mem member
  obtain ⟨⟨before, mark, rfl, marked⟩, -⟩ :=
    power_of_isSign signed (readDecimal?_of_readNumeral? split read)
  exact none before mark sign power ⟨by simp, marked, signed⟩

/-- The digits of a power of ten are a number together with its sign. -/
theorem exists_numeral_of_signedPower {text magnitude : List Char} {value : Decimal}
    {negative : Bool} (split : signed text = (negative, magnitude))
    (read : readNumeral? digitValue? text = some (.finite value))
    (found : SignedPower magnitude front mark sign power) :
    Unsigned power ∧
      ∃ value, readNumeral? digitValue? (sign :: power) = some (.finite value) := by
  obtain ⟨parts, -, signed⟩ := found
  have again : magnitude = (front ++ [mark]) ++ sign :: power := by simp [parts]
  rw [again] at split
  obtain ⟨-, digits, nonempty⟩ := power_of_isSign signed (readDecimal?_of_readNumeral? split read)
  let literal : Literal :=
    ⟨ungroup isDigit false power, none, by simpa using digits, by simpa using nonempty⟩
  have chars : literal.chars = ungroup isDigit false power := by
    simp [literal, Literal.chars, pointed]
  refine ⟨fun char member => ?_, ?_⟩
  · rcases eq_or_mem_ungroup member false with rfl | kept
    · decide
    · exact isSign_eq_false_of_isDigit (digits char kept)
  · have numeral (negative : Bool) := literal.signedNumeral?_chars negative
    rw [chars] at numeral
    rcases isSign_iff.1 signed with rfl | rfl
    · exact ⟨_, numeral false⟩
    · exact ⟨_, numeral true⟩

/-- The sign in front of a number is another one than that of its power of ten. -/
theorem SignedPower.of_signChars {magnitude : List Char} {leading : Option Bool}
    (found : SignedPower (signChars leading ++ magnitude) front mark sign power) :
    ∃ first, SignedPower magnitude first mark sign power := by
  obtain ⟨parts, marked, signed⟩ := found
  cases leading with
  | none => exact ⟨front, parts, marked, signed⟩
  | some negative =>
    cases front with
    | nil =>
      have head := List.head_eq_of_cons_eq parts
      rcases marked with rfl | rfl <;> cases negative <;> cases head
    | cons first front => exact ⟨front, List.tail_eq_of_cons_eq parts, marked, signed⟩

/-- Blanks around a number do not reach its power of ten. -/
theorem SignedPower.trim {text : List Char} (found : SignedPower text front mark sign power) :
    SignedPower (trim text) (skipBlanks front) mark sign (power.rdropWhile isBlank) ∧
      Text.trim (sign :: power) = sign :: power.rdropWhile isBlank := by
  obtain ⟨rfl, marked, signed⟩ := found
  have signKept : isBlank sign = false := by
    rcases isSign_iff.1 signed with rfl | rfl <;> decide
  have markKept : isBlank mark = false := by rcases marked with rfl | rfl <;> decide
  have parts : Text.trim ((front ++ [mark]) ++ sign :: power) = _ :=
    trimBy_append_cons signKept (front ++ [mark]) power
  rw [dropWhile_append_cons markKept] at parts
  exact ⟨⟨by simpa [skipBlanks] using parts, marked, signed⟩,
    trimBy_append_cons signKept [] power⟩

theorem exists_signChars_eq (signed : isSign sign = true) :
    ∃ negative, signChars (some negative) = [sign] := by
  rcases isSign_iff.1 signed with rfl | rfl
  · exact ⟨false, rfl⟩
  · exact ⟨true, rfl⟩

theorem coefficientOf_blank_append {α : Type} [Scalar α] (blank : Blank front)
    (rest : List Char) (name : String) :
    (coefficientOf (String.ofList (front ++ rest)) name : α) =
      coefficientOf (String.ofList rest) name := by
  simp only [coefficientOf, terms, String.toList_ofList, fragments_blank_append blank]

/-- Without a sign in its power of ten, a number between blanks is the coefficient or is
skipped. -/
theorem coefficientOf_plain_numeral {text name : List Char} {value : Decimal}
    (variableName : isVariable name = true)
    (read : readNumeral? digitValue? (trim text) = some (.finite value))
    (none : ∀ front mark sign power, ¬ SignedPower text front mark sign power) :
    coefficientOf (String.ofList (text ++ name)) (String.ofList name) = value.toFloat ∨
      coefficientOf (String.ofList (text ++ name)) (String.ofList name) = (0 : Float) := by
  obtain ⟨front, back, before, after, around⟩ := exists_around_trimBy isBlank text
  obtain ⟨sign, magnitude, split, signedText⟩ := exists_signed_eq (trim text)
  have whole : text = front ++ signChars sign ++ magnitude ++ back := by
    rw [List.append_assoc front, ← split]
    exact around
  have unsigned : Unsigned magnitude :=
    unsigned_of_no_signedPower signedText read fun first mark sign power found =>
      none _ _ _ _ (whole ▸ found.append _ back)
  rw [split] at read
  have written : text ++ name = front ++ (signChars sign ++ (magnitude ++ back ++ name)) := by
    simp [whole]
  rw [written, coefficientOf_blank_append before]
  exact coefficientOf_numeral variableName after unsigned read

/-- With a sign in its power of ten, the power of a number is the coefficient or is skipped. -/
theorem coefficientOf_signed_numeral {text name : List Char} {value : Decimal}
    (variableName : isVariable name = true) (absent : 'x' ∉ text)
    (read : readNumeral? digitValue? (trim text) = some (.finite value))
    (found : SignedPower text front mark sign power) :
    ∃ value, readNumeral? digitValue? (trim (sign :: power)) = some (.finite value) ∧
      (coefficientOf (String.ofList (text ++ name)) (String.ofList name) = value.toFloat ∨
        coefficientOf (String.ofList (text ++ name)) (String.ofList name) = (0 : Float)) := by
  obtain ⟨inTrimmed, trimmedPower⟩ := found.trim
  obtain ⟨leading, magnitude, split, signedText⟩ := exists_signed_eq (trim text)
  obtain ⟨first, inMagnitude⟩ := (split ▸ inTrimmed).of_signChars
  obtain ⟨unsigned, value, numeral⟩ := exists_numeral_of_signedPower signedText read inMagnitude
  obtain ⟨negative, signChar⟩ := exists_signChars_eq found.signed
  refine ⟨value, by rwa [trimmedPower], ?_⟩
  -- Everything before the sign of the power is cut off and skipped.
  have whole : text ++ name =
      (front ++ [mark]) ++ sign ::
        (power.rdropWhile isBlank ++ power.rtakeWhile isBlank ++ name) := by
    simp [found.parts, List.rdropWhile_append_rtakeWhile]
  have noVariable : 'x' ∉ front ++ [mark] := by
    intro member
    refine absent ?_
    rw [found.parts, ← List.singleton_append, ← List.append_assoc]
    exact List.mem_append_left _ member
  have blank : Blank (power.rtakeWhile isBlank) := fun _ member => List.mem_rtakeWhile_imp member
  have cons (rest : List Char) : sign :: rest = signChars (some negative) ++ rest := by
    rw [signChar, List.singleton_append]
  rw [cons] at numeral
  rw [whole, coefficientOf_append_sign noVariable found.signed, cons]
  exact coefficientOf_numeral variableName blank unsigned numeral

/-- A number that is read on the right side of a constraint is not always understood in front of a
variable. Unless its power of ten has a sign, it is the coefficient of the variable or is skipped
together with it. But where its power of ten has a sign, the text before that sign is lost, and the
power alone is the coefficient or is skipped. -/
theorem coefficientOf_right_side {relation : Constraint Float}
    (read : readConstraint ("x1 <= " ++ text) = .ok relation) :
    ((∀ front mark sign power, ¬ SignedPower text.toList front mark sign power) →
      coefficientOf (text ++ "x1") "x1" = relation.rhs ∨
        coefficientOf (text ++ "x1") "x1" = (0 : Float)) ∧
    ∀ front mark sign power, SignedPower text.toList front mark sign power →
      ∃ value, readNumeral? digitValue? (trim (sign :: power)) = some (.finite value) ∧
        (coefficientOf (text ++ "x1") "x1" = value.toFloat ∨
          coefficientOf (text ++ "x1") "x1" = (0 : Float)) := by
  obtain ⟨absent, value, numeral, denotes⟩ := exists_numeral_of_readConstraint read
  have written : text ++ "x1" = String.ofList (text.toList ++ ['x', '1']) := by
    rw [← String.toList_inj, String.toList_append, String.toList_ofList, String.toList_ofList]
  rw [written, denotes]
  exact ⟨coefficientOf_plain_numeral rfl numeral,
    fun front mark sign power => coefficientOf_signed_numeral rfl absent numeral⟩

/-- A constraint whose right side is written with a negative power of ten. -/
def thousandth : Constraint Float := ⟨"x1", .atMost, Decimal.toFloat ⟨false, 1, -3⟩⟩

/-- Only the power of a thousandth is left in front of a variable. -/
theorem coefficientOf_right_side_thousandth :
    readConstraint ("x1 <= " ++ "1e-3") = .ok thousandth ∧
      ∃ value, readNumeral? digitValue? (trim ['-', '3']) = some (.finite value) ∧
        (coefficientOf ("1e-3" ++ "x1") "x1" = value.toFloat ∨
          coefficientOf ("1e-3" ++ "x1") "x1" = (0 : Float)) := by
  have read : readConstraint ("x1 <= " ++ "1e-3") = .ok thousandth := by decide +kernel
  have found : SignedPower "1e-3".toList ['1'] 'e' '-' ['3'] := ⟨rfl, .inl rfl, rfl⟩
  exact ⟨read, (coefficientOf_right_side read).2 _ _ _ _ found⟩

/-- A number that is read on the right side is misread in front of a variable. -/
theorem coefficientOf_cut_power :
    ∃ relation : Constraint Float, readConstraint ("x1 <= " ++ "1e-3") = .ok relation ∧
      coefficientOf ("1e-3" ++ "x1") "x1" ≠ relation.rhs ∧
      coefficientOf ("1e-3" ++ "x1") "x1" ≠ (0 : Float) ∧
      coefficientOf ("1e-3" ++ "x1") "x1" = (-3 : Float) :=
  ⟨thousandth, by decide +kernel, by decide +kernel, by decide +kernel, by decide +kernel⟩

end RightSide

end Simplex.Text
