import Simplex.Proofs.Reading
import Simplex.Proofs.Text.Problem

/-!
# Writing an expression and reading it

A written expression is made of tokens with blanks between them: signs, numbers, stars and
variables. Whatever the blanks are, its fragments are its terms (`fragments_body`), each of them is
read (`readTerm?_core`), and the identifiers are the variables of the terms
(`mem_identifiers_of_fragments`).
-/

namespace Simplex.Text

variable {α : Type} [Scalar α]

/-- A term as it is written: a sign, a number and a star, each optional and with the blanks after
it, and a variable that is given by its number. -/
structure WrittenTerm where
  /-- Whether the sign is a minus. -/
  sign : Option (Bool × Gap)
  number : Option (Literal × Gap)
  star : Option Gap
  index : Nat
  after : Gap
  positive : 0 < index
  short : (Nat.toDigits 10 index).length ≤ integerDigitLimit

namespace WrittenTerm

/-- The variable of a term. -/
def name (term : WrittenTerm) : String := s!"x{term.index}"

def signPart (term : WrittenTerm) : List Char :=
  match term.sign with
  | none => []
  | some (negative, gap) => signChars (some negative) ++ gap.chars

def numberPart (term : WrittenTerm) : List Char :=
  match term.number with
  | none => []
  | some (literal, gap) => literal.chars ++ gap.chars

def starPart (term : WrittenTerm) : List Char :=
  match term.star with
  | none => []
  | some gap => '*' :: gap.chars

/-- A term without its sign and the blanks at its end. -/
def body (term : WrittenTerm) : List Char :=
  term.numberPart ++ (term.starPart ++ term.name.toList)

/-- A term without the blanks at its end. -/
def core (term : WrittenTerm) : List Char := term.signPart ++ term.body

def chars (term : WrittenTerm) : List Char := term.core ++ term.after.chars

/-- The number that a term gives to its variable: the written one, or one if there is none, and
negated after a minus. -/
def value (term : WrittenTerm) : α :=
  let magnitude : α :=
    match term.number with
    | none => 1
    | some (literal, _) => Scalar.ofDecimal (literal.decimal false)
  if term.sign.any Prod.fst then -magnitude else magnitude

/-- What is read of a term. -/
def toTerm (term : WrittenTerm) : Term where
  negative := term.sign.any Prod.fst
  literal := term.number.map (·.1.decimal false)
  name := term.name

theorem coefficient_toTerm (term : WrittenTerm) :
    (term.toTerm.coefficient : α) = term.value := by
  unfold value toTerm Term.coefficient
  cases term.number <;> rfl

theorem toList_name (term : WrittenTerm) :
    term.name.toList = 'x' :: Nat.toDigits 10 term.index :=
  (toList_numberedName (rfl : "x".toList = ['x']) term.index).trans
    (congrArg ('x' :: ·) Nat.toList_repr)

theorem isVariable_name (term : WrittenTerm) : isVariable term.name.toList = true := by
  obtain ⟨lead, rest, digits, leading⟩ := exists_toDigits_eq_cons term.positive
  rw [toList_name, digits, isVariable, leading, Bool.true_and, List.all_eq_true]
  intro char member
  have inDigits : char ∈ Nat.toDigits 10 term.index := digits ▸ List.mem_cons_of_mem _ member
  exact isDigit_of_mem_toDigits inDigits

/-- The form of a term as the grammar has it. -/
def form (term : WrittenTerm) : TermForm where
  sign := term.sign.map Prod.fst
  afterSign := (term.sign.map Prod.snd).getD .empty
  number := term.number.map Prod.fst
  afterNumber := (term.number.map Prod.snd).getD .empty
  star := term.star.isSome
  afterStar := term.star.getD .empty
  name := term.name.toList
  isVariable_name := term.isVariable_name

theorem body_form (term : WrittenTerm) : term.form.body = term.body := by
  unfold body numberPart starPart
  cases number : term.number <;> cases star : term.star <;>
    simp [form, TermForm.body, TermForm.starred, numberChars, starChars, Gap.empty, number, star]

theorem chars_form (term : WrittenTerm) : term.form.chars = term.core := by
  rw [TermForm.chars, body_form, core, signPart]
  cases sign : term.sign <;> simp [form, signChars, Gap.empty, sign]

theorem toTerm_form (term : WrittenTerm) : term.form.toTerm = term.toTerm := by
  unfold form toTerm TermForm.toTerm
  cases term.sign <;> simp [Function.comp_def]

/-- The variable of a term has the number that it was written with. -/
theorem variableNumber_name (term : WrittenTerm) :
    variableNumber term.name = .ok term.index := by
  have short := term.short
  rw [variableNumber_eq term.isVariable_name, digitCount, spelledNumber, toList_name,
    List.drop_one, List.tail_cons, if_neg (by omega), ofDigits_toDigits]

/-- The variable of a term determines its number. -/
theorem name_eq_iff {term : WrittenTerm} {index : Nat} :
    term.name = s!"x{index}" ↔ term.index = index :=
  ⟨fun same => (numberedName_inj rfl same).2, fun same => by rw [← same]; rfl⟩

end WrittenTerm

theorem isRelationStart_eq_false_of_isTermChar {char : Char}
    (allowed : isTermChar char = true) : isRelationStart char = false := by
  rw [Bool.eq_false_iff, Ne, isRelationStart_iff]
  rintro (rfl | rfl | rfl) <;> exact absurd allowed (by decide)

namespace WrittenTerm

variable {term : WrittenTerm} {char : Char}

theorem isTermChar_of_mem_body (member : char ∈ term.body) : isTermChar char = true :=
  TermForm.isTermChar_of_mem_body (term.body_form ▸ member)

theorem unsigned_body_after (term : WrittenTerm) : Unsigned (term.body ++ term.after.chars) :=
  Unsigned.append (fun _ member => isSign_eq_false_of_isTermChar (isTermChar_of_mem_body member))
    (unsigned_of_blank term.after.blank)

/-- After the number of a term come its star or its variable. -/
theorem eq_of_mem_head?_starred (first : char ∈ (term.starPart ++ term.name.toList).head?) :
    char = '*' ∨ char = 'x' := by
  unfold starPart at first
  split at first
  · rw [List.nil_append, toList_name] at first
    exact .inr (Option.some.inj first).symm
  · exact .inl (Option.some.inj first).symm

/-- A term without its sign does not begin with a blank. -/
theorem isBlank_eq_false_of_mem_head?_body (first : char ∈ term.body.head?) :
    isBlank char = false := by
  unfold body numberPart at first
  split at first
  · rcases eq_of_mem_head?_starred first with rfl | rfl <;> decide
  · rename_i literal gap number
    cases chars : literal.chars with
    | nil => exact absurd chars literal.chars_ne_nil
    | cons lead rest =>
      rw [chars] at first
      obtain rfl := Option.some.inj first
      exact Literal.isBlank_eq_false_of_mem_chars (chars ▸ List.mem_cons_self)

/-- A written term is read. -/
theorem readTerm?_core (term : WrittenTerm) : readTerm? term.core = some term.toTerm := by
  rw [← chars_form, ← toTerm_form, term.form.readTerm?_chars]

/-- A term begins and ends with a token. -/
theorem kept_core (term : WrittenTerm) : Kept isBlank term.core where
  first := by
    intro char first
    unfold core signPart at first
    split at first
    · exact isBlank_eq_false_of_mem_head?_body first
    · rename_i negative gap sign
      cases negative <;> obtain rfl := Option.some.inj first <;> decide
  last := by
    intro char last
    have digits : Nat.toDigits 10 term.index ≠ [] := Nat.toDigits_ne_nil
    rw [core, body, ← List.append_assoc, ← List.append_assoc, List.getLast?_append, toList_name,
      List.getLast?_cons, List.getLast?_eq_some_getLast digits] at last
    obtain rfl := Option.some.inj last
    exact isBlank_eq_false_of_isDigit (isDigit_of_mem_toDigits (List.getLast_mem digits))

theorem trim_chars (term : WrittenTerm) : trim term.chars = term.core :=
  (trimBy_append_right term.after.blank term.core).trans term.kept_core.trimBy_eq

theorem core_ne_nil (term : WrittenTerm) : term.core ≠ [] := by
  intro empty
  have named : 'x' ∈ term.core := by simp [core, body, toList_name]
  rw [empty] at named
  cases named

end WrittenTerm

/-- An expression as it is written: terms, of which only the first may go without a sign. -/
structure WrittenExpression where
  before : Gap
  first : WrittenTerm
  further : List WrittenTerm
  signed : ∀ term ∈ further, term.sign.isSome

namespace WrittenExpression

def terms (expression : WrittenExpression) : List WrittenTerm :=
  expression.first :: expression.further

/-- An expression without the blanks in front. -/
def body (expression : WrittenExpression) : List Char :=
  expression.first.chars ++ (expression.further.map WrittenTerm.chars).flatten

def chars (expression : WrittenExpression) : List Char :=
  expression.before.chars ++ expression.body

def text (expression : WrittenExpression) : String := String.ofList expression.chars

/-- The sum of what the terms of a variable give to it, from the left. -/
def coefficient (expression : WrittenExpression) (index : Nat) : α :=
  ((expression.terms.filter (·.index = index)).map WrittenTerm.value).foldl (· + ·) 0

end WrittenExpression

theorem WrittenTerm.signLed {term : WrittenTerm} (signed : term.sign.isSome) :
    SignLed term.chars := by
  have unsigned := term.unsigned_body_after
  unfold chars core signPart
  split
  · rename_i none
    simp [none] at signed
  · rename_i negative gap _
    have rest : Unsigned (gap.chars ++ (term.body ++ term.after.chars)) :=
      (unsigned_of_blank gap.blank).append unsigned
    have leading : isSign (if negative then '-' else '+') = true := by cases negative <;> rfl
    simpa [signChars] using SignLed.intro leading rest

namespace WrittenExpression

variable {char : Char}

/-- The fragments of an expression are its terms. -/
theorem fragments_body (expression : WrittenExpression) :
    fragments expression.body = expression.terms.map WrittenTerm.core := by
  have led : ∀ piece ∈ expression.further.map WrittenTerm.chars, SignLed piece := by
    intro piece member
    obtain ⟨term, listed, rfl⟩ := List.mem_map.1 member
    exact WrittenTerm.signLed (expression.signed term listed)
  have trimmed (terms : List WrittenTerm) : ((terms.map WrittenTerm.chars).map trim).filter
      (fun piece => !piece.isEmpty) = terms.map WrittenTerm.core := by
    rw [List.map_map, List.map_congr_left fun term _ => term.trim_chars, List.filter_eq_self]
    intro piece member
    obtain ⟨term, -, rfl⟩ := List.mem_map.1 member
    simp [term.core_ne_nil]
  -- Without a sign the first term is the first piece; with one it follows an empty piece.
  cases sign : expression.first.sign with
  | none =>
    have unsigned : Unsigned expression.first.chars := by
      have body := expression.first.unsigned_body_after
      simpa [WrittenTerm.chars, WrittenTerm.core, WrittenTerm.signPart, sign] using body
    rw [fragments, body, cutAtSigns_joined ⟨unsigned, led⟩]
    exact trimmed expression.terms
  | some signed =>
    have first : SignLed expression.first.chars := WrittenTerm.signLed (by simp [sign])
    have cut : Cut [] (expression.terms.map WrittenTerm.chars) :=
      ⟨by simp [Unsigned], List.forall_mem_cons.2 ⟨first, led⟩⟩
    have pieces := cutAtSigns_joined cut
    rw [fragments, body, ← List.flatten_cons, ← List.map_cons, ← List.nil_append (List.flatten _),
      ← terms, pieces]
    exact trimmed expression.terms

theorem fragments_text (expression : WrittenExpression) :
    fragments expression.text.toList = expression.terms.map WrittenTerm.core := by
  rw [text, String.toList_ofList, chars, fragments_blank_append expression.before.blank,
    fragments_body]

theorem isRelationStart_eq_false_of_mem_body (expression : WrittenExpression) {char : Char}
    (member : char ∈ expression.body) : isRelationStart char = false := by
  have inTerm {term : WrittenTerm} (member : char ∈ term.chars) :
      isRelationStart char = false := by
    rw [WrittenTerm.chars, WrittenTerm.core, List.mem_append, List.mem_append] at member
    rcases member with (inSign | inBody) | inGap
    · unfold WrittenTerm.signPart at inSign
      split at inSign
      · cases inSign
      · rename_i negative gap _
        rcases List.mem_append.1 inSign with isSign | inGap
        · cases negative <;> rw [List.mem_singleton.1 isSign] <;> rfl
        · exact isRelationStart_eq_false_of_isTermChar
            (isTermChar_of_isBlank (gap.blank char inGap))
    · exact isRelationStart_eq_false_of_isTermChar (WrittenTerm.isTermChar_of_mem_body inBody)
    · exact isRelationStart_eq_false_of_isTermChar
        (isTermChar_of_isBlank (term.after.blank char inGap))
  rcases List.mem_append.1 member with inFirst | inFurther
  · exact inTerm inFirst
  · obtain ⟨piece, listed, inPiece⟩ := List.mem_flatten.1 inFurther
    obtain ⟨term, -, rfl⟩ := List.mem_map.1 listed
    exact inTerm inPiece

/-- An expression without the blanks in front begins with a token. -/
theorem exists_body_eq_cons (expression : WrittenExpression) :
    ∃ char rest, expression.body = char :: rest ∧ isBlank char = false := by
  have first := expression.first.kept_core.first
  cases core : expression.first.core with
  | nil => exact absurd core expression.first.core_ne_nil
  | cons char rest =>
    rw [core] at first
    exact ⟨char, _, by rw [body, WrittenTerm.chars, core]; rfl, first char rfl⟩

theorem trimmed_text_ne_empty (expression : WrittenExpression) :
    trimmed (some expression.text) ≠ "" := by
  rw [Ne, trimmed_eq_empty_iff]
  intro blank
  obtain ⟨lead, rest, cons, notBlank⟩ := expression.exists_body_eq_cons
  have leadBlank := blank lead (by simp [text, chars, cons])
  rw [notBlank] at leadBlank
  cases leadBlank

end WrittenExpression

section Found

variable {text : String} {written : List WrittenTerm}

theorem terms_of_fragments (found : fragments text.toList = written.map WrittenTerm.core) :
    terms text = written.map WrittenTerm.toTerm := by
  rw [terms, found, List.filterMap_map]
  exact (List.filterMap_congr fun term _ => term.readTerm?_core).trans
    (congrFun List.filterMap_eq_map' _)

/-- The identifiers of written terms are their variables. -/
theorem mem_identifiers_of_fragments
    (found : fragments text.toList = written.map WrittenTerm.core) {name : String} :
    name ∈ identifiers text ↔ ∃ term ∈ written, term.name = name := by
  have single (term : WrittenTerm) : identifiersAfter none term.core = [term.name.toList] :=
    identifiersAfter_of_readTerm? term.readTerm?_core
  rw [mem_identifiers_iff, identifiersAfter_eq_fragments, found]
  simp [List.mem_flatMap, single, String.toList_inj, eq_comm]

/-- What the terms of a variable give to it is summed from the left. -/
theorem coefficientOf_of_fragments
    (found : fragments text.toList = written.map WrittenTerm.core) (index : Nat) :
    (coefficientOf text s!"x{index}" : α) =
      ((written.filter (·.index = index)).map WrittenTerm.value).foldl (· + ·) 0 := by
  have same (term : WrittenTerm) : term.toTerm.name = s!"x{index}" ↔ term.index = index :=
    WrittenTerm.name_eq_iff
  rw [coefficientOf, terms_of_fragments found, List.foldl_map, List.foldl_map, List.foldl_filter]
  simp only [same, WrittenTerm.coefficient_toTerm, decide_eq_true_eq]

theorem layOut_of_fragments (found : fragments text.toList = written.map WrittenTerm.core)
    (indices : List Nat) :
    layOut (indices.map fun index => s!"x{index}") text = indices.map fun index =>
      (((written.filter (·.index = index)).map WrittenTerm.value).foldl (· + ·) 0 : α) := by
  rw [layOut, List.map_map]
  exact List.map_congr_left fun index _ => coefficientOf_of_fragments found index

end Found

end Simplex.Text
