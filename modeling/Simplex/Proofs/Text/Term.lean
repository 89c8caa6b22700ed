import Simplex.Proofs.Text.Number

/-!
# The grammar of terms

A `TermForm` is a term as it stands in a fragment: a sign, a number and a star, each optional, and
a variable, with blanks between them. The reader of terms is this grammar and nothing else.
Whatever has a form is read, as what the form says (`TermForm.readTerm?_chars`), and whatever is
read has a form (`exists_termForm_of_readTerm?`). A fragment may have several forms, as blanks may
stand on either side of a star that is missing, but they all say the same.
-/

namespace Simplex.Text

/-- Blanks between two tokens. -/
structure Gap where
  chars : List Char
  blank : Blank chars

/-- Tokens that touch. -/
def Gap.empty : Gap := ⟨[], by simp [Blank]⟩

/-- What comes after a gap is a blank or what comes after the blanks. -/
theorem Gap.isBlank_or_of_mem_head? {gap : Gap} {text : List Char} {char : Char}
    (first : char ∈ (gap.chars ++ text).head?) : isBlank char = true ∨ char ∈ text.head? := by
  have blank := gap.blank
  cases chars : gap.chars with
  | nil =>
    rw [chars] at first
    exact .inr first
  | cons lead rest =>
    rw [chars] at first blank
    obtain rfl := Option.some.inj first
    exact .inl (blank lead List.mem_cons_self)

/-- A number, if there is one. -/
def numberChars (number : Option Literal) : List Char := (number.map Literal.chars).getD []

/-- A star, if there is one. -/
def starChars (star : Bool) : List Char := if star then ['*'] else []

/-- A term as it is written in a fragment. -/
structure TermForm where
  /-- Whether the sign is a minus, if there is a sign. -/
  sign : Option Bool
  afterSign : Gap
  number : Option Literal
  afterNumber : Gap
  star : Bool
  afterStar : Gap
  name : List Char
  isVariable_name : isVariable name = true

namespace TermForm

/-- A term from its star on, or from where the star would be. -/
def starred (form : TermForm) : List Char :=
  starChars form.star ++ (form.afterStar.chars ++ form.name)

/-- A term without its sign and the blanks after it. -/
def body (form : TermForm) : List Char :=
  numberChars form.number ++ (form.afterNumber.chars ++ form.starred)

/-- What the body of a term has before its variable. -/
def front (form : TermForm) : List Char :=
  numberChars form.number ++
    (form.afterNumber.chars ++ (starChars form.star ++ form.afterStar.chars))

theorem body_eq (form : TermForm) : form.body = form.front ++ form.name := by
  simp [body, starred, front]

def chars (form : TermForm) : List Char :=
  signChars form.sign ++ (form.afterSign.chars ++ form.body)

/-- What a form says. -/
def toTerm (form : TermForm) : Term where
  negative := form.sign == some true
  literal := form.number.map (·.decimal false)
  name := String.ofList form.name

end TermForm

section Characters

/-- The characters of terms apart from their signs. -/
def isTermChar (char : Char) : Bool :=
  isBlank char || isDigit char || char == '.' || char == '*' || char == 'x'

variable {char : Char}

theorem isSign_eq_false_of_isTermChar (allowed : isTermChar char = true) :
    isSign char = false := by
  rw [Bool.eq_false_iff, Ne, isSign_iff]
  rintro (rfl | rfl) <;> exact absurd allowed (by decide)

theorem isTermChar_of_isBlank (blank : isBlank char = true) : isTermChar char = true := by
  simp [isTermChar, blank]

theorem isTermChar_of_isDigit (digit : isDigit char = true) : isTermChar char = true := by
  simp [isTermChar, digit]

theorem Literal.isTermChar_of_mem_chars {literal : Literal} (member : char ∈ literal.chars) :
    isTermChar char = true := by
  rcases isDigit_or_eq_of_mem_chars member with digit | rfl
  · exact isTermChar_of_isDigit digit
  · rfl

theorem Literal.isBlank_eq_false_of_mem_chars {literal : Literal}
    (member : char ∈ literal.chars) : isBlank char = false := by
  rcases isDigit_or_eq_of_mem_chars member with digit | rfl
  · exact isBlank_eq_false_of_isDigit digit
  · decide

end Characters

/-- A variable is the letter and its digits. -/
theorem exists_of_isVariable {name : List Char} (variableName : isVariable name = true) :
    ∃ lead rest, name = 'x' :: lead :: rest ∧ isLeadingDigit lead = true ∧
      ∀ char ∈ rest, isDigit char = true := by
  unfold isVariable at variableName
  split at variableName
  · rename_i lead rest
    rw [Bool.and_eq_true, List.all_eq_true] at variableName
    exact ⟨lead, rest, rfl, variableName⟩
  · cases variableName

namespace TermForm

variable {char : Char}

theorem head?_name (form : TermForm) : form.name.head? = some 'x' := by
  obtain ⟨lead, rest, name, -⟩ := exists_of_isVariable form.isVariable_name
  rw [name]
  rfl

theorem isBlank_eq_false_of_mem_head?_name {form : TermForm} (first : char ∈ form.name.head?) :
    isBlank char = false := by
  rw [head?_name] at first
  obtain rfl := Option.some.inj first
  decide

/-- Blanks, digits, points and stars stand before the variable. -/
theorem allowed_of_mem_front {form : TermForm} (member : char ∈ form.front) :
    isTermChar char = true ∧ isBeforeVariable char = true := by
  have blank {gap : Gap} (member : char ∈ gap.chars) :
      isTermChar char = true ∧ isBeforeVariable char = true :=
    ⟨isTermChar_of_isBlank (gap.blank char member),
      isBeforeVariable_of_isBlank (gap.blank char member)⟩
  simp only [front, List.mem_append] at member
  rcases member with inNumber | inGap | inStar | inGap
  · unfold numberChars at inNumber
    cases number : form.number with
    | none => simp [number] at inNumber
    | some literal =>
      rw [number] at inNumber
      rcases literal.isDigit_or_eq_of_mem_chars inNumber with digit | rfl
      · exact ⟨isTermChar_of_isDigit digit, isBeforeVariable_of_isDigit digit⟩
      · decide
  · exact blank inGap
  · unfold starChars at inStar
    split_ifs at inStar
    · rw [List.mem_singleton.1 inStar]
      decide
    · cases inStar
  · exact blank inGap

theorem isTermChar_of_mem_body {form : TermForm} (member : char ∈ form.body) :
    isTermChar char = true := by
  rw [body_eq, List.mem_append] at member
  rcases member with inFront | inName
  · exact (allowed_of_mem_front inFront).1
  · obtain ⟨lead, rest, name, leading, digits⟩ := exists_of_isVariable form.isVariable_name
    rw [name, List.mem_cons, List.mem_cons] at inName
    rcases inName with rfl | rfl | inRest
    · rfl
    · exact isTermChar_of_isDigit (isDigit_of_isLeadingDigit leading)
    · exact isTermChar_of_isDigit (digits char inRest)

/-- Blanks before a star or a variable are skipped, and the rest begins with either. -/
theorem skipBlanks_starred (form : TermForm) :
    skipBlanks form.starred = if form.star then form.starred else form.name := by
  unfold starred
  cases form.star with
  | true => exact skipBlanks_eq_self (by rintro char ⟨⟩; decide)
  | false =>
    exact skipBlanks_of_blank_append form.afterStar.blank
      fun _ => isBlank_eq_false_of_mem_head?_name

theorem eq_of_mem_head?_skipBlanks_starred {form : TermForm}
    (first : char ∈ (skipBlanks form.starred).head?) : char = '*' ∨ char = 'x' := by
  rw [skipBlanks_starred, starred] at first
  cases star : form.star with
  | true =>
    rw [star] at first
    exact .inl (Option.some.inj first).symm
  | false =>
    rw [star, if_neg Bool.false_ne_true, head?_name] at first
    exact .inr (Option.some.inj first).symm

/-- The star of a term is taken off together with the blanks around it. -/
theorem skipStar_starred (form : TermForm) :
    skipBlanks (skipStar (skipBlanks form.starred)) = form.name := by
  have stop : ∀ char ∈ form.name.head?, isBlank char = false :=
    fun _ => isBlank_eq_false_of_mem_head?_name
  rw [skipBlanks_starred]
  cases star : form.star with
  | true =>
    simp only [starred, star, if_true]
    exact skipBlanks_of_blank_append form.afterStar.blank stop
  | false =>
    obtain ⟨lead, rest, name, -⟩ := exists_of_isVariable form.isVariable_name
    have starless : skipStar form.name = form.name := by
      rw [name]
      rfl
    rw [if_neg Bool.false_ne_true, starless, skipBlanks_eq_self stop]

/-- What follows the number of a term does not go on with it. -/
theorem stop_of_mem_head?_afterNumber {form : TermForm}
    (first : char ∈ (form.afterNumber.chars ++ form.starred).head?) :
    isDigit char = false ∧ char ≠ '.' := by
  have blank (blank : isBlank char = true) : isDigit char = false ∧ char ≠ '.' := by
    refine ⟨isDigit_eq_false_of_isBlank blank, ?_⟩
    rintro rfl
    exact absurd blank (by decide)
  rcases Gap.isBlank_or_of_mem_head? first with inGap | inStarred
  · exact blank inGap
  · unfold starred at inStarred
    cases star : form.star with
    | true =>
      rw [star] at inStarred
      obtain rfl := Option.some.inj inStarred
      decide
    | false =>
      rw [star] at inStarred
      rcases Gap.isBlank_or_of_mem_head? inStarred with inGap | inName
      · exact blank inGap
      · rw [head?_name] at inName
        obtain rfl := Option.some.inj inName
        decide

/-- The number of a term is taken off together with the blanks around it. -/
theorem literalPrefix_body (form : TermForm) :
    (literalPrefix (skipBlanks form.body)).1 = form.number.map (·.decimal false) ∧
      skipBlanks (literalPrefix (skipBlanks form.body)).2 = skipBlanks form.starred := by
  unfold body numberChars
  cases form.number with
  | none =>
    -- Without a number the blanks on its two sides are skipped together.
    have stop : ∀ char ∈ (skipBlanks form.starred).head?,
        isBlank char = false ∧ isDigit char = false ∧ char ≠ '.' := by
      intro char first
      rcases eq_of_mem_head?_skipBlanks_starred first with rfl | rfl <;> decide
    simp only [Option.map_none, Option.getD_none, List.nil_append,
      skipBlanks_append form.afterNumber.blank,
      literalPrefix_eq_none fun char first => (stop char first).2, true_and]
    exact skipBlanks_eq_self fun char first => (stop char first).1
  | some literal =>
    have kept : ∀ char ∈ (literal.chars ++ (form.afterNumber.chars ++ form.starred)).head?,
        isBlank char = false := by
      intro char first
      rw [List.head?_append_of_ne_nil _ literal.chars_ne_nil] at first
      exact Literal.isBlank_eq_false_of_mem_chars (List.mem_of_mem_head? first)
    simp only [Option.map_some, Option.getD_some, skipBlanks_eq_self kept,
      literal.literalPrefix_chars fun _ => stop_of_mem_head?_afterNumber, true_and]
    exact skipBlanks_append form.afterNumber.blank _

/-- A term that has a form is read as what the form says. -/
theorem readTerm?_chars (form : TermForm) : readTerm? form.chars = some form.toTerm := by
  have unsigned : form.sign = none → ∀ char ∈ (form.afterSign.chars ++ form.body).head?,
      isSign char = false := by
    intro _ char first
    rcases List.mem_append.1 (List.mem_of_mem_head? first) with inGap | inBody
    · exact isSign_eq_false_of_isBlank (form.afterSign.blank char inGap)
    · exact isSign_eq_false_of_isTermChar (isTermChar_of_mem_body inBody)
  obtain ⟨number, starred⟩ := form.literalPrefix_body
  simp only [readTerm?, chars, signed_append form.sign unsigned,
    skipBlanks_append form.afterSign.blank, number, starred, form.skipStar_starred,
    form.isVariable_name, if_true]
  rfl

/-- Forms of one text say the same. -/
theorem toTerm_eq_of_chars_eq {first second : TermForm} (same : first.chars = second.chars) :
    first.toTerm = second.toTerm := by
  have read := first.readTerm?_chars
  rw [same, second.readTerm?_chars] at read
  exact (Option.some.inj read).symm

end TermForm

/-- What is read at the front of a text as a number is one. -/
theorem exists_literalPrefix_eq (text : List Char) :
    ∃ number rest, text = numberChars number ++ rest ∧
      literalPrefix text = (number.map (·.decimal false), rest) := by
  obtain ⟨whole, fraction, rest, digits, split, run⟩ := exists_fractionRun_eq text
  simp only [literalPrefix, run]
  split_ifs with missing
  · exact ⟨none, text, rfl, rfl⟩
  · have nonempty : whole ++ fraction.getD [] ≠ [] := by
      intro empty
      obtain ⟨noWhole, noFraction⟩ := List.append_eq_nil_iff.1 empty
      exact missing (by simp [noWhole, noFraction])
    let literal : Literal := ⟨whole, fraction, digits, nonempty⟩
    have value := literal.decimalOf_eq false
    exact ⟨some literal, rest, split, congrArg (fun value => (some value, rest)) value⟩

theorem exists_skipStar_eq (text : List Char) :
    ∃ star, text = starChars star ++ skipStar text := by
  unfold skipStar
  split
  · exact ⟨true, rfl⟩
  · exact ⟨false, rfl⟩

/-- What is read as a term has a form, which says what is read. -/
theorem exists_termForm_of_readTerm? {fragment : List Char} {term : Term}
    (read : readTerm? fragment = some term) :
    ∃ form : TermForm, form.chars = fragment ∧ form.toTerm = term := by
  obtain ⟨sign, afterSign, signSplit, signedText⟩ := exists_signed_eq fragment
  obtain ⟨signGap, signBlank, signGapSplit⟩ := exists_blank_append_skipBlanks afterSign
  obtain ⟨number, afterNumber, numberSplit, numberRead⟩ :=
    exists_literalPrefix_eq (skipBlanks afterSign)
  obtain ⟨numberGap, numberBlank, numberGapSplit⟩ := exists_blank_append_skipBlanks afterNumber
  obtain ⟨star, starSplit⟩ := exists_skipStar_eq (skipBlanks afterNumber)
  obtain ⟨starGap, starBlank, starGapSplit⟩ :=
    exists_blank_append_skipBlanks (skipStar (skipBlanks afterNumber))
  simp only [readTerm?, signedText, numberRead, Option.ite_none_right_eq_some,
    Option.some.injEq] at read
  obtain ⟨variableName, rfl⟩ := read
  refine ⟨⟨sign, ⟨signGap, signBlank⟩, number, ⟨numberGap, numberBlank⟩, star,
    ⟨starGap, starBlank⟩, _, variableName⟩, ?_, rfl⟩
  simp only [TermForm.chars, TermForm.body, TermForm.starred]
  rw [← starGapSplit, ← starSplit, ← numberGapSplit, ← numberSplit, ← signGapSplit, ← signSplit]

/-- A term ends in its name, and only characters that may stand before a variable come first. -/
theorem exists_append_name_of_readTerm? {fragment : List Char} {term : Term}
    (read : readTerm? fragment = some term) :
    isVariable term.name.toList = true ∧
      ∃ front, (∀ char ∈ front, isBeforeVariable char = true) ∧
        fragment = front ++ term.name.toList := by
  obtain ⟨form, rfl, rfl⟩ := exists_termForm_of_readTerm? read
  rw [TermForm.toTerm, String.toList_ofList]
  refine ⟨form.isVariable_name, signChars form.sign ++ (form.afterSign.chars ++ form.front), ?_, ?_⟩
  · intro char member
    simp only [List.mem_append] at member
    rcases member with inSign | inGap | inFront
    · exact isBeforeVariable_of_isSign (isSign_of_mem_signChars inSign)
    · exact isBeforeVariable_of_isBlank (form.afterSign.blank char inGap)
    · exact (TermForm.allowed_of_mem_front inFront).2
  · simp [TermForm.chars, TermForm.body_eq]

/-- Exactly the texts that have a form are read. -/
theorem readTerm?_eq_some_iff {fragment : List Char} {term : Term} :
    readTerm? fragment = some term ↔
      ∃ form : TermForm, form.chars = fragment ∧ form.toTerm = term := by
  refine ⟨exists_termForm_of_readTerm?, ?_⟩
  rintro ⟨form, rfl, rfl⟩
  exact form.readTerm?_chars

end Simplex.Text
