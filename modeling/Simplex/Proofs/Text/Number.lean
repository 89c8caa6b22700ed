import Simplex.Proofs.Text.Character
import Simplex.Proofs.Text.Trim
import Simplex.Text.Constraint

/-!
# Numbers as they are written

A `Literal` is a number of decimal digits as it stands in a text. Readers take exactly the literal
off a text that goes on with something else, and give its value: `literalPrefix_chars` for the
numbers of terms, `readNumeral?_chars` for those of constraints. In the other direction
`isNumeralChar_of_readNumeral?` says which characters a finite number is made of.
-/

namespace Simplex.Text

section Run

variable {digit? : Char → Option Nat} {text rest : List Char}

/-- A run of digits ends where no digit follows. -/
theorem digitRun_append (digits : ∀ char ∈ text, (digit? char).isSome = true)
    (stop : ∀ char ∈ rest.head?, digit? char = none) :
    digitRun digit? (text ++ rest) = (text.filterMap digit?, rest) := by
  induction text with
  | nil =>
    cases rest with
    | nil => rfl
    | cons char rest => simp [digitRun, stop char rfl]
  | cons char text ih =>
    obtain ⟨value, digit⟩ := Option.isSome_iff_exists.1 (digits char List.mem_cons_self)
    have run := ih fun other member => digits other (List.mem_cons_of_mem _ member)
    simp [digitRun, digit, run]

/-- What a run takes off a text are digits, and their values are what it gives. -/
theorem exists_digitRun_eq (digit? : Char → Option Nat) (text : List Char) :
    ∃ digits rest, (∀ char ∈ digits, (digit? char).isSome = true) ∧ text = digits ++ rest ∧
      digitRun digit? text = (digits.filterMap digit?, rest) := by
  fun_induction digitRun digit? text with
  | case1 => exact ⟨[], [], by simp, rfl, rfl⟩
  | case2 char rest none => exact ⟨[], _, by simp, rfl, rfl⟩
  | case3 char rest value digit run ih =>
    obtain ⟨digits, further, all, split, values⟩ := ih
    refine ⟨char :: digits, further, by simpa [digit] using all, congrArg (char :: ·) split, ?_⟩
    simp [run, digit, values]

/-- Every digit of a text of digits has a value. -/
theorem length_filterMap_digits (digits : ∀ char ∈ text, (digit? char).isSome = true) :
    (text.filterMap digit?).length = text.length := by
  rw [List.length_filterMap_eq_countP, List.countP_eq_length]
  exact digits

end Run

section Sign

variable {text : List Char}

/-- A sign as it is written, if there is one. -/
def signChars : Option Bool → List Char
  | none => []
  | some negative => [if negative then '-' else '+']

theorem isSign_of_mem_signChars {sign : Option Bool} {char : Char}
    (member : char ∈ signChars sign) : isSign char = true := by
  match sign with
  | some true => exact List.mem_singleton.1 member ▸ rfl
  | some false => exact List.mem_singleton.1 member ▸ rfl

/-- A written sign is taken off a text, and nothing where there is none. -/
theorem signed_append (sign : Option Bool)
    (unsigned : sign = none → ∀ char ∈ text.head?, isSign char = false) :
    signed (signChars sign ++ text) = (sign == some true, text) := by
  match sign with
  | some true => rfl
  | some false => rfl
  | none =>
    cases text with
    | nil => rfl
    | cons char rest =>
      have plain := unsigned rfl char rfl
      simp only [isSign, Bool.or_eq_false_iff, beq_eq_false_iff_ne] at plain
      simp [signChars, signed, plain.1, plain.2]

/-- What is taken off a text as its sign is a sign. -/
theorem exists_signed_eq (text : List Char) :
    ∃ sign rest, text = signChars sign ++ rest ∧ signed text = (sign == some true, rest) := by
  unfold signed
  split
  · exact ⟨some true, _, rfl, rfl⟩
  · exact ⟨some false, _, rfl, rfl⟩
  · exact ⟨none, _, rfl, rfl⟩

end Sign

/-- Digits with a point before the second part of them, if there is one. -/
def pointed (whole : List Char) (fraction : Option (List Char)) : List Char :=
  whole ++ (fraction.map ('.' :: ·)).getD []

theorem isDigit_or_eq_of_mem_pointed {whole : List Char} {fraction : Option (List Char)}
    (digits : ∀ char ∈ whole ++ fraction.getD [], isDigit char = true) {char : Char}
    (member : char ∈ pointed whole fraction) : isDigit char = true ∨ char = '.' := by
  unfold pointed at member
  cases fraction with
  | none => exact .inl (digits char (by simpa using member))
  | some fraction =>
    simp only [Option.map_some, Option.getD_some, List.mem_append, List.mem_cons] at digits member
    rcases member with inWhole | rfl | inFraction
    · exact .inl (digits char (.inl inWhole))
    · exact .inr rfl
    · exact .inl (digits char (.inr inFraction))

/-- What is read of a text around a point are digits, and their values are what is given. -/
theorem exists_fractionRun_eq (text : List Char) :
    ∃ whole fraction rest, (∀ char ∈ whole ++ fraction.getD [], isDigit char = true) ∧
      text = pointed whole fraction ++ rest ∧
      fractionRun digitValue? text =
        (whole.filterMap digitValue?, (fraction.getD []).filterMap digitValue?, rest) := by
  obtain ⟨whole, afterWhole, wholeDigits, split, run⟩ := exists_digitRun_eq digitValue? text
  simp only [fractionRun, run]
  split
  · rename_i afterPoint
    obtain ⟨fraction, rest, fractionDigits, fractionSplit, fractionRun⟩ :=
      exists_digitRun_eq digitValue? afterPoint
    refine ⟨whole, some fraction, rest, fun char member => ?_, ?_, by rw [fractionRun]; rfl⟩
    · exact (List.mem_append.1 member).elim (wholeDigits char) (fractionDigits char)
    · simp [split, fractionSplit, pointed]
  · exact ⟨whole, none, afterWhole, by simpa [isDigit] using wholeDigits,
      by simp [split, pointed], rfl⟩

/-- A number as it is written: digits of any script, and possibly a point among them. -/
structure Literal where
  whole : List Char
  /-- What follows the point, if there is a point. -/
  fraction : Option (List Char)
  digits : ∀ char ∈ whole ++ fraction.getD [], isDigit char = true
  nonempty : whole ++ fraction.getD [] ≠ []

namespace Literal

variable {rest : List Char}

/-- The characters of a number. -/
def chars (literal : Literal) : List Char := pointed literal.whole literal.fraction

/-- The numeral that a number denotes after a sign. -/
def decimal (literal : Literal) (negative : Bool) : Decimal where
  negative := negative
  mantissa := Decimal.ofDigits ((literal.whole ++ literal.fraction.getD []).filterMap digitValue?)
  exponent := -(literal.fraction.getD []).length

theorem isDigit_or_eq_of_mem_chars {literal : Literal} {char : Char}
    (member : char ∈ literal.chars) : isDigit char = true ∨ char = '.' :=
  isDigit_or_eq_of_mem_pointed literal.digits member

theorem chars_ne_nil (literal : Literal) : literal.chars ≠ [] := by
  have nonempty := literal.nonempty
  unfold chars pointed
  cases point : literal.fraction with
  | none => simpa [point] using nonempty
  | some fraction => simp

/-- The digits of a number are read up to where neither a digit nor a point follows. -/
theorem fractionRun_chars (literal : Literal)
    (stop : ∀ char ∈ rest.head?, isDigit char = false ∧ char ≠ '.') :
    fractionRun digitValue? (literal.chars ++ rest) =
      (literal.whole.filterMap digitValue?, (literal.fraction.getD []).filterMap digitValue?,
        rest) := by
  have digits := literal.digits
  have ends : ∀ char ∈ rest.head?, digitValue? char = none := fun char first =>
    Option.isSome_eq_false_iff.1 (stop char first).1 |> Option.isNone_iff_eq_none.1
  unfold chars pointed
  cases point : literal.fraction with
  | none =>
    have whole : digitRun digitValue? (literal.whole ++ rest) = _ := digitRun_append
      (fun char member => digits char (List.mem_append_left _ member)) ends
    simp only [Option.map_none, Option.getD_none, List.append_nil, List.filterMap_nil,
      fractionRun, whole]
    cases rest with
    | nil => rfl
    | cons char rest => simp [(stop char rfl).2]
  | some fraction =>
    simp only [point, Option.getD_some, List.mem_append] at digits
    have whole : digitRun digitValue? (literal.whole ++ '.' :: (fraction ++ rest)) = _ :=
      digitRun_append (fun char member => digits char (.inl member)) (by simp; decide)
    have further : digitRun digitValue? (fraction ++ rest) = _ :=
      digitRun_append (fun char member => digits char (.inr member)) ends
    simp [fractionRun, whole, further]

/-- The numeral of digits that were read around a point. -/
theorem decimalOf_eq (literal : Literal) (negative : Bool) :
    decimalOf negative (literal.whole.filterMap digitValue?)
      ((literal.fraction.getD []).filterMap digitValue?) 0 = literal.decimal negative := by
  have digits : ∀ char ∈ literal.fraction.getD [], (digitValue? char).isSome = true :=
    fun char member => literal.digits char (List.mem_append_right _ member)
  rw [decimalOf, decimal, List.filterMap_append, length_filterMap_digits digits, zero_sub]

/-- Digits that were read around a point are not both missing. -/
theorem not_isEmpty_values (literal : Literal) :
    ¬ ((literal.whole.filterMap digitValue?).isEmpty = true ∧
      ((literal.fraction.getD []).filterMap digitValue?).isEmpty = true) := by
  rintro ⟨whole, fraction⟩
  have length : (List.filterMap digitValue? _).length = _ :=
    length_filterMap_digits literal.digits
  rw [List.filterMap_append, List.isEmpty_iff.1 whole, List.isEmpty_iff.1 fraction] at length
  exact literal.nonempty (List.length_eq_zero_iff.1 length.symm)

/-- A number is read in front of anything that does not go on with it. -/
theorem literalPrefix_chars (literal : Literal)
    (stop : ∀ char ∈ rest.head?, isDigit char = false ∧ char ≠ '.') :
    literalPrefix (literal.chars ++ rest) = (some (literal.decimal false), rest) := by
  simp only [literalPrefix, literal.fractionRun_chars stop, literal.not_isEmpty_values,
    if_false, literal.decimalOf_eq]

/-- A written number is read with its sign. -/
theorem readDecimal?_chars (literal : Literal) (negative : Bool) :
    readDecimal? digitValue? negative literal.chars = some (literal.decimal negative) := by
  have run : fractionRun digitValue? (literal.chars ++ []) = _ :=
    literal.fractionRun_chars (by simp)
  rw [List.append_nil] at run
  simp only [readDecimal?, run, literal.not_isEmpty_values, if_false, readExponent,
    Option.map_some, literal.decimalOf_eq]

end Literal

/-- No number is read in front of a character that neither is a digit nor a point. -/
theorem literalPrefix_eq_none {text : List Char}
    (stop : ∀ char ∈ text.head?, isDigit char = false ∧ char ≠ '.') :
    literalPrefix text = (none, text) := by
  cases text with
  | nil => rfl
  | cons char rest =>
    obtain ⟨digit, point⟩ := stop char rfl
    have value : digitValue? char = none := by simpa [isDigit] using digit
    simp [literalPrefix, fractionRun, digitRun, value, point]

section Ungroup

variable {text : List Char} {isDigit : Char → Bool}

/-- Only underscores are left out. -/
theorem eq_or_mem_ungroup {char : Char} (member : char ∈ text) (afterDigit : Bool) :
    char = '_' ∨ char ∈ ungroup isDigit afterDigit text := by
  fun_induction ungroup isDigit afterDigit text with
  | case1 => cases member
  | case2 afterDigit first rest grouped ih =>
    rcases List.mem_cons.1 member with rfl | later
    · exact .inl grouped.1
    · exact ih later
  | case3 afterDigit first rest plain ih =>
    rcases List.mem_cons.1 member with rfl | later
    · exact .inr List.mem_cons_self
    · exact (ih later).imp_right (List.mem_cons_of_mem _)

/-- A text without underscores stays as it is. -/
theorem ungroup_eq_self (plain : '_' ∉ text) (afterDigit : Bool) :
    ungroup isDigit afterDigit text = text := by
  fun_induction ungroup isDigit afterDigit text with
  | case1 => rfl
  | case2 afterDigit first rest grouped ih => exact absurd grouped.1 (by grind)
  | case3 afterDigit first rest kept ih => rw [ih (List.not_mem_of_not_mem_cons plain)]

/-- A character that is no digit does not keep underscores next to it. -/
theorem ungroup_append_cons {char : Char} (plain : isDigit char = false) (other : char ≠ '_')
    (afterDigit : Bool) (front rest : List Char) :
    ungroup isDigit afterDigit (front ++ char :: rest) =
      ungroup isDigit afterDigit front ++ char :: ungroup isDigit false rest := by
  induction front generalizing afterDigit with
  | nil => simp [ungroup, plain, other]
  | cons first front ih =>
    have next : (front ++ char :: rest).head?.any isDigit = front.head?.any isDigit := by
      cases front <;> simp [plain]
    simp only [List.cons_append, ungroup, next, ih]
    split_ifs <;> rfl

/-- The last character of a text is not left out. -/
theorem getLast?_ungroup (isDigit : Char → Bool) (afterDigit : Bool) (text : List Char) :
    (ungroup isDigit afterDigit text).getLast? = text.getLast? := by
  fun_induction ungroup isDigit afterDigit text with
  | case1 => rfl
  | case2 afterDigit first rest grouped ih =>
    cases rest with
    | nil => simp at grouped
    | cons next rest => rw [ih, List.getLast?_cons_cons]
  | case3 afterDigit first rest kept ih => rw [List.getLast?_cons, List.getLast?_cons, ih]

end Ungroup

/-- Characters that are no ASCII letters are the same in lower case. -/
theorem toLower_eq_self {char : Char} (start : isIdentifierStart char = false) :
    char.toLower = char := by
  rw [Bool.eq_false_iff, Ne, isIdentifierStart_iff] at start
  rw [Char.toLower, dif_neg]
  rintro ⟨low, high⟩
  rw [ge_iff_le, UInt32.le_iff_toNat_le] at low
  rw [UInt32.le_iff_toNat_le] at high
  exact start (.inl ⟨low, high⟩)

/-- A written number is no word for infinity or for no number. -/
theorem Literal.signedNumeral?_chars (literal : Literal) (negative : Bool) :
    signedNumeral? digitValue? negative literal.chars =
      some (.finite (literal.decimal negative)) := by
  -- Each of the words has letters, and a number has none.
  have letterless : ∀ char ∈ literal.chars, isIdentifierStart char = false := by
    intro char member
    rcases isDigit_or_eq_of_mem_chars member with digit | rfl
    · exact isIdentifierStart_eq_false_of_isDigit digit
    · rfl
  have lower : literal.chars.map Char.toLower = literal.chars :=
    (List.map_congr_left fun char member => toLower_eq_self (letterless char member)).trans
      (List.map_id _)
  have word (name : String) {char : Char} (member : char ∈ name.toList)
      (letter : isIdentifierStart char = true) :
      String.ofList (literal.chars.map Char.toLower) ≠ name := by
    rintro rfl
    rw [lower, String.toList_ofList] at member
    rw [letterless char member] at letter
    cases letter
  have infinite := word "inf" List.mem_cons_self rfl
  have longer := word "infinity" List.mem_cons_self rfl
  have undefined := word "nan" List.mem_cons_self rfl
  simp only [signedNumeral?, infinite, longer, undefined, or_self, if_false,
    literal.readDecimal?_chars, Option.map_some]

/-- A number that is written with an optional sign in front is read. -/
theorem Literal.readNumeral?_chars (literal : Literal) (sign : Option Bool) :
    readNumeral? digitValue? (signChars sign ++ literal.chars) =
      some (.finite (literal.decimal (sign == some true))) := by
  have unsigned : ∀ char ∈ literal.chars.head?, isSign char = false := by
    intro char first
    rcases isDigit_or_eq_of_mem_chars (List.mem_of_mem_head? first) with digit | rfl
    · exact isSign_eq_false_of_isDigit digit
    · rfl
  have grouped : '_' ∉ literal.chars := by
    intro member
    rcases isDigit_or_eq_of_mem_chars member with digit | point
    · exact absurd digit (by decide)
    · exact absurd point (by decide)
  simp only [readNumeral?, signed_append sign fun _ => unsigned, ungroup_eq_self grouped,
    literal.signedNumeral?_chars]

section Form

variable {text : List Char} {negative : Bool} {value : Decimal}

/-- Digits and possibly a point, and after them possibly a power of ten with or without a sign. -/
inductive Powered (negative : Bool) : List Char → Decimal → Prop
  | plain (literal : Literal) : Powered negative literal.chars (literal.decimal negative)
  | power (literal : Literal) {mark : Char} (marked : mark = 'e' ∨ mark = 'E')
      (sign : Option Bool) {digits : List Char} (digit : ∀ char ∈ digits, isDigit char = true)
      (nonempty : digits ≠ []) (value : Decimal) :
      Powered negative (literal.chars ++ mark :: (signChars sign ++ digits)) value

/-- What is read as digits, point and power of ten consists of them. -/
theorem powered_of_readDecimal? (read : readDecimal? digitValue? negative text = some value) :
    Powered negative text value := by
  obtain ⟨whole, fraction, rest, digits, split, run⟩ := exists_fractionRun_eq text
  simp only [readDecimal?, run, Option.ite_none_left_eq_some] at read
  obtain ⟨present, powered⟩ := read
  have nonempty : whole ++ fraction.getD [] ≠ [] := by
    intro empty
    obtain ⟨noWhole, noFraction⟩ := List.append_eq_nil_iff.1 empty
    exact present (by simp [noWhole, noFraction])
  let literal : Literal := ⟨whole, fraction, digits, nonempty⟩
  have chars : literal.chars = pointed whole fraction := rfl
  rw [← chars] at split
  cases rest with
  | nil =>
    obtain rfl := Option.some.inj powered
    rw [split, List.append_nil]
    exact literal.decimalOf_eq negative ▸ .plain literal
  | cons mark rest =>
    obtain ⟨exponent, read, -⟩ := Option.map_eq_some_iff.1 powered
    simp only [readExponent, Option.ite_none_right_eq_some, Option.ite_none_left_eq_some] at read
    obtain ⟨marked, complete, -⟩ := read
    obtain ⟨sign, magnitude, afterSign, signedRest⟩ := exists_signed_eq rest
    obtain ⟨digits, further, allDigits, parts, run⟩ := exists_digitRun_eq digitValue? magnitude
    simp only [signedRest, run, not_or, Decidable.not_not, List.isEmpty_iff] at complete
    rw [complete.2, List.append_nil] at parts
    rw [split, afterSign, parts]
    refine .power literal marked sign allDigits ?_ value
    rintro rfl
    exact complete.1 rfl

end Form

section Characters

/-- The characters of finite numbers. -/
def isNumeralChar (char : Char) : Bool :=
  isDigit char || isSign char || char == '.' || char == 'e' || char == 'E' || char == '_'

variable {char : Char} {text : List Char}

theorem isNumeralChar_of_isDigit (digit : isDigit char = true) : isNumeralChar char = true := by
  simp [isNumeralChar, digit]

theorem isNumeralChar_of_isSign (sign : isSign char = true) : isNumeralChar char = true := by
  simp [isNumeralChar, sign]

theorem Literal.isNumeralChar_of_mem_chars {literal : Literal} (member : char ∈ literal.chars) :
    isNumeralChar char = true := by
  rcases literal.isDigit_or_eq_of_mem_chars member with digit | rfl
  · exact isNumeralChar_of_isDigit digit
  · rfl

theorem isNumeralChar_of_readDecimal? {negative : Bool} {value : Decimal}
    (read : readDecimal? digitValue? negative text = some value) :
    ∀ char ∈ text, isNumeralChar char = true := by
  intro char member
  cases powered_of_readDecimal? read with
  | plain literal => exact literal.isNumeralChar_of_mem_chars member
  | power literal marked sign digit =>
    simp only [List.mem_append, List.mem_cons] at member
    rcases member with inLiteral | rfl | inSign | inDigits
    · exact literal.isNumeralChar_of_mem_chars inLiteral
    · rcases marked with rfl | rfl <;> rfl
    · exact isNumeralChar_of_isSign (isSign_of_mem_signChars inSign)
    · exact isNumeralChar_of_isDigit (digit char inDigits)

/-- A text that is read as a finite number has no other characters than those of numbers. -/
theorem isNumeralChar_of_readNumeral? {value : Decimal}
    (read : readNumeral? digitValue? text = some (.finite value)) :
    ∀ char ∈ text, isNumeralChar char = true := by
  obtain ⟨sign, magnitude, afterSign, signedText⟩ := exists_signed_eq text
  simp only [readNumeral?, signedNumeral?, signedText] at read
  split_ifs at read
  · cases read
  · cases read
  obtain ⟨decimal, readable, -⟩ := Option.map_eq_some_iff.1 read
  intro char member
  rw [afterSign, List.mem_append] at member
  rcases member with signChar | later
  · exact isNumeralChar_of_isSign (isSign_of_mem_signChars signChar)
  · rcases eq_or_mem_ungroup later false with rfl | kept
    · rfl
    · exact isNumeralChar_of_readDecimal? readable char kept

end Characters

section Integer

variable {text : List Char}

/-- Digits and nothing else are an integer, unless there are too many of them. -/
theorem readInteger_of_digits (digits : ∀ char ∈ text, isDigit char = true)
    (nonempty : text ≠ []) :
    readInteger text =
      if integerDigitLimit < text.length then .error (.tooLong text.length)
      else .ok (Decimal.ofDigits (text.filterMap digitValue?)) := by
  have trimmed : trimBy isWhiteSpace text = text := by
    refine Kept.trimBy_eq ⟨fun char first => ?_, fun char last => ?_⟩
    · exact isWhiteSpace_eq_false_of_isDigit (digits char (List.mem_of_mem_head? first))
    · exact isWhiteSpace_eq_false_of_isDigit (digits char (List.mem_of_getLast? last))
  have unsigned : signed text = (false, text) := by
    refine signed_append none fun _ char first => ?_
    exact isSign_eq_false_of_isDigit (digits char (List.mem_of_mem_head? first))
  have grouped : '_' ∉ text := fun member => absurd (digits _ member) (by decide)
  have run : digitRun digitValue? (text ++ []) = (text.filterMap digitValue?, []) :=
    digitRun_append digits (by simp)
  rw [List.append_nil] at run
  have length : (text.filterMap digitValue?).length = text.length :=
    length_filterMap_digits digits
  have values : text.filterMap digitValue? ≠ [] := by
    rw [← List.length_pos_iff, length, List.length_pos_iff]
    exact nonempty
  simp [readInteger, trimmed, unsigned, ungroup_eq_self grouped, run, length, values]

end Integer

section Natural

variable {number : Nat}

theorem digitValue?_digitChar {digit : Nat} (small : digit < 10) :
    digitValue? (Nat.digitChar digit) = some digit := by
  have all : ∀ digit < 10, digitValue? (Nat.digitChar digit) = some digit := by decide
  exact all digit small

/-- The digits of a natural number spell it. -/
theorem ofDigits_toDigits (number : Nat) :
    Decimal.ofDigits ((Nat.toDigits 10 number).filterMap digitValue?) = number := by
  induction number using Nat.strongRecOn with
  | ind number ih =>
    rw [Nat.toDigits_eq_if (by decide)]
    split_ifs with small
    · simp [digitValue?_digitChar small, Decimal.ofDigits]
    · have last : number % 10 < 10 := Nat.mod_lt _ (by decide)
      have front := ih (number / 10) (by omega)
      simp only [Decimal.ofDigits] at front
      simp only [Decimal.ofDigits, List.filterMap_append, List.foldl_append, front,
        List.filterMap_cons, digitValue?_digitChar last, List.filterMap_nil, List.foldl_cons,
        List.foldl_nil]
      omega

theorem isDigit_of_mem_toDigits {char : Char} (member : char ∈ Nat.toDigits 10 number) :
    isDigit char = true := by
  have ascii := Nat.isDigit_of_mem_toDigits (by decide) le_rfl member
  rw [Char.isDigit, Bool.and_eq_true, decide_eq_true_eq, decide_eq_true_eq, ge_iff_le,
    UInt32.le_iff_toNat_le, UInt32.le_iff_toNat_le] at ascii
  obtain ⟨low, high⟩ := ascii
  change 48 ≤ char.toNat at low
  change char.toNat ≤ 57 at high
  exact isDigit_iff.2 ⟨0x30, by decide, low, by omega⟩

/-- The digits of a positive number do not begin with a zero. -/
theorem exists_toDigits_eq_cons (positive : 0 < number) :
    ∃ lead rest, Nat.toDigits 10 number = lead :: rest ∧ isLeadingDigit lead = true := by
  induction number using Nat.strongRecOn with
  | ind number ih =>
    rw [Nat.toDigits_eq_if (by decide)]
    split_ifs with small
    · have leading : ∀ digit < 10, 0 < digit → isLeadingDigit (Nat.digitChar digit) = true := by
        decide
      exact ⟨_, [], rfl, leading number small positive⟩
    · obtain ⟨lead, rest, digits, leading⟩ := ih (number / 10) (by omega) (by omega)
      exact ⟨lead, rest ++ [Nat.digitChar (number % 10)], by rw [digits]; rfl, leading⟩

end Natural

end Simplex.Text
