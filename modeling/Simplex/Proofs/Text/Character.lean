import Simplex.Text.Expression
import Simplex.Text.Identifier

/-!
# Classes of characters

How the classes that the readers of text test for lie to each other. Digits of every script are
word characters, blanks and signs are not, and what may stand before a variable in a term is
neither an `x` nor a character that would keep an `x` from beginning an identifier.
-/

namespace Simplex.Text

variable {char : Char}

section Ranges

variable {first second : CharRanges}

theorem CharRanges.contains_iff :
    first.contains char = true ↔ ∃ range ∈ first, range.1 ≤ char.toNat ∧ char.toNat ≤ range.2 := by
  simp [CharRanges.contains]

/-- Sets of intervals that keep apart have no character in common. -/
theorem CharRanges.contains_eq_false_of_apart
    (apart : ∀ range ∈ first, ∀ other ∈ second, range.2 < other.1 ∨ other.2 < range.1)
    (member : first.contains char = true) : second.contains char = false := by
  rw [Bool.eq_false_iff]
  intro shared
  obtain ⟨range, listed, low, high⟩ := contains_iff.1 member
  obtain ⟨other, otherListed, otherLow, otherHigh⟩ := contains_iff.1 shared
  have separate := apart range listed other otherListed
  omega

end Ranges

/-- A decimal digit lies in one of the runs of ten. -/
theorem isDigit_iff : isDigit char = true ↔
    ∃ base ∈ digitZeros, base ≤ char.toNat ∧ char.toNat < base + 10 := by
  simp [isDigit, digitValue?]

theorem isWord_of_isDigit (digit : isDigit char = true) : isWord char = true := by
  have covered : ∀ base ∈ digitZeros, ∃ range ∈ alphanumericRanges,
      range.1 ≤ base ∧ base + 9 ≤ range.2 := by
    decide +kernel
  obtain ⟨base, listed, low, high⟩ := isDigit_iff.1 digit
  obtain ⟨range, member, lower, upper⟩ := covered base listed
  have letter : alphanumericRanges.contains char = true :=
    CharRanges.contains_iff.2 ⟨range, member, by omega, by omega⟩
  rw [isWord, letter, Bool.or_true]

theorem isBlank_iff : isBlank char = true ↔
    isWhiteSpace char = true ∨ 0x1c ≤ char.toNat ∧ char.toNat ≤ 0x1f := by
  simp [isBlank]

theorem isWord_eq_false_of_isBlank (blank : isBlank char = true) : isWord char = false := by
  have apart : ∀ range ∈ (0x1c, 0x1f) :: whiteSpaceRanges, ∀ other ∈ alphanumericRanges,
      range.2 < other.1 ∨ other.2 < range.1 := by
    decide +kernel
  have member : CharRanges.contains ((0x1c, 0x1f) :: whiteSpaceRanges) char = true := by
    rcases isBlank_iff.1 blank with white | separator
    · exact Bool.or_eq_true_iff.2 (.inr white)
    · exact CharRanges.contains_iff.2 ⟨_, List.mem_cons_self, separator⟩
  have underscore : char ≠ '_' := by
    rintro rfl
    exact absurd blank (by decide)
  rw [isWord, CharRanges.contains_eq_false_of_apart apart member, beq_false_of_ne underscore]
  rfl

theorem isDigit_eq_false_of_isWord_eq_false (separate : isWord char = false) :
    isDigit char = false := by
  rw [Bool.eq_false_iff]
  intro digit
  rw [isWord_of_isDigit digit] at separate
  cases separate

theorem isDigit_eq_false_of_isBlank (blank : isBlank char = true) : isDigit char = false :=
  isDigit_eq_false_of_isWord_eq_false (isWord_eq_false_of_isBlank blank)

theorem isBlank_eq_false_of_isWord (word : isWord char = true) : isBlank char = false := by
  rw [Bool.eq_false_iff]
  intro blank
  rw [isWord_eq_false_of_isBlank blank] at word
  cases word

theorem isBlank_eq_false_of_isDigit (digit : isDigit char = true) : isBlank char = false :=
  isBlank_eq_false_of_isWord (isWord_of_isDigit digit)

theorem isWhiteSpace_eq_false_of_isDigit (digit : isDigit char = true) :
    isWhiteSpace char = false := by
  rw [Bool.eq_false_iff]
  intro white
  rw [isDigit_eq_false_of_isBlank (isBlank_iff.2 (.inl white))] at digit
  cases digit

theorem isSign_iff : isSign char = true ↔ char = '+' ∨ char = '-' := by
  simp [isSign]

theorem isSign_eq_false_of_isDigit (digit : isDigit char = true) : isSign char = false := by
  rw [Bool.eq_false_iff, Ne, isSign_iff]
  rintro (rfl | rfl) <;> exact absurd digit (by decide)

theorem isSign_eq_false_of_isBlank (blank : isBlank char = true) : isSign char = false := by
  rw [Bool.eq_false_iff, Ne, isSign_iff]
  rintro (rfl | rfl) <;> exact absurd blank (by decide)

theorem isLeadingDigit_iff : isLeadingDigit char = true ↔ '1' ≤ char ∧ char ≤ '9' := by
  simp [isLeadingDigit]

theorem isDigit_of_isLeadingDigit (leading : isLeadingDigit char = true) :
    isDigit char = true := by
  obtain ⟨low, high⟩ := isLeadingDigit_iff.1 leading
  rw [Char.le_def, UInt32.le_iff_toNat_le] at low high
  change 49 ≤ char.toNat at low
  change char.toNat ≤ 57 at high
  exact isDigit_iff.2 ⟨0x30, by decide, by omega, by omega⟩

theorem isIdentifierStart_iff : isIdentifierStart char = true ↔
    (65 ≤ char.toNat ∧ char.toNat ≤ 90) ∨ (97 ≤ char.toNat ∧ char.toNat ≤ 122) ∨
      char = '_' := by
  simp only [isIdentifierStart, Char.le_def, UInt32.le_iff_toNat_le, Bool.or_eq_true,
    decide_eq_true_eq, beq_iff_eq, or_assoc]
  rfl

theorem isWord_of_isIdentifierStart (start : isIdentifierStart char = true) :
    isWord char = true := by
  have letter (low high : Nat) (listed : (low, high) ∈ alphanumericRanges)
      (inside : low ≤ char.toNat ∧ char.toNat ≤ high) : isWord char = true := by
    rw [isWord, CharRanges.contains_iff.2 ⟨_, listed, inside⟩, Bool.or_true]
  rcases isIdentifierStart_iff.1 start with upper | lower | rfl
  · exact letter 0x41 0x5a (by decide) upper
  · exact letter 0x61 0x7a (by decide) lower
  · rfl

/-- Letters and the underscore come between the digits of ASCII and those of other scripts. -/
theorem isIdentifierStart_eq_false_of_isDigit (digit : isDigit char = true) :
    isIdentifierStart char = false := by
  have apart : ∀ base ∈ digitZeros, base + 9 < 65 ∨ 122 < base := by decide
  obtain ⟨base, listed, low, high⟩ := isDigit_iff.1 digit
  have outside := apart base listed
  rw [Bool.eq_false_iff]
  intro start
  rcases isIdentifierStart_iff.1 start with upper | lower | rfl
  · omega
  · omega
  · exact absurd digit (by decide)

theorem isIdentifierStart_eq_false_of_isWord_eq_false (separate : isWord char = false) :
    isIdentifierStart char = false := by
  rw [Bool.eq_false_iff]
  intro start
  rw [isWord_of_isIdentifierStart start] at separate
  cases separate

/-- Whether a character may stand before the variable of a term: a sign, a blank, a digit, a point
or a star. -/
def isBeforeVariable (char : Char) : Bool :=
  isSign char || isBlank char || isDigit char || char == '.' || char == '*'

theorem isBeforeVariable_of_isSign (sign : isSign char = true) :
    isBeforeVariable char = true := by
  simp [isBeforeVariable, sign]

theorem isBeforeVariable_of_isBlank (blank : isBlank char = true) :
    isBeforeVariable char = true := by
  simp [isBeforeVariable, blank]

theorem isBeforeVariable_of_isDigit (digit : isDigit char = true) :
    isBeforeVariable char = true := by
  simp [isBeforeVariable, digit]

/-- Nothing before a variable is an `x` or keeps the variable's `x` from beginning an
identifier. -/
theorem isIdentifierStart_eq_false_of_isBeforeVariable (before : isBeforeVariable char = true) :
    isIdentifierStart char = false := by
  simp only [isBeforeVariable, Bool.or_eq_true, beq_iff_eq, isSign_iff, or_assoc] at before
  rcases before with rfl | rfl | blank | digit | rfl | rfl
  · decide
  · decide
  · exact isIdentifierStart_eq_false_of_isWord_eq_false (isWord_eq_false_of_isBlank blank)
  · exact isIdentifierStart_eq_false_of_isDigit digit
  · decide
  · decide

theorem ne_x_of_isBeforeVariable (before : isBeforeVariable char = true) : char ≠ 'x' := by
  rintro rfl
  exact absurd before (by decide)

end Simplex.Text
