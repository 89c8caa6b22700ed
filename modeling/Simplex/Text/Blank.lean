import Simplex.Text.Ranges

/-!
# Blank characters

Two sets of blanks. Both hold the characters with the property White_Space; the
wider one also holds the four information separators, which separate tokens in
expressions but are not skipped around a single number.
-/

namespace Simplex.Text

/-- The characters with the property White_Space. -/
def whiteSpaceRanges : CharRanges :=
  [(0x9, 0xd), (0x20, 0x20), (0x85, 0x85), (0xa0, 0xa0), (0x1680, 0x1680), (0x2000, 0x200a),
   (0x2028, 0x2029), (0x202f, 0x202f), (0x205f, 0x205f), (0x3000, 0x3000)]

/-- Whether a character has the property White_Space. -/
def isWhiteSpace (char : Char) : Bool := whiteSpaceRanges.contains char

/-- Whether a character may stand between the tokens of an expression: white space
or an information separator. -/
def isBlank (char : Char) : Bool :=
  isWhiteSpace char || decide (0x1c ≤ char.toNat ∧ char.toNat ≤ 0x1f)

/-- The text without the characters of a set at its two ends. -/
def trimBy (drop : Char → Bool) (text : List Char) : List Char :=
  ((text.dropWhile drop).reverse.dropWhile drop).reverse

/-- The text without blanks at its two ends. -/
def trim (text : List Char) : List Char := trimBy isBlank text

/-- The text without leading blanks. -/
def skipBlanks (text : List Char) : List Char := text.dropWhile isBlank

end Simplex.Text
