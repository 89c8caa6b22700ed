import Simplex.Text.Printable

/-!
# Quoted text

A text between quotation marks on one line. Single marks are used unless the text
holds a single and no double mark; the mark in use and the backslash are escaped,
as is everything that is not printable.
-/

namespace Simplex.Text

/-- The lower-case hexadecimal digit of a value below sixteen. -/
def hexDigit (value : Nat) : Char :=
  if value < 10 then Char.ofNat ('0'.toNat + value) else Char.ofNat ('a'.toNat + value - 10)

/-- The last `width` hexadecimal digits of a number, most significant first. -/
def hexDigits : (width : Nat) → (number : Nat) → List Char
  | 0, _ => []
  | width + 1, number => hexDigits width (number / 16) ++ [hexDigit (number % 16)]

/-- The numeric escape of a character, as short as its code point allows. -/
def numericEscape (char : Char) : List Char :=
  if char.toNat ≤ 0xff then '\\' :: 'x' :: hexDigits 2 char.toNat
  else if char.toNat ≤ 0xffff then '\\' :: 'u' :: hexDigits 4 char.toNat
  else '\\' :: 'U' :: hexDigits 8 char.toNat

/-- A character as it stands between the given quotation marks. -/
def quotedChar (mark char : Char) : List Char :=
  if char = mark ∨ char = '\\' then ['\\', char]
  else if char = '\t' then ['\\', 't']
  else if char = '\n' then ['\\', 'n']
  else if char = '\r' then ['\\', 'r']
  else if isPrintable char then [char]
  else numericEscape char

/-- The quotation mark for a text. -/
def quotationMark (text : List Char) : Char :=
  if '\'' ∈ text ∧ '"' ∉ text then '"' else '\''

/-- The text between quotation marks. -/
def quoted (text : List Char) : List Char :=
  let mark := quotationMark text
  mark :: text.flatMap (quotedChar mark) ++ [mark]

end Simplex.Text
