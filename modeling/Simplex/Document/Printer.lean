import Simplex.Decimal.Shortest
import Simplex.Document.Basic
import Simplex.Text.Quoted

/-!
# The text of documents

Documents are written in JSON: on one line, or with one item per line and two
blanks of indentation per level. Texts are written in ASCII; a character outside
it is escaped by the code units of its UTF-16 form.
-/

namespace Simplex.Document

/-- The escape of one UTF-16 code unit. -/
def unitEscape (unit : Nat) : List Char := '\\' :: 'u' :: Text.hexDigits 4 unit

/-- A character as it stands in a written text. -/
def writtenChar (char : Char) : List Char :=
  if char = '"' ∨ char = '\\' then ['\\', char]
  else if char = '\n' then ['\\', 'n']
  else if char = '\r' then ['\\', 'r']
  else if char = '\t' then ['\\', 't']
  else if char = '\x08' then ['\\', 'b']
  else if char = '\x0c' then ['\\', 'f']
  else if 0x20 ≤ char.toNat ∧ char.toNat ≤ 0x7e then [char]
  else if char.toNat < 0x10000 then unitEscape char.toNat
  else
    let offset := char.toNat - 0x10000
    unitEscape (0xd800 + offset / 0x400) ++ unitEscape (0xdc00 + offset % 0x400)

/-- A text between double quotation marks. -/
def writtenText (text : String) : String :=
  String.ofList ('"' :: text.toList.flatMap writtenChar ++ ['"'])

/-- Where the items of a list or record stand: all on one line, or each on a line of
its own, the given number of levels deep. -/
inductive Layout where
  | line
  | indented (level : Nat)

/-- The layout of the items inside. -/
def Layout.deeper : Layout → Layout
  | .line => .line
  | .indented level => .indented (level + 1)

/-- What is written before an item of a list or record, and before its end. -/
def Layout.lineBreak : Layout → String
  | .line => ""
  | .indented level => "\n" ++ String.ofList (List.replicate (2 * level) ' ')

/-- What is written between items: a comma, and a blank where no line ends. -/
def Layout.separator (layout : Layout) : String :=
  match layout with
  | .line => ", "
  | .indented _ => "," ++ layout.lineBreak

/-- Written items between brackets; nothing stands between the brackets of an empty
list. -/
def bracketed (layout : Layout) (opening closing : String) (items : List String) : String :=
  if items.isEmpty then opening ++ closing
  else
    opening ++ layout.deeper.lineBreak ++ layout.deeper.separator.intercalate items ++
      layout.lineBreak ++ closing

mutual

/-- The text of a document. -/
def write (layout : Layout) : Document → String
  | .null => "null"
  | .bool value => if value then "true" else "false"
  | .integer value => toString value
  | .number value => Double.toText value
  | .text value => writtenText value
  | .list items => bracketed layout "[" "]" (writeItems layout.deeper items)
  | .record fields => bracketed layout "\x7b" "\x7d" (writeFields layout.deeper fields)

/-- The texts of the items of a list. -/
def writeItems (layout : Layout) : List Document → List String
  | [] => []
  | item :: rest => write layout item :: writeItems layout rest

/-- The texts of the fields of a record. -/
def writeFields (layout : Layout) : List (String × Document) → List String
  | [] => []
  | (name, value) :: rest =>
    (writtenText name ++ ": " ++ write layout value) :: writeFields layout rest

end

end Simplex.Document
