/-!
# Documents

The values in which programs and options are handed in and results handed out:
nested lists and records over plain values. Integers and floating-point numbers
are kept apart.
-/

namespace Simplex

/-- A value of an input or an output. -/
inductive Document where
  | null
  | bool (value : Bool)
  | integer (value : Int)
  | number (value : Float)
  | text (value : String)
  | list (items : List Document)
  | record (fields : List (String × Document))

namespace Document

/-- The value of a field; the last one of a name counts. -/
def field? (fields : List (String × Document)) (name : String) : Option Document :=
  fields.reverse.lookup name

/-- A list of texts. -/
def texts (values : List String) : Document := .list (values.map .text)

/-- A value, or null where there is none. -/
def ofOption (value : Option Document) : Document := value.getD .null

end Document

end Simplex
