import Simplex.Document.Basic

/-!
# Checking documents

Reading a value out of a document either succeeds or lists every fault with the
path to it. Faults are collected over all fields and items, in their order, so one
fault never hides another.
-/

namespace Simplex

/-- What is wrong at one place of a document. -/
inductive FaultKind where
  | missing
  | notRecord
  | notList
  | notText
  | notNumber
  | numberSyntax
  | notInteger
  | integerSyntax
  | integerSize
  | fractionalInteger
  | infiniteInteger
  | notListed
  deriving DecidableEq, Repr

/-- The code under which a kind of fault is reported. -/
def FaultKind.code : FaultKind → String
  | .missing => "missing"
  | .notRecord => "model_type"
  | .notList => "list_type"
  | .notText => "string_type"
  | .notNumber => "float_type"
  | .numberSyntax => "float_parsing"
  | .notInteger => "int_type"
  | .integerSyntax => "int_parsing"
  | .integerSize => "int_parsing_size"
  | .fractionalInteger => "int_from_float"
  | .infiniteInteger => "finite_number"
  | .notListed => "literal_error"

/-- One step down into a document. -/
inductive PathItem where
  | key (name : String)
  | index (position : Nat)
  deriving DecidableEq, Repr

/-- A fault and the path to it from the root of the document. -/
structure DocumentFault where
  kind : FaultKind
  path : List PathItem
  deriving DecidableEq, Repr

/-- The outcome of reading a value out of a document. -/
inductive Checked (α : Type) where
  | valid (value : α)
  | faulty (faults : List DocumentFault)
  deriving Repr

namespace Checked

variable {α β : Type}

/-- A single fault at the root. -/
def fault (kind : FaultKind) : Checked α := .faulty [⟨kind, []⟩]

/-- The outcome of reading that can fail at the root only. -/
def ofExcept : Except FaultKind α → Checked α
  | .ok value => .valid value
  | .error kind => fault kind

/-- Apply a function to a valid value. -/
def map (function : α → β) : Checked α → Checked β
  | .valid value => .valid (function value)
  | .faulty faults => .faulty faults

/-- Apply a checked function to a checked value; faults of both are kept. -/
def apply : Checked (α → β) → Checked α → Checked β
  | .valid function, .valid value => .valid (function value)
  | .valid _, .faulty faults => .faulty faults
  | .faulty faults, .valid _ => .faulty faults
  | .faulty faults, .faulty more => .faulty (faults ++ more)

instance : Applicative Checked where
  pure := .valid
  seq function value := function.apply (value ())

/-- The outcome seen from one level further up. -/
def under (item : PathItem) : Checked α → Checked α
  | .valid value => .valid value
  | .faulty faults => .faulty (faults.map fun fault => { fault with path := item :: fault.path })

/-- A valid value or all faults. -/
def toExcept : Checked α → Except (List DocumentFault) α
  | .valid value => .ok value
  | .faulty faults => .error faults

/-- The checked values of a list, with every fault found at the position of its
item. -/
def collect (values : List (Checked α)) : Checked (List α) :=
  (values.mapIdx fun index value => value.under (.index index)).foldr
    (fun value rest => (value.map List.cons).apply rest) (.valid [])

end Checked

namespace Document

variable {α : Type}

/-- Read every item of a list. -/
def readList (read : Document → Checked α) : Document → Checked (List α)
  | .list items => .collect (items.map read)
  | _ => .fault .notList

/-- Read a field that has to be there. -/
def readField (fields : List (String × Document)) (name : String)
    (read : Document → Checked α) : Checked α :=
  match field? fields name with
  | some value => (read value).under (.key name)
  | none => Checked.under (.key name) (.fault .missing)

/-- Read a field that has a value also where it is absent. -/
def readFieldOr (fields : List (String × Document)) (name : String) (absent : α)
    (read : Document → Checked α) : Checked α :=
  match field? fields name with
  | some value => (read value).under (.key name)
  | none => .valid absent

/-- Read a text. -/
def readText : Document → Checked String
  | .text value => .valid value
  | _ => .fault .notText

/-- Read one of the words that a function knows. -/
def readWord (known : String → Option α) : Document → Checked α
  | .text word =>
    match known word with
    | some value => .valid value
    | none => .fault .notListed
  | _ => .fault .notListed

end Document

end Simplex
