import Simplex.Document.Forms
import Simplex.Document.Printer
import Simplex.Instance.Random
import Simplex.Text.Integer

/-!
# The command line of the generator

Options are written `--name value` or `--name=value`, and a name may be cut short
as long as it stays unique. All arguments are classified before any is used, so a
name that is not unique is refused wherever it stands; everything else is used in
order, up to the first fault or the request for help.
-/

namespace Simplex.CommandLine

/-- The options of the generator. -/
inductive Flag where
  | help
  | vars
  | constraints
  | seed
  | count
  | out
  deriving DecidableEq, Repr

/-- The long name of an option. -/
def Flag.name : Flag → String
  | .help => "--help"
  | .vars => "--vars"
  | .constraints => "--constraints"
  | .seed => "--seed"
  | .count => "--count"
  | .out => "--out"

/-- All options. -/
def flags : List Flag := [.help, .vars, .constraints, .seed, .count, .out]

/-- The one-letter name of the option for help. -/
def shortHelp : String := "-h"

/-- What an argument is, judged on its own. -/
inductive Argument where
  | value (text : String)
  | option (flag : Flag) (attached : Option String)
  | unknown
  /-- The argument that makes values of all that follow it. -/
  | separator
  deriving DecidableEq, Repr

/-- The option of exactly this name. -/
def exactFlag? (name : String) : Option Flag :=
  if name = shortHelp then some .help else flags.find? (·.name == name)

/-- The text before the first equals sign, and the text after it, if there is one. -/
def cutAtEquals (text : List Char) : String × Option String :=
  let name := String.ofList (text.takeWhile (· != '='))
  match text.dropWhile (· != '=') with
  | [] => (name, none)
  | _ :: attached => (name, some (String.ofList attached))

/-- Whether a text is a negative number in plain notation: digits, or a point
followed by digits. One line end after it does not matter. -/
def isNegativeNumber (text : List Char) : Bool :=
  let text := if text.getLast? = some '\n' then text.dropLast else text
  match text with
  | '-' :: rest =>
    let whole := rest.takeWhile Text.isDigit
    match rest.dropWhile Text.isDigit with
    | [] => !whole.isEmpty
    | '.' :: fraction => !fraction.isEmpty && fraction.all Text.isDigit
    | _ => false
  | _ => false

/-- What an argument with a leading hyphen is that names no option exactly. -/
def classifyInexact (argument : String) : Option Argument :=
  let text := argument.toList
  let cut := cutAtEquals text
  let found : List Argument :=
    if text.take 2 = ['-', '-'] then
      (flags.filter fun flag => cut.1.toList.isPrefixOf flag.name.toList).map
        (.option · cut.2)
    else if text.take 2 = shortHelp.toList then
      [.option .help (some (String.ofList (text.drop 2)))]
    else []
  match found with
  | [one] => some one
  | _ :: _ :: _ => none
  | [] =>
    if isNegativeNumber text ∨ ' ' ∈ text then some (.value argument) else some .unknown

/-- What an argument is; nothing if it cuts short the names of several options. -/
def classify (argument : String) : Option Argument :=
  if argument.toList.head? ≠ some '-' ∨ argument = "-" then some (.value argument)
  else
    match exactFlag? argument with
    | some flag => some (.option flag none)
    | none =>
      let cut := cutAtEquals argument.toList
      match cut.2, exactFlag? cut.1 with
      | some attached, some flag => some (.option flag (some attached))
      | _, _ => classifyInexact argument

/-- What the arguments of a command line are. -/
def classifyAll : List String → Option (List Argument)
  | [] => some []
  | argument :: rest =>
    if argument = "--" then some (.separator :: rest.map .value)
    else
      match classify argument, classifyAll rest with
      | some first, some others => some (first :: others)
      | _, _ => none

/-- What the generator is asked to do. -/
structure Request where
  vars : Int
  constraints : Int
  seed : Option Int
  count : Int
  out : Option String
  deriving DecidableEq, Repr

/-- What is asked for by no arguments at all. -/
def Request.default : Request := ⟨3, 3, none, 1, none⟩

/-- The outcome of reading a command line. -/
inductive Outcome where
  | request (request : Request)
  | help
  | refused
  deriving DecidableEq, Repr

/-- The integer that a value of an option denotes. -/
def integer? (text : String) : Option Int := (Text.readInteger text.toList).toOption

/-- The request with the value of an option, if the value is legal. -/
def Request.withValue? (request : Request) (flag : Flag) (text : String) : Option Request :=
  match flag with
  | .help => none
  | .vars => (integer? text).map fun value => { request with vars := value }
  | .constraints => (integer? text).map fun value => { request with constraints := value }
  | .seed => (integer? text).map fun value => { request with seed := some value }
  | .count => (integer? text).map fun value => { request with count := value }
  | .out => some { request with out := some text }

/-- Use arguments in order. The flag says whether one was left over that belongs to
no option; such arguments are refused, but only at the end. -/
def interpret (request : Request) (leftOver : Bool) : List Argument → Outcome
  | [] => if leftOver then .refused else .request request
  | .value _ :: rest => interpret request true rest
  | .unknown :: rest => interpret request true rest
  | .separator :: _ => .refused
  | .option .help none :: _ => .help
  | .option flag (some text) :: rest =>
    match request.withValue? flag text with
    | some next => interpret next leftOver rest
    | none => .refused
  | .option flag none :: .value text :: rest =>
    match request.withValue? flag text with
    | some next => interpret next leftOver rest
    | none => .refused
  | .option _ none :: _ => .refused

/-- Read a command line. -/
def read (arguments : List String) : Outcome :=
  match classifyAll arguments with
  | none => .refused
  | some classified => interpret .default false classified

/-- The programs that are asked for; each has its own seed. -/
def Request.programs (request : Request) : Except SizeFault (List (Program Float)) :=
  (List.range request.count.toNat).mapM fun (index : Nat) =>
    Program.random request.vars request.constraints (request.seed.getD 0 + index)

/-- The text of the programs that are asked for. -/
def Request.text (request : Request) : Except SizeFault String :=
  request.programs.map fun programs =>
    (Document.list (programs.map (Program.toDocument Document.number))).write (.indented 0)

/-- The description of the command line. -/
def helpText : String :=
  String.join ([
    "usage: generate [-h] [--vars VARS] [--constraints CONSTRAINTS] [--seed SEED]",
    "                [--count COUNT] [--out OUT]",
    "",
    "Generate random standard-form LP instances.",
    "",
    "options:",
    "  -h, --help            show this help message and exit",
    "  --vars VARS           Number of variables",
    "  --constraints CONSTRAINTS",
    "                        Number of constraints",
    "  --seed SEED           Random seed",
    "  --count COUNT         Number of instances",
    "  --out OUT             Optional output file"].map (· ++ "\n"))

/-- What a command line puts on standard output. Text that goes to a file is not
put there. -/
def Outcome.output : Outcome → Except SizeFault String
  | .request wanted =>
    wanted.text.map fun text => if wanted.out.isSome then "" else text ++ "\n"
  | .help => .ok helpText
  | .refused => .ok ""

/-- The exit code of a command line that has an output. -/
def Outcome.exitCode : Outcome → Nat
  | .refused => 2
  | _ => 0

end Simplex.CommandLine
