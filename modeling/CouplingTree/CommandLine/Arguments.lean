import CouplingTree.CommandLine.Options
import CouplingTree.Report.Basic
import CouplingTree.Settings
import CouplingTree.Text.Numeral

/-!
# Arguments

`Arguments.parse` reads a command line from left to right. It stops at the first thing that is wrong, and at a request
for help; arguments that have no place are complained about at the end.

`parse` holds the numbers to their bounds: shares lie between zero and one, counts are at least one. Two dashes attached
to an option leave it without a value.

`usageText`, `helpText` and `UsageError.text` are what the program tells about its command line.
-/

namespace CouplingTree

/-- What a command line asks for. An option without a value is `none`. -/
structure Arguments where
  input : Option String
  minCoupling : Option Float
  maxModules : Option Int
  threshold : Option Float
  /-- The cap for the selector, by default none. -/
  maxSelected : Option (Option Int)
  out : Option String
  text : Bool
  verbose : Bool

inductive UsageError
  | ambiguous (e : Ambiguous)
  | valueMissing (flag : Flag)
  | valueIgnored (flag : Flag) (value : String)
  | notAShare (flag : Flag) (value : String)
  | notACount (flag : Flag) (value : String)
  | outsideUnit (flag : Flag) (value : String)
  | belowOne (flag : Flag) (value : String)
  | inputMissing
  | unrecognized (arguments : List String)
  | inputNotFound (path : String)
  | unusable (message : String)
deriving DecidableEq, Repr

namespace UsageError

/-- A message about the value of an option. -/
def about (flag : Flag) (message : String) : String := "argument " ++ flag.title ++ ": " ++ message

def message : UsageError → String
  | ambiguous e => "ambiguous option: " ++ e.argument ++ " could match " ++ ", ".intercalate e.names
  | valueMissing f => about f "expected one argument"
  | valueIgnored f v => about f ("ignored explicit argument " ++ quoted v)
  | notAShare f v => about f ("invalid _unit_float value: " ++ quoted v)
  | notACount f v => about f ("invalid _positive_int value: " ++ quoted v)
  | outsideUnit f v => about f (v ++ " is outside [0, 1]")
  | belowOne f v => about f (v ++ " must be >= 1")
  | inputMissing => "the following arguments are required: input"
  | unrecognized arguments => "unrecognized arguments: " ++ " ".intercalate arguments
  | inputNotFound path => "input not found: " ++ path
  | unusable message => message

end UsageError

/-- Why a command line does not lead to a run. -/
inductive Halt
  | help
  | usage (e : UsageError)
deriving DecidableEq, Repr

namespace Arguments

def defaultOut : String := (dataDirectory.join (.ofText "decomposition_report.json")).text

def initial : Arguments where
  input := none
  minCoupling := some Settings.default.minCoupling
  maxModules := some (Settings.default : Settings Float).maxModules
  threshold := some Settings.default.threshold
  maxSelected := some none
  out := some defaultOut
  text := false
  verbose := false

/-- A number from zero to one. -/
def share (flag : Flag) (value : String) : Except Halt Float :=
  match Numeral.double? value.toList with
  | none => .error (.usage (.notAShare flag value))
  | some x => if 0 ≤ x ∧ x ≤ 1 then .ok x else .error (.usage (.outsideUnit flag value))

/-- An integer from one on. -/
def count (flag : Flag) (value : String) : Except Halt Int :=
  match Numeral.int? value.toList with
  | none => .error (.usage (.notACount flag value))
  | some i => if i < 1 then .error (.usage (.belowOne flag value)) else .ok i

/-- Takes an option that has no value. -/
def turnOn (a : Arguments) : Flag → Except Halt Arguments
  | .text => .ok { a with text := true }
  | .verbose => .ok { a with verbose := true }
  | _ => .error .help

/-- Takes an option with its value. -/
def assign (a : Arguments) (flag : Flag) (value : String) : Except Halt Arguments :=
  match flag with
  | .minCoupling => (share flag value).map fun x => { a with minCoupling := some x }
  | .threshold => (share flag value).map fun x => { a with threshold := some x }
  | .maxModules => (count flag value).map fun i => { a with maxModules := some i }
  | .maxSelected => (count flag value).map fun i => { a with maxSelected := some (some i) }
  | .out => .ok { a with out := some value }
  | flag => a.turnOn flag

/-- Leaves an option without a value. -/
def clear (a : Arguments) : Flag → Arguments
  | .minCoupling => { a with minCoupling := none }
  | .maxModules => { a with maxModules := none }
  | .threshold => { a with threshold := none }
  | .maxSelected => { a with maxSelected := none }
  | .out => { a with out := none }
  | _ => a

/-- Takes an option with a value attached to it. -/
def attach (a : Arguments) (flag : Flag) (value : String) : Except Halt Arguments :=
  if !flag.takesValue then .error (.usage (.valueIgnored flag value))
  else if value = "--" then .ok (a.clear flag)
  else a.assign flag value

/-- What letters after the short name of help come to. Each may be a short name itself, and help is the only one. -/
def lettersHalt : List Char → Halt
  | ['h'] => .help
  | 'h' :: rest => lettersHalt rest
  | cs => .usage (.valueIgnored .help (String.ofList cs))

/-- Reads the rest of a command line; also gives the arguments that have no place. -/
def read (a : Arguments) : List (String × Token) → Except Halt (Arguments × List String)
  | [] => .ok (a, [])
  | (_, .letters cs) :: _ => .error (lettersHalt cs)
  | (_, .option flag (some value)) :: rest => do
    let a ← a.attach flag value
    a.read rest
  | (_, .option flag none) :: (value, .value) :: rest =>
    if flag.takesValue then do
      let a ← a.assign flag value
      a.read rest
    else do
      let a ← a.turnOn flag
      a.read ((value, .value) :: rest)
  | (_, .option flag none) :: rest =>
    if flag.takesValue then .error (.usage (.valueMissing flag))
    else do
      let a ← a.turnOn flag
      a.read rest
  | (s, .unknown) :: rest => (a.read rest).map fun p => (p.1, s :: p.2)
  | (s, .separator) :: rest =>
    if a.input.isNone ∧ ¬rest.isEmpty then a.read rest else (a.read rest).map fun p => (p.1, s :: p.2)
  | (s, .value) :: (t, .separator) :: rest =>
    if a.input.isNone then { a with input := some s }.read rest
    else (a.read ((t, .separator) :: rest)).map fun p => (p.1, s :: p.2)
  | (s, .value) :: rest =>
    if a.input.isNone then { a with input := some s }.read rest
    else (a.read rest).map fun p => (p.1, s :: p.2)

/-- Reads a command line. -/
def parse (argv : List String) : Except Halt (String × Arguments) := do
  let ts ← (tokens argv).mapError fun e => Halt.usage (.ambiguous e)
  let (a, extras) ← initial.read ts
  match a.input with
  | none => .error (.usage .inputMissing)
  | some input => if extras.isEmpty then .ok (input, a) else .error (.usage (.unrecognized extras))

end Arguments

/-! ## Usage -/

def usageText : String := String.intercalate "\n" [
  "usage: decompose.py [-h] [--min-coupling MIN_COUPLING]",
  "                    [--max-modules MAX_MODULES] [--threshold THRESHOLD]",
  "                    [--max-selected MAX_SELECTED] [--out OUT] [--text]",
  "                    [--verbose]",
  "                    input",
  ""]

def helpText : String := usageText ++ String.intercalate "\n" [
  "",
  "Modscope module decomposition pass.",
  "",
  "positional arguments:",
  "  input                 Call-fact export (.json or .db)",
  "",
  "options:",
  "  -h, --help            show this help message and exit",
  "  --min-coupling MIN_COUPLING",
  "                        Minimum average coupling for a merge",
  "  --max-modules MAX_MODULES",
  "                        Stop merging once this many clusters remain",
  "  --threshold THRESHOLD",
  "                        Cohesion threshold for module extraction",
  "  --max-selected MAX_SELECTED",
  "                        Cap for the greedy module selector",
  "  --out OUT             Output JSON path",
  "  --text                Print the dendrogram and merge history",
  "  --verbose             Print each merge as it happens",
  ""]

/-- What is printed about an unusable command line. -/
def UsageError.text (e : UsageError) : String := usageText ++ "decompose.py: error: " ++ e.message ++ "\n"

end CouplingTree
