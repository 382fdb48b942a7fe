import CouplingTree.Text.Character
import CouplingTree.Text.Quoted

/-!
# Options

The command line has one positional argument, the input, and options with long names, which may be shortened as long as
they stay unambiguous. `Token.ofArgument` tells what an argument is by itself; `tokens` does so for a whole command line,
where two dashes alone make everything after them a value.
-/

namespace CouplingTree

inductive Flag
  | help
  | minCoupling
  | maxModules
  | threshold
  | maxSelected
  | out
  | text
  | verbose
deriving DecidableEq, Repr

namespace Flag

/-- The long names in the order in which they are listed. -/
def longNames : List (String × Flag) := [
  ("--help", help), ("--min-coupling", minCoupling), ("--max-modules", maxModules), ("--threshold", threshold),
  ("--max-selected", maxSelected), ("--out", out), ("--text", text), ("--verbose", verbose)]

/-- All names; help has a short one besides. -/
def names : List (String × Flag) := ("-h", help) :: longNames

def ofName? (name : String) : Option Flag := (names.find? fun n => decide (n.1 = name)).map Prod.snd

/-- How an option is named in a message. -/
def title (f : Flag) : String := "/".intercalate ((names.filter fun n => decide (n.2 = f)).map Prod.fst)

def takesValue : Flag → Bool
  | help => false
  | text => false
  | verbose => false
  | _ => true

end Flag

/-- What an argument is. An option may come with a value after an equals sign; the short name of help comes with
letters, which an equals sign may set off. -/
inductive Token
  | value
  | separator
  | option (flag : Flag) (attached : Option String)
  | letters (cs : List Char)
  | unknown
deriving DecidableEq, Repr

/-- An argument that could be several options. -/
structure Ambiguous where
  argument : String
  names : List String
deriving DecidableEq, Repr

namespace Token

/-- The text before the first equals sign and the one after it. -/
def splitEquals (cs : List Char) : List Char × Option String :=
  if '=' ∈ cs then (cs.takeWhile (· ≠ '='), some (String.ofList ((cs.dropWhile (· ≠ '=')).drop 1))) else (cs, none)

/-- Whether a text is a number with a minus sign, a line feed after it allowed. -/
def isNegativeNumber (cs : List Char) : Bool :=
  let cs := if cs.getLast? = some '\n' then cs.dropLast else cs
  match cs with
  | '-' :: body =>
    let isDigit (c : Char) : Bool := (digitValue? c).isSome
    match body.dropWhile isDigit with
    | [] => !body.isEmpty
    | '.' :: fraction => !fraction.isEmpty && fraction.all isDigit
    | _ => false
  | _ => false

/-- The options that a name with two dashes begins. -/
def candidates (start : List Char) : List (String × Flag) :=
  Flag.longNames.filter fun n => start.isPrefixOf n.1.toList

/-- An argument with a dash that is no option's name. -/
def ofUnlisted (argument : String) : Token :=
  let cs := argument.toList
  if isNegativeNumber cs ∨ ' ' ∈ cs then value else unknown

/-- What an argument is by itself. -/
def ofArgument (argument : String) : Except Ambiguous Token :=
  match Flag.ofName? argument, argument.toList with
  | some flag, _ => .ok (option flag none)
  | none, '-' :: '-' :: rest =>
    let (start, attached) := splitEquals ('-' :: '-' :: rest)
    match Flag.ofName? (String.ofList start) with
    | some flag => .ok (option flag attached)
    | none =>
      match candidates start with
      | [] => .ok (ofUnlisted argument)
      | [n] => .ok (option n.2 attached)
      | ns => .error ⟨argument, ns.map Prod.fst⟩
  | none, '-' :: 'h' :: '=' :: rest => .ok (letters rest)
  | none, '-' :: 'h' :: rest => .ok (letters rest)
  | none, '-' :: _ :: _ => .ok (ofUnlisted argument)
  | none, _ => .ok value

end Token

/-- The arguments of a command line with what they are. -/
def tokens : List String → Except Ambiguous (List (String × Token))
  | [] => .ok []
  | "--" :: rest => .ok (("--", .separator) :: rest.map fun a => (a, .value))
  | a :: rest => do
    let t ← Token.ofArgument a
    let ts ← tokens rest
    .ok ((a, t) :: ts)

end CouplingTree
