import CouplingTree.Sql.Conversion
import CouplingTree.Sql.Problem

/-!
# Functions of values

A scalar function makes a value of values. It is found by its name in letters of either case, and takes so many values at
least and at most. A text that a function has made as a document is marked as one, for functions that put documents into
others.
-/

namespace CouplingTree.Sql

abbrev Outcome := Except Problem Value

/-- A value, and whether its text has been made as a document. -/
structure Datum where
  value : Value
  isDocument : Bool := false
deriving Inhabited

/-- A function of values; texts are compared by the collation. -/
structure ScalarFunction where
  name : String
  least : Nat
  most : Nat
  apply : Collation → List Datum → Except Problem Datum
  /-- Whether the same values always make the same value. -/
  isFixed : Bool := true

/-- More values than any function takes. -/
def unbounded : Nat := 127

namespace ScalarFunction

/-- A function that does not look at marks and makes none. -/
def ofValues (name : String) (least most : Nat) (f : List Value → Outcome) : ScalarFunction :=
  { name, least, most, apply := fun _ vs => (f (vs.map Datum.value)).map (⟨·, false⟩) }

def nullary (name : String) (v : Value) : ScalarFunction := ofValues name 0 0 fun _ => .ok v

def unary (name : String) (f : Value → Value) : ScalarFunction :=
  ofValues name 1 1 fun vs => match vs with | [v] => .ok (f v) | _ => .ok .null

def binary (name : String) (f : Value → Value → Value) : ScalarFunction :=
  ofValues name 2 2 fun vs => match vs with | [v, w] => .ok (f v w) | _ => .ok .null

/-- A function of one value or two of them, with a value for the second one if it is not given. -/
def unaryOr (name : String) (second : Value) (f : Value → Value → Value) : ScalarFunction :=
  ofValues name 1 2 fun vs => match vs with | [v] => .ok (f v second) | [v, w] => .ok (f v w) | _ => .ok .null

end ScalarFunction

end CouplingTree.Sql
