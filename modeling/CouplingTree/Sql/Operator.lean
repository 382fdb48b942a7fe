import CouplingTree.Sql.Query

/-!
# Operators on values

What is unknown stays unknown: most operators make nothing of nothing. Integers that do not fit into 64 bits become
doubles, and values of different kinds are made comparable before they are compared.

`compareTruth_null` : a comparison with nothing is neither true nor false.
-/

namespace CouplingTree.Sql

/-! ## Arithmetic -/

namespace Arithmetic

/-- An integer as its lowest 64 bits stand for one. -/
def wrapped (i : Int) : Int := Int.bmod i (Nat.pow 2 64)

def bits (i : Int) : BitVec 64 := BitVec.ofInt 64 i

/-- Shifts to the left by so many places, or to the right if they are negative. -/
def shifted (i places : Int) : Int :=
  if 0 ≤ places then (bits i <<< min places.toNat 64).toInt
  else (BitVec.sshiftRight (bits i) (min places.natAbs 64)).toInt

/-- Of two numbers that are not both integers, or whose result is none. -/
def ofDoubles (a : Arithmetic) (x y : Float) : Value :=
  match a with
  | add => .ofDouble (x + y)
  | subtract => .ofDouble (x - y)
  | multiply => .ofDouble (x * y)
  | divide => if y == 0 then .null else .ofDouble (x / y)
  | _ => .null

def remainderOf (i j : Int) : Option Int := if j = 0 then none else some (Int.tmod i j)

def ofIntegers (a : Arithmetic) (i j : Int) : Value :=
  let doubles := ofDoubles a (doubleOfInt i) (doubleOfInt j)
  let exact (k : Int) : Value := if fits k then .integer k else doubles
  match a with
  | add => exact (i + j)
  | subtract => exact (i - j)
  | multiply => exact (i * j)
  | divide => if j = 0 then .null else exact (Int.tdiv i j)
  | remainder => ((remainderOf i j).map Value.integer).getD .null
  | bitAnd => .integer (bits i &&& bits j).toInt
  | bitOr => .integer (bits i ||| bits j).toInt
  | shiftLeft => .integer (shifted i j)
  | shiftRight => .integer (shifted i (-j))

/-- Whether integers are made of the operands before the result. -/
def isBitwise : Arithmetic → Bool
  | bitAnd | bitOr | shiftLeft | shiftRight => true
  | _ => false

def eval (a : Arithmetic) (v w : Value) : Value :=
  if v.isNull || w.isNull then .null
  else if a.isBitwise then ofIntegers a v.toInt w.toInt
  else
    match a, v.toNumber, w.toNumber with
    | a, .integer i, .integer j => ofIntegers a i j
    | .remainder, v, w => ((remainderOf v.toInt w.toInt).map fun k => Value.real (doubleOfInt k)).getD .null
    | a, v, w => ofDoubles a v.toDouble w.toDouble

end Arithmetic

namespace Value

def negated : Value → Value
  | .null => .null
  | v => Arithmetic.eval .subtract (.integer 0) v

def complement (v : Value) : Value := if v.isNull then .null else .integer (-v.toInt - 1)

def concat (v w : Value) : Value := if v.isNull || w.isNull then .null else .text (v.bytes ++ w.bytes)

end Value

/-! ## Comparisons -/

/-- How values are made comparable. -/
inductive Adjustment
  | none
  | texts
  | numbers
deriving DecidableEq, Repr

namespace Adjustment

/-- Two sides with an affinity are compared as numbers if one of them is numeric; one side alone decides for both. -/
def of : Option Affinity → Option Affinity → Adjustment
  | some a, some b => if a.isNumeric || b.isNumeric then numbers else none
  | some a, Option.none => one a
  | Option.none, some b => one b
  | Option.none, Option.none => none
where
  one (a : Affinity) : Adjustment := if a.isNumeric then numbers else if a = .text then texts else none

def apply : Adjustment → Value → Value
  | none, v => v
  | texts, v => Affinity.text.apply v
  | numbers, v => v.numeric

end Adjustment

namespace Comparison

def accepts (c : Comparison) (o : Ordering) : Bool :=
  match c with
  | equal | is => o = .eq
  | unequal | isNot => o ≠ .eq
  | less => o = .lt
  | atMost => o ≠ .gt
  | greater => o = .gt
  | atLeast => o ≠ .lt

/-- Whether nothing makes the result unknown. -/
def minds : Comparison → Bool
  | is | isNot => false
  | _ => true

/-- The comparison with the sides exchanged. -/
def commuted : Comparison → Comparison
  | less => greater
  | atMost => atLeast
  | greater => less
  | atLeast => atMost
  | c => c

/-- Whether a comparison is true, if that is known. -/
def compareTruth (c : Comparison) (adjust : Adjustment) (collation : Collation) (v w : Value) : Option Bool :=
  if c.minds && (v.isNull || w.isNull) then none
  else some (c.accepts ((adjust.apply v).compare collation (adjust.apply w)))

theorem compareTruth_null {c : Comparison} (h : c.minds = true) (adjust : Adjustment) (collation : Collation)
    (w : Value) : c.compareTruth adjust collation .null w = none := by
  simp [compareTruth, h, Value.isNull]

end Comparison

/-! ## Truth -/

def andTruth : Option Bool → Option Bool → Option Bool
  | some false, _ => some false
  | _, some false => some false
  | some true, some true => some true
  | _, _ => none

def orTruth : Option Bool → Option Bool → Option Bool
  | some true, _ => some true
  | _, some true => some true
  | some false, some false => some false
  | _, _ => none

/-- Whether one of several comparisons is true. -/
def anyTruth (ts : List (Option Bool)) : Option Bool := ts.foldl orTruth (some false)

end CouplingTree.Sql
