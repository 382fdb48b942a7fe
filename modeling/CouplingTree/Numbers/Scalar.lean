import CouplingTree.Numbers.Decimal

/-!
# The numbers that couplings are measured in

`Scalar` is what the clustering computes with, `Rounding` what a report needs besides. Both have two instances: doubles,
which the program runs on, and the rational numbers, where the same definitions have no rounding error.
-/

namespace CouplingTree

/-- Numbers with the arithmetic and the comparisons of the clustering. -/
class Scalar (α : Type) extends Zero α, One α, Add α, Sub α, Div α, NatCast α, LT α, LE α where
  decLt : (a b : α) → Decidable (a < b)
  decLe : (a b : α) → Decidable (a ≤ b)
  /-- The quotient of two integers, or `none` when it is too large for these numbers. -/
  ratio? : Int → Int → Option α

instance Scalar.decidableLt {α : Type} [Scalar α] (a b : α) : Decidable (a < b) := Scalar.decLt a b

instance Scalar.decidableLe {α : Type} [Scalar α] (a b : α) : Decidable (a ≤ b) := Scalar.decLe a b

/-- Numbers that are shown with a fixed number of decimal places. -/
class Rounding (α : Type) where
  toPlaces : Nat → α → α
  fixedText : Nat → α → String

/-- The mean, added up from left to right; that of no values is zero. -/
def mean {α : Type} [Scalar α] (values : List α) : α :=
  if values.isEmpty then 0 else values.foldl (· + ·) 0 / (values.length : α)

/-! ## Doubles -/

instance scalarFloat : Scalar Float where
  zero := 0
  one := 1
  add := Float.add
  sub := Float.sub
  div := Float.div
  natCast := Float.ofNat
  lt a b := Float.lt a b = true
  le a b := Float.le a b = true
  decLt a b := inferInstanceAs (Decidable (Float.lt a b = true))
  decLe a b := inferInstanceAs (Decidable (Float.le a b = true))
  ratio? := Binary64.ratio?

instance roundingFloat : Rounding Float := ⟨Binary64.toPlaces, Binary64.fixedText⟩

/-! ## Rational numbers -/

instance scalarRat : Scalar Rat where
  zero := 0
  one := 1
  add := Rat.add
  sub := Rat.sub
  div := Rat.div
  natCast n := Rat.ofInt n
  lt a b := Rat.blt a b = true
  le a b := Rat.blt b a = false
  decLt a b := inferInstanceAs (Decidable (Rat.blt a b = true))
  decLe a b := inferInstanceAs (Decidable (Rat.blt b a = false))
  ratio? n d := some (mkRat (if d < 0 then -n else n) d.natAbs)

/-- The multiple of `10 ^ -places` nearest to a rational number, ties going to the even multiple. -/
def Rat.toPlaces (places : Nat) (q : Rat) : Rat :=
  let k := roundDiv (q.num.natAbs * tenTo places) q.den
  mkRat (if q.num < 0 then -(k : Int) else k) (tenTo places)

instance roundingRat : Rounding Rat where
  toPlaces := CouplingTree.Rat.toPlaces
  fixedText places q := fixedText places (decide (q.num < 0)) q.num.natAbs q.den

end CouplingTree
