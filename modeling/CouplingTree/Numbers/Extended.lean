import CouplingTree.Numbers.Binary64

/-!
# Numbers of 64 bits with a point

An extended number is a natural number times a power of two. The result of every operation is rounded to 64 bits, a tie
going to the even one. Doubles have fewer bits and are extended numbers as they are.

`Extended.nearest_zero` : a quotient of zero is zero.
-/

namespace CouplingTree

/-- The number `mantissa * 2 ^ exponent`. -/
structure Extended where
  mantissa : Nat
  exponent : Int
deriving DecidableEq, Repr, Inhabited

namespace Extended

def zero : Extended := ⟨0, 0⟩

/-- The least mantissa of 64 bits. -/
def leadingBit : Nat := 0x8000000000000000

/-- The power of two of the last bit of a positive quotient. -/
def unitExponent (num den : Nat) : Int :=
  let e : Int := (num.log2 : Int) - den.log2 - 63
  if num * twoTo (-e).toNat < leadingBit * (den * twoTo e.toNat) then e - 1 else e

/-- The extended number nearest to a quotient. -/
def nearest (num den : Nat) : Extended :=
  if num = 0 then zero
  else
    let e := unitExponent num den
    ⟨roundDiv (num * twoTo (-e).toNat) (den * twoTo e.toNat), e⟩

theorem nearest_zero (den : Nat) : nearest 0 den = zero := by simp [nearest]

def quotient (a : Extended) : Nat × Nat := Binary64.quotient a.mantissa a.exponent

def ofNat (n : Nat) : Extended := nearest n 1

/-- The magnitude of a double; what is not finite has none. -/
def ofDouble (x : Float) : Extended :=
  match Binary64.value x with
  | .finite _ m e => ⟨m, e⟩
  | _ => zero

/-- The nearest double, with a sign. -/
def toDouble (negative : Bool) (a : Extended) : Float := Binary64.nearest negative a.quotient.1 a.quotient.2

def add (a b : Extended) : Extended :=
  let (n, d) := a.quotient
  let (m, e) := b.quotient
  nearest (n * e + m * d) (d * e)

/-- The difference, which is zero where it would be negative. -/
def subtract (a b : Extended) : Extended :=
  let (n, d) := a.quotient
  let (m, e) := b.quotient
  nearest (n * e - m * d) (d * e)

def multiply (a b : Extended) : Extended :=
  let (n, d) := Binary64.quotient (a.mantissa * b.mantissa) (a.exponent + b.exponent)
  nearest n d

/-- The quotient; division by zero makes zero. -/
def divide (a b : Extended) : Extended :=
  if b.mantissa = 0 then zero
  else
    let (n, d) := Binary64.quotient a.mantissa (a.exponent - b.exponent)
    nearest n (b.mantissa * d)

/-- Whether a number is at most another one. -/
def atMost (a b : Extended) : Bool :=
  let (n, d) := a.quotient
  let (m, e) := b.quotient
  decide (n * e ≤ m * d)

def less (a b : Extended) : Bool := !b.atMost a

/-- The natural number below. -/
def floor (a : Extended) : Nat := a.quotient.1 / a.quotient.2

/-- A power of ten by squaring, with so many squares at most. -/
def powerFrom : Nat → Nat → Extended → Extended → Extended
  | 0, _, _, power => power
  | fuel + 1, n, base, power =>
    let power := if n % 2 = 1 then power.multiply base else power
    if n / 2 = 0 then power else powerFrom fuel (n / 2) (base.multiply base) power

def tenTo (n : Nat) : Extended := powerFrom (n.log2 + 1) n (ofNat 10) (ofNat 1)

end Extended

end CouplingTree
