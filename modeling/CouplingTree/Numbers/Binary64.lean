/-!
# Doubles, exactly

`roundDiv n d` is the natural number nearest to `n / d`; a quotient half way between two of them goes to the even one.
`twoTo` and `tenTo` are the powers of two and of ten.

`Binary64.value` takes a double apart into sign, mantissa and power of two; `Binary64.nearest` is the double nearest
to a quotient of natural numbers, ties going to the even mantissa, and the infinity past the largest double.

`roundDiv_mul` : an exact quotient is kept; `roundDiv_le` and `le_roundDiv` : the result is within half a unit.
-/

namespace CouplingTree

def twoTo (n : Nat) : Nat := Nat.pow 2 n

def tenTo (n : Nat) : Nat := Nat.pow 10 n

/-- The natural number nearest to `n / d`, a tie going to the even one. -/
def roundDiv (n d : Nat) : Nat :=
  if 2 * (n % d) < d then n / d
  else if d < 2 * (n % d) then n / d + 1
  else if n / d % 2 = 0 then n / d
  else n / d + 1

theorem roundDiv_mul (q : Nat) {d : Nat} (h : 0 < d) : roundDiv (q * d) d = q := by
  simp [roundDiv, Nat.mul_mod_left, Nat.mul_div_cancel q h, h]

theorem roundDiv_le (n : Nat) {d : Nat} : 2 * (roundDiv n d * d) ≤ 2 * n + d := by
  have h := Nat.div_add_mod n d
  rw [Nat.mul_comm] at h
  unfold roundDiv
  split
  · omega
  · split
    · rw [Nat.add_mul]; omega
    · split
      · omega
      · rw [Nat.add_mul]; omega

theorem le_roundDiv (n : Nat) {d : Nat} (hd : 0 < d) : 2 * n ≤ 2 * (roundDiv n d * d) + d := by
  have h := Nat.div_add_mod n d
  rw [Nat.mul_comm] at h
  have hlt := Nat.mod_lt n hd
  unfold roundDiv
  split
  · omega
  · split
    · rw [Nat.add_mul]; omega
    · split
      · omega
      · rw [Nat.add_mul]; omega

end CouplingTree

namespace CouplingTree.Binary64

/-- What a double stands for: a finite one is `± mantissa * 2 ^ exponent`. -/
inductive Value
  | nan
  | infinity (negative : Bool)
  | finite (negative : Bool) (mantissa : Nat) (exponent : Int)
deriving DecidableEq, Repr

/-- The bit of the sign. -/
def signBit : Nat := 0x8000000000000000

/-- The leading bit of a mantissa, which is not stored; the exponent is counted from this place on. -/
def leadingBit : Nat := 0x10000000000000

def value (x : Float) : Value :=
  let bits : Nat := x.toBits.toNat
  let negative := decide (signBit ≤ bits)
  let field : Nat := bits / leadingBit % 2048
  let fraction : Nat := bits % leadingBit
  if field = 2047 then
    if fraction = 0 then .infinity negative else .nan
  else if field = 0 then .finite negative fraction (-1074)
  else .finite negative (leadingBit + fraction) ((field : Int) - 1075)

/-- The bits of the positive infinity, and the least bits that no finite positive double has. -/
def infinityBits : Nat := 2047 * leadingBit

/-- The power of two that the mantissa of `num / den` counts, for a positive quotient. -/
def unitExponent (num den : Nat) : Int :=
  let e : Int := (num.log2 : Int) - den.log2 - 52
  let e := if num * twoTo (-e).toNat < leadingBit * (den * twoTo e.toNat) then e - 1 else e
  max e (-1074)

/-- The bits of the positive double nearest to `num / den`, infinite if the quotient is too large. -/
def nearestBits (num den : Nat) : Nat :=
  if num = 0 then 0
  else
    let e := unitExponent num den
    min ((e + 1074).toNat * leadingBit + roundDiv (num * twoTo (-e).toNat) (den * twoTo e.toNat)) infinityBits

/-- The double nearest to `± num / den`. -/
def nearest (negative : Bool) (num den : Nat) : Float :=
  Float.ofBits (UInt64.ofNat (nearestBits num den + if negative then signBit else 0))

def infinity (negative : Bool) : Float := Float.ofBits (UInt64.ofNat (infinityBits + if negative then signBit else 0))

def notANumber : Float := Float.ofBits 0x7FF8000000000000

/-- A mantissa and a power of two as a quotient. -/
def quotient (mantissa : Nat) (exponent : Int) : Nat × Nat :=
  (mantissa * twoTo exponent.toNat, twoTo (-exponent).toNat)

/-- A finite double as a rational number. -/
def toRat? (x : Float) : Option Rat :=
  match value x with
  | .finite negative m e =>
    let (num, den) := quotient m e
    some (mkRat (if negative then -(num : Int) else num) den)
  | _ => none

def isFinite (x : Float) : Bool := (toRat? x).isSome

/-- The double nearest to the quotient of two integers, or `none` when it is too large. -/
def ratio? (n d : Int) : Option Float :=
  let bits := nearestBits n.natAbs d.natAbs
  if bits < infinityBits then some (nearest (decide (n < 0) != decide (d < 0)) n.natAbs d.natAbs) else none

end CouplingTree.Binary64
