import CouplingTree.Numbers.Binary64

/-!
# Decimal numbers

`Decimal.toDouble` reads a decimal as the nearest double. `Decimal.shortest` is the decimal with the fewest digits that
reads back as a given double, the nearest of those; `toPlaces` and `fixedText` round to a fixed number of places.

A `DoubleStyle` says how doubles are written: which are written without an exponent, and the words for the values that
have no digits. `DoubleStyle.text` writes the shortest digits in that style.
-/

namespace CouplingTree

/-- The number `digits * 10 ^ exponent`. -/
structure Decimal where
  digits : Nat
  exponent : Int
deriving DecidableEq, Repr

/-- The decimal digits of a number, at least `width` of them. -/
def digitsText (width n : Nat) : List Char :=
  let ds := Nat.toDigits 10 n
  List.replicate (width - ds.length) '0' ++ ds

/-- `num * 10 ^ k / den` as a quotient. -/
def scaled (num den : Nat) (k : Int) : Nat × Nat := (num * tenTo k.toNat, den * tenTo (-k).toNat)

/-! ## Reading -/

namespace Decimal

def quotient (d : Decimal) : Nat × Nat := scaled d.digits 1 d.exponent

/-- The nearest double. Decimals far outside the range of doubles are not multiplied out. -/
def toDouble (negative : Bool) (d : Decimal) : Float :=
  if d.digits = 0 ∨ d.exponent + (d.digits.log2 / 3 + 1 : Nat) < -330 then Binary64.nearest negative 0 1
  else if 330 < d.exponent then Binary64.infinity negative
  else Binary64.nearest negative d.quotient.1 d.quotient.2

/-! ## Shortest digits -/

/-- The power of ten of the leading digit of a positive quotient. -/
def leadingExponent (num den : Nat) : Int :=
  let e : Int := ((Nat.toDigits 10 num).length : Int) - (Nat.toDigits 10 den).length
  let (n, d) := scaled num den (-e)
  if d ≤ n then e else e - 1

/-- The two decimals with `places` digits next to a positive quotient, the nearer one first; a tie goes to the even. -/
def neighbours (num den places : Nat) : List Decimal :=
  let unit : Int := leadingExponent num den - places + 1
  let (n, d) := scaled num den (-unit)
  let below : Nat := n / d
  let near := roundDiv n d
  [⟨near, unit⟩, ⟨if near = below then below + 1 else below, unit⟩]

/-- Drops zeros at the end of the digits, at most `fuel` of them. -/
def trim : Nat → Decimal → Decimal
  | 0, d => d
  | fuel + 1, d => if d.digits % 10 = 0 ∧ d.digits ≠ 0 then trim fuel ⟨d.digits / 10, d.exponent + 1⟩ else d

/-- All the digits of `mantissa * 2 ^ exponent`. -/
def exact (mantissa : Nat) (exponent : Int) : Decimal :=
  ⟨mantissa * twoTo exponent.toNat * Nat.pow 5 (-exponent).toNat, min exponent 0⟩

/-- The fewest digits that read back as the positive double `mantissa * 2 ^ exponent`. -/
def shortest (mantissa : Nat) (exponent : Int) : Decimal :=
  let (num, den) := Binary64.quotient mantissa exponent
  let bits := Binary64.nearestBits num den
  let found := (List.range 17).findSome? fun k =>
    ((neighbours num den (k + 1)).map (trim 20)).find? fun d => (d.toDouble false).toBits.toNat = bits
  found.getD (exact mantissa exponent)

end Decimal

/-! ## A fixed number of places -/

/-- `± num / den` with `places` digits after the point, a tie going to the even last digit. -/
def fixedText (places : Nat) (negative : Bool) (num den : Nat) : String :=
  let k := roundDiv (num * tenTo places) den
  String.ofList ((if negative then ['-'] else []) ++ digitsText 1 (k / tenTo places) ++
    '.' :: digitsText places (k % tenTo places))

namespace Binary64

/-- The double nearest to the value rounded to `places` decimal places. -/
def toPlaces (places : Nat) (x : Float) : Float :=
  match value x with
  | .finite negative m e =>
    let (num, den) := quotient m e
    nearest negative (roundDiv (num * tenTo places) den) (tenTo places)
  | _ => x

/-- The value with `places` digits after the point. -/
def fixedText (places : Nat) (x : Float) : String :=
  match value x with
  | .nan => "nan"
  | .infinity negative => if negative then "-inf" else "inf"
  | .finite negative m e =>
    let (num, den) := quotient m e
    CouplingTree.fixedText places negative num den

end Binary64

/-! ## The text of a double -/

/-- A finite double is written without an exponent when the power of ten of its leading digit lies in
`[leastPlain, boundPlain)`. -/
structure DoubleStyle where
  leastPlain : Int
  boundPlain : Int
  nan : String
  infinity : String

/-- Values inside messages. -/
def DoubleStyle.display : DoubleStyle := ⟨-4, 16, "nan", "inf"⟩

/-- Numbers in JSON documents. -/
def DoubleStyle.json : DoubleStyle := ⟨-4, 16, "NaN", "Infinity"⟩

/-- A digit string as a number without an exponent, the first digit counting `10 ^ lead`. -/
def plainText (ds : List Char) (lead : Int) : List Char :=
  if lead < 0 then '0' :: '.' :: (List.replicate (-lead - 1).toNat '0' ++ ds)
  else
    let whole := lead.toNat + 1
    if ds.length ≤ whole then ds ++ List.replicate (whole - ds.length) '0' ++ ['.', '0']
    else ds.take whole ++ '.' :: ds.drop whole

/-- A digit string with one digit before the point and an exponent of at least two digits. -/
def scientificText (ds : List Char) (lead : Int) : List Char :=
  ds.take 1 ++ (if 1 < ds.length then '.' :: ds.drop 1 else []) ++
    'e' :: (if lead < 0 then '-' else '+') :: digitsText 2 lead.natAbs

namespace DoubleStyle

def magnitude (style : DoubleStyle) (mantissa : Nat) (exponent : Int) : List Char :=
  if mantissa = 0 then ['0', '.', '0']
  else
    let d := Decimal.shortest mantissa exponent
    let ds := Nat.toDigits 10 d.digits
    let lead := d.exponent + ds.length - 1
    if style.leastPlain ≤ lead ∧ lead < style.boundPlain then plainText ds lead else scientificText ds lead

def text (style : DoubleStyle) (x : Float) : String :=
  match Binary64.value x with
  | .nan => style.nan
  | .infinity negative => (if negative then "-" else "") ++ style.infinity
  | .finite negative m e => String.ofList ((if negative then ['-'] else []) ++ style.magnitude m e)

end DoubleStyle

end CouplingTree
