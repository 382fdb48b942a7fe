import CouplingTree.Numbers.Decimal
import CouplingTree.Numbers.Extended

/-!
# Texts of doubles

A double is written in decimal digits and read from them with extended numbers, so the last digits are those that
rounding to 64 bits at each step leads to. `RealFormat.text` writes a double in one of three forms, and `readReal` is
the double of a significand and a power of ten.

`RealFormat.fifteen` is the format of doubles that become texts.
-/

namespace CouplingTree.Sql

/-! ## Reading -/

/-- Significands do not grow beyond this one. -/
def significandBound : Nat := 922337203685477579

/-- Moves powers of ten from the exponent into the significand, as far as the form of the number allows. -/
def normalize : Nat → Bool → Nat → Nat → Nat × Nat
  | 0, _, s, e => (s, e)
  | fuel + 1, negative, s, e =>
    if e = 0 then (s, e)
    else if negative then
      if s % 10 ≠ 0 then (s, e) else normalize fuel negative (s / 10) (e - 1)
    else if 922337203685477580 ≤ s then (s, e)
    else normalize fuel negative (s * 10) (e - 1)

/-- Powers of ten beyond this one make zero or infinity. -/
def exponentBound : Nat := 342

/-- The double of a significand and a power of ten. -/
def readReal (negative : Bool) (significand : Nat) (exponent : Int) : Float :=
  if significand = 0 then Binary64.nearest negative 0 1
  else
    let below := decide (exponent < 0)
    let (s, e) := normalize 40 below significand exponent.natAbs
    if e = 0 then Binary64.nearest negative s 1
    else if 307 < e then
      if exponentBound ≤ e then if below then Binary64.nearest negative 0 1 else Binary64.infinity negative
      else
        let scale := Extended.tenTo (e - 308)
        let x := (if below then (Extended.ofNat s).divide scale else (Extended.ofNat s).multiply scale).toDouble negative
        if below then x / 1.0e+308 else x * 1.0e+308
    else
      let scale := Extended.tenTo e
      (if below then (Extended.ofNat s).divide scale else (Extended.ofNat s).multiply scale).toDouble negative

/-! ## Writing -/

/-- Digits before and behind the point, digits with an exponent, or one of them according to the exponent. -/
inductive RealForm
  | fixed
  | scientific
  | general
deriving DecidableEq, Repr

structure RealFormat where
  form : RealForm
  precision : Nat
  /-- Whether the point is written with no digits behind it. -/
  keepsPoint : Bool := false
  /-- Whether more digits count than 16, and a digit is written behind the point. -/
  isExact : Bool := false
  /-- Whether the mark of the exponent is a capital letter. -/
  capital : Bool := false
deriving DecidableEq, Repr

namespace RealFormat

def fifteen : RealFormat := { form := .general, precision := 15, isExact := true }

/-- Half of a digit at a place. -/
def halves : List Float := [5.0e-01, 5.0e-02, 5.0e-03, 5.0e-04, 5.0e-05, 5.0e-06, 5.0e-07, 5.0e-08, 5.0e-09, 5.0e-10]

/-- Half of the last digit of so many. -/
def half (precision : Nat) : Float :=
  let n := precision % 4096
  (List.range (n / 10)).foldl (fun x _ => x * 1.0e-10) (halves[n % 10]?.getD 0)

/-- The power of two of a double. -/
def binaryExponent (x : Float) : Int := ((x.toBits.toNat / 0x10000000000000 % 2048 : Nat) : Int) - 1023

/-- Repeats a step as long as a condition holds, so many times at most. -/
def whileTrue {α : Type} (p : α → Bool) (f : α → α) : Nat → α → α
  | 0, a => a
  | fuel + 1, a => if p a then whileTrue p f fuel (f a) else a

/-- Exponents beyond this one are those of infinity. -/
def greatestExponent : Int := 350

/-- A positive number as one of at least one and less than ten, with the power of ten. -/
def scaledDown (x : Extended) : Extended × Int :=
  let ten (y : Float) : Extended := Extended.ofDouble y
  let grow (y : Float) (n : Int) (s : Extended × Int) : Extended × Int :=
    whileTrue (fun s => ((ten y).multiply s.1).atMost x && decide (s.2 ≤ greatestExponent))
      (fun s => (s.1.multiply (ten y), s.2 + n)) 60 s
  let (scale, e) := grow 10.0 1 (grow 1e10 10 (grow 1e100 100 (Extended.ofNat 1, 0)))
  let x := x.divide scale
  let (x, e) := whileTrue (fun s : Extended × Int => s.1.less (ten 1e-8))
    (fun s => (s.1.multiply (ten 1e8), s.2 - 8)) 60 (x, e)
  whileTrue (fun s : Extended × Int => s.1.less (ten 1.0)) (fun s => (s.1.multiply (ten 10.0), s.2 - 1)) 60 (x, e)

/-- The next digits of a number less than ten; after so many that count there are zeros. -/
def digits : Nat → Nat → Extended → List Char
  | 0, _, _ => []
  | n + 1, 0, x => '0' :: digits n 0 x
  | n + 1, counted + 1, x =>
    let d := x.floor
    Nat.digitChar (d % 10) :: digits n counted ((x.subtract (Extended.ofNat d)).multiply (Extended.ofNat 10))

/-- Drops zeros at the end, and a point before them unless a zero is to stay behind it. -/
def withoutZeros (keepsZero : Bool) (cs : List Char) : List Char :=
  match cs.reverse.dropWhile (· = '0') with
  | '.' :: rest => rest.reverse ++ if keepsZero then ['.', '0'] else []
  | rest => rest.reverse

/-- The magnitude of a finite double. -/
def magnitude (f : RealFormat) (x : Float) : List Char :=
  let precision := if f.form = .general && 0 < f.precision then f.precision - 1 else f.precision
  let value := Extended.ofDouble x
  let rounder := half precision
  let value :=
    if f.form = .fixed then
      let rounder :=
        if (precision : Int) + Int.tdiv (binaryExponent x) 3 < 15 then
          ((Extended.ofDouble rounder).add (value.multiply (Extended.ofDouble 3e-16))).toDouble false
        else rounder
      value.add (Extended.ofDouble rounder)
    else value
  let (value, e) := if value.mantissa = 0 then (value, 0) else scaledDown value
  if greatestExponent < e then "Inf".toList
  else
    let (value, e) :=
      if f.form = .fixed then (value, e)
      else
        let value := value.add (Extended.ofDouble rounder)
        if (Extended.ofNat 10).atMost value then (value.multiply (Extended.ofDouble 0.1), e + 1) else (value, e)
    let (isScientific, dropsZeros, precision) : Bool × Bool × Nat :=
      match f.form with
      | .general =>
        let scientific := decide (e < -4 ∨ (precision : Int) < e)
        (scientific, !f.keepsPoint, if scientific then precision else ((precision : Int) - e).toNat)
      | .scientific => (true, f.isExact, precision)
      | .fixed => (false, f.isExact, precision)
    let place : Int := if isScientific then 0 else e
    let hasPoint := decide (0 < precision) || f.keepsPoint || f.isExact
    let counted := if f.isExact then 26 else 16
    let whole : Nat := (place + 1).toNat
    let zeros : Nat := min precision (-place - 1).toNat
    let ds := digits (whole + (precision - zeros)) counted value
    let body := (if whole = 0 then ['0'] else ds.take whole) ++ (if hasPoint then ['.'] else []) ++
      List.replicate zeros '0' ++ ds.drop whole
    let body := if dropsZeros && hasPoint then withoutZeros f.isExact body else body
    if isScientific then
      body ++ (if f.capital then 'E' else 'e') :: (if e < 0 then '-' else '+') :: digitsText 2 e.natAbs
    else body

/-- A double as it is written, without a sign for positive ones. -/
def text (f : RealFormat) (x : Float) : List Char :=
  match Binary64.value x with
  | .nan => "NaN".toList
  | .infinity negative => (if negative then "-Inf" else "Inf").toList
  | .finite negative m _ => (if negative && m != 0 then ['-'] else []) ++ f.magnitude x

end RealFormat

end CouplingTree.Sql
