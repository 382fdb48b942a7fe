import CouplingTree.Sql.Function.Basic

/-!
# Functions of numbers

A text that is a number counts as one. What has no number, or is out of the range of a function, makes nothing.

`remainder_zero` : nothing is left over of a division by zero.
-/

namespace CouplingTree.Sql

namespace ScalarFunction

/-! ## Doubles -/

/-- The double that a value is, if it is a number. -/
def double? (v : Value) : Option Float :=
  match v.numeric with
  | .integer i => some (doubleOfInt i)
  | .real x => some x
  | _ => none

/-- A function of a double. -/
def ofDouble (name : String) (f : Float → Float) : ScalarFunction :=
  unary name fun v => ((double? v).map fun x => Value.ofDouble (f x)).getD .null

def ofDoubles (name : String) (f : Float → Float → Float) : ScalarFunction :=
  binary name fun v w =>
    match double? v, double? w with
    | some x, some y => .ofDouble (f x y)
    | _, _ => .null

/-- A function that leaves integers as they are. -/
def ofReal (name : String) (f : Float → Float) : ScalarFunction :=
  unary name fun v =>
    match v.numeric with
    | .integer i => .integer i
    | .real x => .ofDouble (f x)
    | _ => .null

/-- What is left over of a double when another one is taken away as often as possible; it has the sign of the former. -/
def remainder (x y : Float) : Float :=
  match Binary64.toRat? x, Binary64.toRat? y with
  | some p, some q =>
    if q = 0 then Binary64.notANumber
    else
      let d := p / q
      let r := p - q * ((Int.tdiv d.num d.den : Int) : Rat)
      Binary64.nearest (x < 0 || 1 / x < 0) r.num.natAbs r.den
  | some _, none => if y == y then x else Binary64.notANumber
  | none, _ => Binary64.notANumber

theorem remainder_zero {x y : Float} {p : Rat} (hx : Binary64.toRat? x = some p) (hy : Binary64.toRat? y = some 0) :
    remainder x y = Binary64.notANumber := by
  simp [remainder, hx, hy]

def pi : Float := 3.141592653589793

/-! ## Logarithms -/

def naturalLogOfTen : Float := 2.302585092994046

def naturalLogOfTwo : Float := 0.6931471805599453

/-- The logarithm of a positive number, divided by that of the base. -/
def logarithm (name : String) (base : Float) : ScalarFunction :=
  unary name fun v =>
    match double? v with
    | some x => if x <= 0 then .null else .ofDouble (x.log / base)
    | none => .null

/-- The logarithm to a base, which is ten if there is none. -/
def logarithmTo : List Value → Value
  | [v] =>
    match double? v with
    | some x => if x <= 0 then .null else .ofDouble (x.log / naturalLogOfTen)
    | none => .null
  | [b, v] =>
    match double? b with
    | some base =>
      let x := v.toDouble
      if base <= 0 || base.log <= 0 || x <= 0 then .null else .ofDouble (x.log / base.log)
    | none => .null
  | _ => .null

/-! ## Signs and places -/

def magnitude : Value → Outcome
  | .null => .ok .null
  | .integer i => if i = leastInteger then .error .integerOverflow else .ok (.integer i.natAbs)
  | v => .ok (.real (if v.toDouble < 0 then -v.toDouble else v.toDouble))

def signOf (v : Value) : Value :=
  match v.numeric with
  | .integer i => .integer i.sign
  | .real x => .integer (if x < 0 then -1 else if 0 < x then 1 else 0)
  | _ => .null

/-- An integer in the last 32 of its bits. -/
def narrow (i : Int) : Int := Int.bmod i 0x100000000

/-- Doubles of this magnitude have no fraction. -/
def wholeBound : Float := 4503599627370496

/-- A double rounded to some decimal places, as it is written with so many. -/
def roundTo (places : Nat) (x : Float) : Float :=
  if x < -wholeBound || wholeBound < x then x
  else if places = 0 then doubleOfInt (truncate (x + if x < 0 then -0.5 else 0.5))
  else
    let text := { form := .fixed, precision := places, isExact := true : RealFormat }.text x
    ((LeadingNumber.read? (Utf8.encode (String.ofList text))).map LeadingNumber.toDouble).getD 0

/-- More decimal places than these do not count. -/
def mostPlaces : Int := 30

def round (v places : Value) : Value :=
  if v.isNull || places.isNull then .null
  else .ofDouble (roundTo (min (max (narrow places.toInt) 0) mostPlaces).toNat v.toDouble)

/-! ## The functions by their names -/

def ofNumbers : List ScalarFunction := [
  ofValues "abs" 1 1 fun vs => magnitude (vs.head?.getD .null),
  unaryOr "round" (.integer 0) round,
  unary "sign" signOf,
  ofReal "ceil" Float.ceil, ofReal "ceiling" Float.ceil, ofReal "floor" Float.floor,
  ofReal "trunc" fun x => if x < 0 then x.ceil else x.floor,
  logarithm "ln" 1, logarithm "log10" naturalLogOfTen, logarithm "log2" naturalLogOfTwo,
  ofValues "log" 1 2 fun vs => .ok (logarithmTo vs),
  ofDouble "exp" Float.exp, ofDouble "sqrt" Float.sqrt,
  ofDoubles "pow" Float.pow, ofDoubles "power" Float.pow, ofDoubles "mod" remainder, ofDoubles "atan2" Float.atan2,
  ofDouble "acos" Float.acos, ofDouble "asin" Float.asin, ofDouble "atan" Float.atan,
  ofDouble "cos" Float.cos, ofDouble "sin" Float.sin, ofDouble "tan" Float.tan,
  ofDouble "acosh" Float.acosh, ofDouble "asinh" Float.asinh, ofDouble "atanh" Float.atanh,
  ofDouble "cosh" Float.cosh, ofDouble "sinh" Float.sinh, ofDouble "tanh" Float.tanh,
  ofDouble "radians" (· * (pi / 180)), ofDouble "degrees" (· * (180 / pi)),
  nullary "pi" (.real pi)]

end ScalarFunction

end CouplingTree.Sql
