import CouplingTree.Sql.RealText
import CouplingTree.Sql.Value
import CouplingTree.Text.Utf8

/-!
# Conversions between values

A text counts as the number that it starts with, and a number has a text. An affinity is what a column makes of the
values that are put into it; it converts where nothing is lost. `Value.cast` converts always.

`fits_clamp` : every integer is brought into the range of integers of 64 bits.
-/

namespace CouplingTree.Sql

/-! ## Integers of 64 bits -/

def leastInteger : Int := -0x8000000000000000

def greatestInteger : Int := 0x7FFFFFFFFFFFFFFF

/-- Whether an integer has at most 64 bits. -/
def fits (i : Int) : Bool := decide (leastInteger ≤ i ∧ i ≤ greatestInteger)

/-- The nearest integer of 64 bits. -/
def clamp (i : Int) : Int := max leastInteger (min greatestInteger i)

theorem fits_clamp (i : Int) : fits (clamp i) = true := by
  unfold fits clamp
  have h : leastInteger ≤ greatestInteger := by decide
  rw [decide_eq_true_eq]
  constructor <;> omega

def doubleOfInt (i : Int) : Float := Binary64.nearest (decide (i < 0)) i.natAbs 1

/-- A double without its fraction, as an integer of 64 bits. -/
def truncate (x : Float) : Int :=
  match Binary64.value x with
  | .nan => 0
  | .infinity negative => if negative then leastInteger else greatestInteger
  | .finite negative m e =>
    let (num, den) := Binary64.quotient m e
    let n : Nat := num / den
    clamp (if negative then -(n : Int) else n)

/-! ## Numbers in texts -/

/-- The number that a text starts with. -/
structure LeadingNumber where
  negative : Bool
  /-- The digits before the point. -/
  whole : Bytes
  /-- The digits behind the point. -/
  fraction : Bytes
  /-- The power of ten that is written behind the digits. -/
  power : Int
  /-- It has neither a point nor an exponent. -/
  isWhole : Bool
  /-- Only blanks follow. -/
  isAll : Bool

namespace LeadingNumber

def readDigits (bs : Bytes) : Bytes × Bytes := (bs.takeWhile isDigitByte, bs.dropWhile isDigitByte)

def digit (d : UInt8) : Nat := d.toNat - 0x30

def number (ds : Bytes) : Nat := ds.foldl (fun n d => n * 10 + digit d) 0

def readSign : Bytes → Bool × Bytes
  | 0x2D :: rest => (true, rest)
  | 0x2B :: rest => (false, rest)
  | bs => (false, bs)

/-- What is known of an exponent: there is none, its digits are missing, or its value. -/
inductive Exponent
  | absent
  | broken
  | power (p : Int)

/-- Exponents are not read beyond this one. -/
def greatestExponent : Nat := 10000

def readExponent : Bytes → Exponent × Bytes
  | [] => (.absent, [])
  | c :: rest =>
    if lowerByte c = 0x65 then
      let (negative, digits) := readSign rest
      let (ds, after) := readDigits digits
      if ds.isEmpty then (.broken, after)
      else
        let p : Nat := min (number ds) greatestExponent
        (.power (if negative then -(p : Int) else p), after)
    else (.absent, c :: rest)

/-- Reads the number at the start of a text, after blanks. -/
def read? (bs : Bytes) : Option LeadingNumber :=
  let (negative, body) := readSign (bs.dropWhile isBlankByte)
  let (whole, rest) := readDigits body
  let (fraction, pointed, rest) : Bytes × Bool × Bytes :=
    match rest with
    | 0x2E :: rest => ((readDigits rest).1, true, (readDigits rest).2)
    | rest => ([], false, rest)
  if whole.isEmpty && fraction.isEmpty then none
  else
    let (exponent, rest) := readExponent rest
    let clean := rest.all isBlankByte
    some (match exponent with
      | .absent => ⟨negative, whole, fraction, 0, !pointed, clean⟩
      | .broken => ⟨negative, whole, fraction, 0, !pointed, false⟩
      | .power p => ⟨negative, whole, fraction, p, false, clean⟩)

/-- The digits that count, with the power of ten that the others leave. -/
def significand (n : LeadingNumber) : Nat × Int :=
  let start := n.whole.foldl (fun (s : Nat × Int) d =>
    if s.1 < significandBound then (s.1 * 10 + digit d, s.2) else (s.1, s.2 + 1)) (0, 0)
  n.fraction.foldl (fun (s : Nat × Int) d =>
    if s.1 < significandBound then (s.1 * 10 + digit d, s.2 - 1) else s) start

def toDouble (n : LeadingNumber) : Float :=
  let (s, e) := n.significand
  readReal n.negative s (e + n.power)

/-- The integer before the point. -/
def toInt (n : LeadingNumber) : Int := if n.negative then -(number n.whole : Int) else number n.whole

/-- An integer where there is one of 64 bits, and a double otherwise. -/
def toValue (n : LeadingNumber) : Value := if n.isWhole && fits n.toInt then .integer n.toInt else .real n.toDouble

end LeadingNumber

/-- The integer that a text starts with; the exponent does not count. -/
def leadingInteger (bs : Bytes) : Int :=
  let (negative, body) := LeadingNumber.readSign (bs.dropWhile isBlankByte)
  let n := LeadingNumber.number (LeadingNumber.readDigits body).1
  clamp (if negative then -(n : Int) else n)

namespace Value

def ofString (s : String) : Value := text (Utf8.encode s)

def ofBool (b : Bool) : Value := integer (if b then 1 else 0)

/-- A double; what is no number is nothing. -/
def ofDouble (x : Float) : Value := if x == x then real x else null

/-- The bytes of a value as a text. -/
def bytes : Value → Bytes
  | null => []
  | integer i => Utf8.encode (toString i)
  | real x => Utf8.encode (String.ofList (RealFormat.fifteen.text x))
  | text bs | blob bs => bs

/-- The number that a value counts as. -/
def toNumber : Value → Value
  | text bs | blob bs => ((LeadingNumber.read? bs).map LeadingNumber.toValue).getD (integer 0)
  | v => v

def toInt : Value → Int
  | null => 0
  | integer i => i
  | real x => truncate x
  | text bs | blob bs => leadingInteger bs

def toDouble (v : Value) : Float :=
  match v.toNumber with
  | integer i => doubleOfInt i
  | real x => x
  | _ => 0

/-- Whether a value counts as true; of nothing it is not known. -/
def truth? (v : Value) : Option Bool :=
  match v with
  | null => none
  | integer i => some (i ≠ 0)
  | v => some (v.toDouble != 0)

def ofTruth : Option Bool → Value
  | none => null
  | some b => ofBool b

/-- A double that is an integer becomes one. -/
def integral (x : Float) : Value :=
  let i := truncate x
  if leastInteger < i ∧ i < greatestInteger ∧ doubleOfInt i == x then integer i else real x

/-- A text that is a number becomes one. -/
def numeric : Value → Value
  | text bs =>
    match LeadingNumber.read? bs with
    | some n =>
      if n.isAll then
        match n.toValue with
        | real x => integral x
        | v => v
      else text bs
    | none => text bs
  | v => v

end Value

/-! ## Affinities -/

inductive Affinity
  | blob
  | text
  | numeric
  | integer
  | real
deriving DecidableEq, Repr

namespace Affinity

/-- Whether a text has another one in it. -/
def mentions (word : List Char) : List Char → Bool
  | [] => word.isEmpty
  | c :: cs => word.isPrefixOf (c :: cs) || mentions word cs

/-- The affinity of a column that is declared with some words. -/
def ofType (type : String) : Affinity :=
  let cs := (lowerAscii type).toList
  let has (w : String) : Bool := mentions w.toList cs
  if has "int" then integer
  else if has "char" || has "clob" || has "text" then text
  else if cs.isEmpty || has "blob" then blob
  else if has "real" || has "floa" || has "doub" then real
  else numeric

def isNumeric : Affinity → Bool
  | blob | text => false
  | _ => true

/-- What a column makes of a value. -/
def apply : Affinity → Value → Value
  | blob, v => v
  | text, v =>
    match v with
    | .integer _ | .real _ => .text v.bytes
    | v => v
  | real, v =>
    match v.numeric with
    | .integer i => .real (doubleOfInt i)
    | v => v
  | _, v =>
    match v.numeric with
    | .real x => .integral x
    | v => v

end Affinity

/-- Converts a value, whatever is lost. -/
def Value.cast (a : Affinity) (v : Value) : Value :=
  match a, v with
  | _, null => null
  | .blob, v => blob v.bytes
  | .text, v => text v.bytes
  | .integer, v => integer v.toInt
  | .real, v => real v.toDouble
  | .numeric, v =>
    match v with
    | text bs | blob bs =>
      match (text bs).toNumber with
      | real x => integral x
      | v => v
    | v => v

end CouplingTree.Sql
