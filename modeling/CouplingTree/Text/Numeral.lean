import CouplingTree.Numbers.Decimal
import CouplingTree.Text.Character

/-!
# Numerals

The readers of the parts of a numeral return what follows. `plainDouble?` and `plainInt?` read a whole text of ASCII
characters. `double?` and `int?` read what people write: blanks around the number, digits of any script, and single
underscores between digits.

`number_toDigits` : the digits of a number stand for it.
-/

namespace CouplingTree.Numeral

/-- Integers of more digits are not converted. -/
def digitLimit : Nat := 4300

/-! ## Parts -/

def readDigits (cs : List Char) : List Char × List Char := (cs.takeWhile Char.isDigit, cs.dropWhile Char.isDigit)

/-- The number that decimal digits stand for. -/
def number (ds : List Char) : Nat := Nat.ofDigitChars 10 ds 0

theorem number_toDigits (n : Nat) : number (Nat.toDigits 10 n) = n :=
  Nat.ofDigitChars_toDigits (by decide) (by decide)

/-- Whether there is a minus sign in front, and what follows the sign. -/
def readSign : List Char → Bool × List Char
  | '-' :: rest => (true, rest)
  | '+' :: rest => (false, rest)
  | cs => (false, cs)

/-- The digits after a point, if there are any. -/
def readFraction? : List Char → Option (List Char × List Char)
  | '.' :: rest => if (readDigits rest).1.isEmpty then none else some (readDigits rest)
  | _ => none

/-- The power of ten after the letter `e`, if there is one. -/
def readExponent? : List Char → Option (Int × List Char)
  | [] => none
  | c :: rest =>
    let (negative, digits) := readSign rest
    let (ds, rest) := readDigits digits
    if (c = 'e' ∨ c = 'E') ∧ ¬ds.isEmpty then some (if negative then -(number ds : Int) else number ds, rest) else none

/-! ## Whole texts -/

def lowerChars (cs : List Char) : List Char :=
  cs.map fun c => if 'A' ≤ c ∧ c ≤ 'Z' then Char.ofNat (c.toNat + 0x20) else c

/-- A number without a sign; a point needs digits on one side only. -/
def unsignedDouble? (negative : Bool) (cs : List Char) : Option Float :=
  let (whole, rest) := readDigits cs
  let (fraction, rest) :=
    match rest with
    | '.' :: rest => readDigits rest
    | rest => ([], rest)
  if whole.isEmpty ∧ fraction.isEmpty then none
  else
    let value (power : Int) : Float :=
      (⟨number (whole ++ fraction), power - fraction.length⟩ : Decimal).toDouble negative
    match rest with
    | [] => some (value 0)
    | rest =>
      match readExponent? rest with
      | some (power, []) => some (value power)
      | _ => none

/-- A double, with or without a sign; there are words for the infinities and for what is no number. -/
def plainDouble? (cs : List Char) : Option Float :=
  let (negative, body) := readSign cs
  let word := String.ofList (lowerChars body)
  if word = "inf" ∨ word = "infinity" then some (Binary64.infinity negative)
  else if word = "nan" then some Binary64.notANumber
  else unsignedDouble? negative body

/-- An integer, with or without a sign. -/
def plainInt? (cs : List Char) : Option Int :=
  let (negative, ds) := readSign cs
  if ds.isEmpty || !ds.all Char.isDigit then none
  else some (if negative then -(number ds : Int) else number ds)

/-! ## Numbers as people write them -/

/-- ASCII digits in place of those of other scripts. -/
def asciiDigits (cs : List Char) : List Char :=
  cs.map fun c => (digitValue? c).elim c Nat.digitChar

/-- Drops the underscores between two digits; there may be no others. -/
def joinGroups (afterDigit : Bool) : List Char → Option (List Char)
  | [] => some []
  | '_' :: rest => if afterDigit && rest.head?.any Char.isDigit then joinGroups false rest else none
  | c :: rest => (joinGroups c.isDigit rest).map (c :: ·)

def double? (cs : List Char) : Option Float := (joinGroups false (asciiDigits (strip isBlank cs))).bind plainDouble?

/-- An integer of not too many digits. -/
def int? (cs : List Char) : Option Int :=
  (joinGroups false (asciiDigits (strip isBlank cs))).bind fun ds =>
    if digitLimit < (ds.countP Char.isDigit) then none else plainInt? ds

end CouplingTree.Numeral
