import CouplingTree.Numbers.Decimal
import CouplingTree.Text.Character
import CouplingTree.Text.Quoted

/-!
# Names that are no texts

A class or a method may have a number for its name, or none at all. Such a name is held in a text that a mark sets off
from others. It begins with a key: names with equal keys are equal, and the order of the keys is that of the numbers.
Behind the key stands how the name was written, which only tells how it is shown.

`name_of_ofText?` : what is taken for such a name is exactly the text that holds it.
-/

namespace CouplingTree

/-- What a name is that is no text. -/
inductive OtherName
  | missing
  | integer (i : Int)
  | double (x : Float)
  | bytes (bs : List UInt8)

namespace OtherName

/-! ## Keys -/

/-- The power of two of the first bit of a positive number. -/
def leadingExponent (num den : Nat) : Int :=
  let e : Int := (num.log2 : Int) - den.log2
  if num * twoTo (-e).toNat < den * twoTo e.toNat then e - 1 else e

/-- The exponent and the first 64 bits of a positive number; no number here has more of them. -/
def magnitude (num den : Nat) : Nat × Nat :=
  let e := leadingExponent num den
  let shift := 63 - e
  ((e + 0x4000).toNat, num * twoTo shift.toNat / (den * twoTo (-shift).toNat))

/-- The key of a number; no value stands for the numbers beyond all others. -/
def numberKey (isNegative : Bool) : Option Rat → List Char
  | none => if isNegative then ['/'] else ['3']
  | some q =>
    let (e, m) := magnitude q.num.natAbs q.den
    if q = 0 then ['1']
    else if isNegative then '0' :: hexText 4 (0xFFFF - e) ++ hexText 16 (twoTo 64 - m)
    else '2' :: hexText 4 e ++ hexText 16 m

def hexBytes (bs : List UInt8) : List Char := bs.flatMap fun b => hexText 2 b.toNat

def key : OtherName → List Char
  | missing => []
  | integer i => numberKey (decide (i < 0)) (some i)
  | double x => numberKey (decide (x < 0)) (Binary64.toRat? x)
  | bytes bs => 'x' :: hexBytes bs

/-! ## As texts -/

/-- What a text begins with that holds such a name. -/
def mark : Char := Char.ofNat 0x10FFFF

/-- The text that tells a name from all that are not equal to it. -/
def keyName (n : OtherName) : String := String.ofList (mark :: n.key)

/-- How a name was written. -/
def spelling : OtherName → List Char
  | integer i => ':' :: (toString i).toList
  | double x => '=' :: hexText 16 x.toBits.toNat
  | _ => []

/-- The text that holds a name. -/
def name (n : OtherName) : String := String.ofList (mark :: n.key ++ n.spelling)

/-- The number of hexadecimal digits. -/
def hexNumber (cs : List Char) : Nat := cs.foldl (fun n c => n * 16 + (hexValue? c).getD 0) 0

def pairs : List Char → List (Char × Char)
  | a :: b :: rest => (a, b) :: pairs rest
  | _ => []

/-- The name that a text seems to hold. -/
def candidate? : List Char → Option OtherName
  | [] => none
  | c :: cs =>
    if c ≠ mark then none
    else match cs with
      | [] => some missing
      | 'x' :: digits => some (bytes ((pairs digits).map fun p => UInt8.ofNat (hexNumber [p.1, p.2])))
      | _ =>
        match cs.dropWhile fun c => c ≠ ':' && c ≠ '=' with
        | ':' :: digits => (String.ofList digits).toInt?.map integer
        | '=' :: digits => some (double (Float.ofBits (UInt64.ofNat (hexNumber digits))))
        | _ => none

/-- The name that a text holds. -/
def ofText? (s : String) : Option OtherName := (candidate? s.toList).filter fun n => n.name == s

theorem name_of_ofText? {s : String} {n : OtherName} (h : ofText? s = some n) : n.name = s := by
  simp only [ofText?, Option.filter_eq_some_iff, beq_iff_eq] at h
  exact h.2

/-! ## In messages -/

/-- What a name of this kind is called in a message. -/
def kindName : OtherName → String
  | missing => "NoneType"
  | integer _ => "int"
  | double _ => "float"
  | bytes _ => "bytes"

/-- How a name is shown. -/
def display : OtherName → String
  | missing => "None"
  | integer i => toString i
  | double x => DoubleStyle.display.text x
  | bytes bs => "b" ++ quoted (String.ofList (bs.map fun b => Char.ofNat b.toNat))

end OtherName

/-- A name as it stands in a list: a text is quoted. -/
def shownName (s : String) : String := ((OtherName.ofText? s).map OtherName.display).getD (quoted s)

/-- A name as a key of an object. -/
def nameText (s : String) : String :=
  match OtherName.ofText? s with
  | none => s
  | some .missing => "null"
  | some n => n.display

/-- A list of names. -/
def quotedList (names : List String) : String := bracketed (names.map shownName)

end CouplingTree
