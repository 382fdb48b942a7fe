import CouplingTree.Numbers.Binary64
import CouplingTree.Text.Character

/-!
# Values

A value is nothing, a number, a text or a blob. Values have a total order: nothing comes first, then numbers, texts and
blobs. Numbers are compared exactly, whether they are integers or doubles, and texts by a collation.

`Value.same_text` : a text is the same as itself.
-/

namespace CouplingTree.Sql

abbrev Bytes := List UInt8

/-- A text is kept in the bytes of UTF-8, which need not be in order. -/
inductive Value
  | null
  | integer (i : Int)
  | real (x : Float)
  | text (bytes : Bytes)
  | blob (bytes : Bytes)
deriving Inhabited

/-- How texts are compared. -/
inductive Collation
  | binary
  /-- Without regard to the case of ASCII letters. -/
  | noCase
  /-- Without regard to spaces at the end. -/
  | rightTrim
  /-- A collation that is named, but not known. -/
  | unknown (name : String)
deriving DecidableEq, Repr

/-! ## Bytes -/

/-- The small letter of ASCII in place of a capital one. -/
def lowerByte (b : UInt8) : UInt8 := if 0x41 ≤ b ∧ b ≤ 0x5A then b + 0x20 else b

def upperByte (b : UInt8) : UInt8 := if 0x61 ≤ b ∧ b ≤ 0x7A then b - 0x20 else b

def isBlankByte (b : UInt8) : Bool := b = 0x20 || (0x09 ≤ b && b ≤ 0x0D)

def isDigitByte (b : UInt8) : Bool := 0x30 ≤ b && b ≤ 0x39

def dropWhileRight (p : UInt8 → Bool) (bs : Bytes) : Bytes := (bs.reverse.dropWhile p).reverse

/-- The part of a text before its first zero byte. -/
def beforeZero (bs : Bytes) : Bytes := bs.takeWhile (· ≠ 0)

def compareBytes : Bytes → Bytes → Ordering
  | [], [] => .eq
  | [], _ :: _ => .lt
  | _ :: _, [] => .gt
  | a :: as, b :: bs => if a < b then .lt else if b < a then .gt else compareBytes as bs

theorem compareBytes_self : ∀ bs : Bytes, compareBytes bs bs = .eq
  | [] => rfl
  | b :: bs => by
    have h : ¬b < b := UInt8.lt_irrefl b
    simp [compareBytes, h, compareBytes_self bs]

namespace Collation

/-- The bytes that count. -/
def key : Collation → Bytes → Bytes
  | binary, bs => bs
  | noCase, bs => bs.map lowerByte
  | rightTrim, bs => dropWhileRight (· = 0x20) bs
  | unknown _, bs => bs

def compare (c : Collation) (a b : Bytes) : Ordering := compareBytes (c.key a) (c.key b)

/-- The collation of a name, in letters of either case. -/
def ofName (name : String) : Collation :=
  match lowerAscii name with
  | "binary" => binary
  | "nocase" => noCase
  | "rtrim" => rightTrim
  | _ => unknown name

end Collation

/-! ## Numbers -/

/-- Where a number lies: below or above all rational numbers, or at one of them. -/
inductive Place
  | below
  | rational (q : Rat)
  | above

namespace Place

def ofDouble (x : Float) : Place :=
  match Binary64.value x with
  | .infinity true => below
  | .infinity false => above
  | _ => rational ((Binary64.toRat? x).getD 0)

def compare : Place → Place → Ordering
  | below, below => .eq
  | below, _ => .lt
  | _, below => .gt
  | above, above => .eq
  | above, _ => .gt
  | _, above => .lt
  | rational p, rational q => if p < q then .lt else if q < p then .gt else .eq

end Place

/-! ## The order of values -/

namespace Value

/-- The place of the kind of a value among the others. -/
def rank : Value → Nat
  | null => 0
  | integer _ | real _ => 1
  | text _ => 2
  | blob _ => 3

def place : Value → Place
  | integer i => .rational i
  | real x => .ofDouble x
  | _ => .below

def compare (c : Collation) : Value → Value → Ordering
  | integer i, integer j => Ord.compare i j
  | text a, text b => c.compare a b
  | blob a, blob b => compareBytes a b
  | a, b => if a.rank = b.rank then a.place.compare b.place else Ord.compare a.rank b.rank

/-- Whether two values are the same in the order. -/
def same (c : Collation) (a b : Value) : Bool := decide (compare c a b = .eq)

def isNull : Value → Bool
  | null => true
  | _ => false

theorem same_text (c : Collation) (bs : Bytes) : same c (text bs) (text bs) = true := by
  simp [same, compare, Collation.compare, compareBytes_self]

end Value

end CouplingTree.Sql
