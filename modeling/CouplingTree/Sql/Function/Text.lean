import CouplingTree.Sql.Function.Basic
import CouplingTree.Sql.Pattern
import CouplingTree.Text.Character

/-!
# Functions of texts

Characters are counted from one on, and from the end if their place is negative. A text that is looked at as a whole ends
at its first zero byte.

`placeIn_self` : a text is found in itself at its start.
-/

namespace CouplingTree.Sql

namespace ScalarFunction

/-! ## Parts -/

/-- A function of a text, which makes nothing of nothing. -/
def ofText (f : Bytes → Value) : Value → Value
  | .null => .null
  | v => f v.bytes

def length : Value → Value
  | .null => .null
  | .blob bs => .integer bs.length
  | v => .integer (characters (beforeZero v.bytes)).length

/-- The start and the number of the items taken from so many, as they are asked for. Places count from one, and from the
end if they are negative; a negative number of items is taken before the place. -/
def slice (size : Nat) (place : Int) (count : Option Int) : Nat × Nat :=
  let back := count.any (· < 0)
  let n : Int := (count.map fun c => (c.natAbs : Int)).getD (size + place.natAbs + 1)
  let (p, n) : Int × Int :=
    if place < 0 then
      let p := place + size
      if p < 0 then (0, max (n + p) 0) else (p, n)
    else if 0 < place then (place - 1, n)
    else (0, if 0 < n then n - 1 else n)
  let (p, n) : Int × Int :=
    if back then
      if p - n < 0 then (0, p) else (p - n, n)
    else (p, n)
  (p.toNat, n.toNat)

def part (v : Value) (place : Int) (count : Option Int) : Value :=
  match v with
  | .null => .null
  | .blob bs =>
    let (p, n) := slice bs.length place count
    .blob ((bs.drop p).take n)
  | v =>
    let cs := characters (beforeZero v.bytes)
    let (p, n) := slice cs.length place count
    .text ((cs.drop p).take n).flatten

/-- A function of a text, a place and, if it is given, a number of characters. -/
def slicing (name : String) : ScalarFunction :=
  ofValues name 2 3 fun vs => match vs with
    | [v, p] => .ok (if p.isNull then .null else part v p.toInt none)
    | [v, p, n] => .ok (if p.isNull || n.isNull then .null else part v p.toInt (some n.toInt))
    | _ => .ok .null

/-- Drops characters at the start, at the end, or both. -/
def trim (start stop : Bool) (v : Value) (dropped : Value) : Value :=
  if v.isNull || dropped.isNull then .null
  else
    let away := characters (beforeZero dropped.bytes)
    let cs := characters v.bytes
    let cs := if start then cs.dropWhile (· ∈ away) else cs
    .text (if stop then (cs.reverse.dropWhile (· ∈ away)).reverse else cs).flatten

def space : Value := .ofString " "

/-! ## Finding and replacing -/

/-- Puts one text for another one, each time that it is found. -/
def replaceAll (old new : Bytes) : Nat → Bytes → Bytes
  | 0, bs => bs
  | _, [] => []
  | fuel + 1, b :: bs =>
    if old.isPrefixOf (b :: bs) then new ++ replaceAll old new fuel ((b :: bs).drop old.length)
    else b :: replaceAll old new fuel bs

def replace (v old new : Value) : Value :=
  if v.isNull || old.isNull then .null
  else if (beforeZero old.bytes).isEmpty then v
  else if new.isNull then .null
  else .text (replaceAll old.bytes new.bytes v.bytes.length v.bytes)

/-- The place of a list in another one, from one on, or zero. -/
def placeIn (part : List Bytes) : List Bytes → Nat → Nat
  | [], n => if part.isEmpty then n + 1 else 0
  | c :: cs, n => if part.isPrefixOf (c :: cs) then n + 1 else placeIn part cs (n + 1)

theorem placeIn_self (cs : List Bytes) (n : Nat) : placeIn cs cs n = n + 1 := by
  cases cs <;> simp [placeIn]

def find : Value → Value → Value
  | .null, _ => .null
  | _, .null => .null
  | .blob a, .blob b => .integer (placeIn (b.map ([·])) (a.map ([·])) 0)
  | a, b => .integer (placeIn (characters b.bytes) (characters a.bytes) 0)

/-! ## Patterns -/

/-- Whether a text is as a pattern says. Blobs are like nothing. -/
def matching (matched : Bytes → Bytes → Bool) : Value → Value → Value
  | .blob _, _ => .ofBool false
  | _, .blob _ => .ofBool false
  | pattern, text => if pattern.isNull || text.isNull then .null else .ofBool (matched pattern.bytes text.bytes)

/-- The longest pattern. -/
def patternLimit : Nat := 50000

def like (pattern text : Value) (escape : Option Value) : Outcome :=
  let isBlob : Value → Bool := fun | .blob _ => true | _ => false
  if isBlob pattern || isBlob text then .ok (.ofBool false)
  else if patternLimit < pattern.bytes.length then .error .patternTooComplex
  else
    match escape with
    | none => .ok (matching (Pattern.like none) pattern text)
    | some e =>
      if e.isNull then .ok .null
      else
        match characters (beforeZero e.bytes) with
        | [c] => .ok (matching (Pattern.like (some c)) pattern text)
        | _ => .error .escapeWidth

def glob (pattern text : Value) : Outcome :=
  if patternLimit < pattern.bytes.length then .error .patternTooComplex else .ok (matching Pattern.glob pattern text)

/-! ## Code points -/

/-- The number that the first character of a text stands for, if there is one. -/
def firstCodePoint : Bytes → Value
  | [] => .null
  | b :: rest =>
    if b = 0 then .null
    else if b < 0xC0 then .integer b.toNat
    else
      let lead := b.toNat
      let start :=
        if lead < 0xE0 then lead - 0xC0 else if lead < 0xF0 then lead - 0xE0 else if lead < 0xF8 then lead - 0xF0
        else if lead < 0xFC then lead - 0xF8 else if lead < 0xFE then lead - 0xFC else 0
      let n := (rest.takeWhile fun c => 0x80 ≤ c && c < 0xC0).foldl
        (fun n c => (n * 64 + (c.toNat - 0x80)) % 0x100000000) start
      let isBad := decide (n < 0x80 ∨ 0xD800 ≤ n ∧ n < 0xE000 ∨ n / 2 = 0x7FFF)
      .integer (if isBad then 0xFFFD else n)

/-- The bytes of a code point; what is none is replaced. Halves of pairs are written like others. -/
def character (v : Value) : Bytes :=
  let i := v.toInt
  Utf8.bytesOf (if i < 0 ∨ 0x10FFFF < i then 0xFFFD else i.toNat)

def hexDigits (bs : Bytes) : String :=
  String.ofList (bs.flatMap fun b => (hexText 2 b.toNat).map Char.toUpper)

/-! ## Sounds -/

/-- The digit for the sound of a letter; zero stands for none. -/
def soundOf (b : UInt8) : Nat :=
  let groups : List (Nat × String) := [(1, "bfpv"), (2, "cgjkqsxz"), (3, "dt"), (4, "l"), (5, "mn"), (6, "r")]
  ((groups.find? fun g => Char.ofNat (lowerByte b).toNat ∈ g.2.toList).map Prod.fst).getD 0

def isLetterByte (b : UInt8) : Bool := let c := lowerByte b; 0x61 ≤ c && c ≤ 0x7A

/-- The digits for the sounds of letters. One that is like the one before it is left out. -/
def sounds : Nat → Bytes → List Nat
  | _, [] => []
  | last, b :: rest =>
    let d := soundOf b
    if d = 0 then sounds 0 rest else if d = last then sounds last rest else d :: sounds d rest

def soundCode (v : Value) : Value :=
  match (beforeZero v.bytes).dropWhile fun b => !isLetterByte b with
  | [] => .ofString "?000"
  | b :: rest =>
    let ds := (sounds (soundOf b) rest).take 3
    .text (upperByte b :: (ds ++ List.replicate (3 - ds.length) 0).map fun d => UInt8.ofNat (0x30 + d))

/-! ## Quotation -/

/-- The format of doubles from which they are read again. -/
def exactFormat : RealFormat := { form := .scientific, precision := 20, isExact := true }

/-- A double in as many digits as it needs. -/
def quotedReal (x : Float) : List Char :=
  let short := RealFormat.fifteen.text x
  let back := ((LeadingNumber.read? (Utf8.encode (String.ofList short))).map LeadingNumber.toDouble).getD 0
  if back == x then short else exactFormat.text x

/-- A value as it is written in a statement. -/
def quote : Value → Value
  | .null => .ofString "NULL"
  | .text bs => .text (0x27 :: (beforeZero bs).flatMap (fun b => if b = 0x27 then [b, b] else [b]) ++ [0x27])
  | .blob bs => .ofString ("X'" ++ hexDigits bs ++ "'")
  | .real x => .ofString (String.ofList (quotedReal x))
  | v => .text v.bytes

def kind : Value → Value
  | .null => .ofString "null"
  | .integer _ => .ofString "integer"
  | .real _ => .ofString "real"
  | .text _ => .ofString "text"
  | .blob _ => .ofString "blob"

/-! ## The functions by their names -/

def ofTexts : List ScalarFunction := [
  unary "upper" (ofText fun bs => .text (bs.map upperByte)),
  unary "lower" (ofText fun bs => .text (bs.map lowerByte)),
  unary "length" length,
  slicing "substr", slicing "substring",
  unaryOr "trim" space (trim true true), unaryOr "ltrim" space (trim true false), unaryOr "rtrim" space (trim false true),
  ofValues "replace" 3 3 fun vs => match vs with | [v, a, b] => .ok (replace v a b) | _ => .ok .null,
  binary "instr" find,
  unary "hex" fun v => .ofString (hexDigits v.bytes),
  unary "quote" quote,
  unary "unicode" (ofText firstCodePoint),
  ofValues "char" 0 unbounded fun vs => .ok (.text (vs.flatMap character)),
  unary "typeof" kind,
  unary "soundex" soundCode,
  ofValues "like" 2 3 fun vs => match vs with
    | [p, t] => like p t none | [p, t, e] => like p t (some e) | _ => .ok .null,
  ofValues "glob" 2 2 fun vs => match vs with | [p, t] => glob p t | _ => .ok .null]

end ScalarFunction

end CouplingTree.Sql
