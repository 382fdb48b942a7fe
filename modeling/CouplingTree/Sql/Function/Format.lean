import CouplingTree.Sql.Function.Number
import CouplingTree.Sql.Function.Text

/-!
# Formats

A format is a text with directives, each of which is replaced by a value. A directive starts with a percent sign; behind
it come flags, a width and a precision, and a letter says how the value is written. Where the letter is none of these,
the text ends.

`fill_of_le` : a text that is as long as the width is not filled up.
-/

namespace CouplingTree.Sql

namespace Format

/-- How a value is written. -/
structure Directive where
  left : Bool := false
  zeros : Bool := false
  alternate : Bool := false
  /-- Whether more digits count, and whether characters are counted in place of bytes. -/
  exact : Bool := false
  thousands : Bool := false
  /-- What stands in front of numbers that are not negative. -/
  sign : Option UInt8 := none
  width : Nat := 0
  precision : Option Nat := none
deriving DecidableEq, Repr

namespace Directive

/-- Fills a text up to so many bytes with blanks. -/
def fillTo (d : Directive) (width : Nat) (bs : Bytes) : Bytes :=
  let blanks := List.replicate (width - bs.length) 0x20
  if d.left then bs ++ blanks else blanks ++ bs

def fill (d : Directive) (bs : Bytes) : Bytes := d.fillTo d.width bs

theorem fill_of_le {d : Directive} {bs : Bytes} (h : d.width ≤ bs.length) : d.fill bs = bs := by
  simp [fill, fillTo, Nat.sub_eq_zero_of_le h]

/-- The bytes of a text that go on with a character. -/
def following (bs : Bytes) : Nat := (bs.filter fun b => 0x80 ≤ b && b < 0xC0).length

/-- Fills a text up, where characters may be counted in place of bytes. -/
def fillText (d : Directive) (bs : Bytes) : Bytes :=
  d.fillTo (if d.exact && 0 < d.width then d.width + following bs else d.width) bs

/-- So much of a text as the precision says. -/
def cut (d : Directive) (bs : Bytes) : Bytes :=
  match d.precision with
  | none => bs
  | some n => if d.exact then ((characters bs).take n).flatten else bs.take n

end Directive

/-! ## Integers -/

/-- Digits in groups of three, from the end on. -/
def grouped (digits : List UInt8) : List UInt8 :=
  let n := digits.length
  (digits.zipIdx.map fun d => if d.2 ≠ 0 ∧ (n - d.2) % 3 = 0 then [0x2C, d.1] else [d.1]).flatten

/-- The digits of a number in a base. -/
def digitsIn (base : Nat) (capital : Bool) (n : Nat) : Bytes :=
  (Nat.toDigits base n).map fun c => UInt8.ofNat (if capital then c.toUpper else c).toNat

/-- The letters behind an ordinal number. -/
def ordinalLetters (n : Nat) : Bytes := Utf8.encode (Problem.ordinalEnding n)

/-- Digits behind a sign or a mark. The width may be filled up with zeros. -/
def padded (d : Directive) (sign : Option UInt8) (mark digits : Bytes) : Bytes :=
  let least := max (d.precision.getD 0) (if d.zeros then d.width - sign.toList.length else 0)
  let digits := List.replicate (least - digits.length) 0x30 ++ digits
  d.fill (mark ++ (sign.toList ++ if d.thousands then grouped digits else digits))

def signed (d : Directive) (letters : Nat → Bytes) (i : Int) : Bytes :=
  padded d (if i < 0 then some 0x2D else d.sign) [] (digitsIn 10 false i.natAbs ++ letters i.natAbs)

/-- An integer without a sign, in all of its 64 bits. -/
def unsigned (d : Directive) (base : Nat) (capital : Bool) (mark : String) (i : Int) : Bytes :=
  let n := (Int.emod i 0x10000000000000000).toNat
  padded { d with thousands := d.thousands && base = 10 } none (if d.alternate && n != 0 then Utf8.encode mark else [])
    (digitsIn base capital n)

/-! ## Doubles -/

def real (d : Directive) (form : RealForm) (capital : Bool) (x : Float) : Bytes :=
  let format : RealFormat := ⟨form, d.precision.getD 6, d.alternate, d.exact, capital⟩
  let text := Utf8.encode (String.ofList (format.text (if x < 0 then -x else x)))
  let sign := (if x < 0 then some 0x2D else d.sign).toList
  let isNumber := text.head?.any isDigitByte
  let text :=
    if d.thousands && isNumber then grouped (text.takeWhile isDigitByte) ++ text.dropWhile isDigitByte else text
  if d.zeros && !d.left && isNumber then sign ++ (List.replicate (d.width - sign.length - text.length) 0x30 ++ text)
  else d.fill (sign ++ text)

/-! ## Texts -/

/-- The text of a value, if it is not nothing. -/
def text? : Value → Option Bytes
  | .null => none
  | v => some (beforeZero v.bytes)

/-- The first character of a text, so often as the precision says. -/
def character (d : Directive) (v : Value) : Bytes :=
  let c : Bytes :=
    match text? v with
    | some (b :: rest) =>
      b :: if 0xC0 ≤ b then (rest.takeWhile fun c => 0x80 ≤ c && c < 0xC0).take 3 else []
    | _ => [0]
  let n := d.precision.getD 1
  let missing := d.width - max n 1
  let blanks := List.replicate missing 0x20
  let cs := (List.replicate (max n 1) c).flatten
  if d.left then cs ++ blanks else blanks ++ cs

/-- A text with each quote doubled. -/
def escaped (d : Directive) (quote : UInt8) (quotes : Bool) (v : Value) : Bytes :=
  match text? v with
  | none => d.fillText (d.cut (Utf8.encode (if quotes then "NULL" else "(NULL)")))
  | some bs =>
    let body := (d.cut bs).flatMap fun b => if b = quote then [b, b] else [b]
    d.fillText (if quotes then quote :: body ++ [quote] else body)

/-! ## Reading directives -/

/-- A width of 31 bits. -/
def widthOf (digits : Bytes) : Nat := LeadingNumber.number digits % 0x80000000

/-- What is read of a directive, what follows, and the values that are left. -/
structure Reading where
  directive : Directive
  rest : Bytes
  values : List Value

/-- The letters that say how long a number is are passed over. -/
def afterLength : Bytes → Bytes
  | 0x6C :: 0x6C :: rest => rest
  | 0x6C :: rest => rest
  | bs => bs

/-- Reads flags, width and precision, in so many steps at most. -/
def read : Nat → Reading → Reading
  | 0, r => r
  | fuel + 1, r =>
    match r.rest with
    | [] => r
    | c :: rest =>
      let flag (d : Directive) : Reading := read fuel { r with directive := d, rest }
      let goOn (r : Reading) : Reading :=
        if r.rest.head?.any fun b => b = 0x2E || b = 0x6C then read fuel r else r
      if c = 0x2D then flag { r.directive with left := true }
      else if c = 0x2B then flag { r.directive with sign := some 0x2B }
      else if c = 0x20 then flag { r.directive with sign := some 0x20 }
      else if c = 0x23 then flag { r.directive with alternate := true }
      else if c = 0x21 then flag { r.directive with exact := true }
      else if c = 0x30 then flag { r.directive with zeros := true }
      else if c = 0x2C then flag { r.directive with thousands := true }
      else if c = 0x6C then { r with rest := afterLength r.rest }
      else if isDigitByte c then
        let (ds, rest) := LeadingNumber.readDigits r.rest
        goOn { r with directive := { r.directive with width := widthOf ds }, rest }
      else if c = 0x2A then
        let w := ScalarFunction.narrow (r.values.head?.getD .null).toInt
        goOn { directive := { r.directive with width := w.natAbs, left := r.directive.left || w < 0 }, rest
               values := r.values.drop 1 }
      else if c = 0x2E then
        let (precision, rest, values) : Nat × Bytes × List Value :=
          match rest with
          | 0x2A :: rest => ((ScalarFunction.narrow (r.values.head?.getD .null).toInt).natAbs, rest, r.values.drop 1)
          | rest => (widthOf (LeadingNumber.readDigits rest).1, (LeadingNumber.readDigits rest).2, r.values)
        let r : Reading := ⟨{ r.directive with precision := some precision }, rest, values⟩
        if rest.head?.any (· = 0x6C) then { r with rest := afterLength rest } else r
      else r

/-! ## Writing -/

/-- How a letter writes a value. -/
inductive Conversion
  /-- A value is taken. -/
  | value (write : Directive → Value → Bytes)
  | constant (write : Directive → Bytes)

def conversion? (letter : Char) : Option Conversion :=
  let integer (f : Directive → Int → Bytes) : Option Conversion := some (.value fun d v => f d v.toInt)
  let double (form : RealForm) (capital : Bool) : Option Conversion :=
    some (.value fun d v => real d form capital v.toDouble)
  match letter with
  | 'd' | 'i' => integer fun d => signed d fun _ => []
  | 'r' => integer fun d => signed { d with thousands := false } ordinalLetters
  | 'u' => integer fun d => unsigned d 10 false ""
  | 'x' => integer fun d => unsigned d 16 false "0x"
  | 'X' => integer fun d => unsigned d 16 true "0X"
  | 'p' => integer fun d => unsigned d 16 true "0x"
  | 'o' => integer fun d => unsigned d 8 false "0"
  | 'f' => double .fixed false
  | 'e' => double .scientific false
  | 'E' => double .scientific true
  | 'g' => double .general false
  | 'G' => double .general true
  | 's' | 'z' => some (.value fun d v => d.fillText (d.cut ((text? v).getD [])))
  | 'c' => some (.value character)
  | 'q' => some (.value fun d => escaped d 0x27 false)
  | 'Q' => some (.value fun d => escaped d 0x27 true)
  | 'w' => some (.value fun d => escaped d 0x22 false)
  | '%' => some (.constant fun d => d.fill [0x25])
  | 'n' => some (.constant fun _ => [])
  | _ => none

/-- The pieces of a text that values are put into, in so many steps at most. -/
def pieces : Nat → Bytes → List Value → List Bytes
  | 0, _, _ => []
  | _, [], _ => []
  | fuel + 1, b :: bs, vs =>
    if b ≠ 0x25 then (b :: bs.takeWhile (· ≠ 0x25)) :: pieces fuel (bs.dropWhile (· ≠ 0x25)) vs
    else if bs.isEmpty then [[0x25]]
    else
      let r := read (bs.length + 1) ⟨{}, bs, vs⟩
      match r.rest with
      | [] => []
      | letter :: rest =>
        match conversion? (Char.ofNat letter.toNat) with
        | none => []
        | some (.constant write) => write r.directive :: pieces fuel rest r.values
        | some (.value write) =>
          write r.directive (r.values.head?.getD .null) :: pieces fuel rest (r.values.drop 1)

/-- Puts values into a format. Where nothing is written, there is no text either. -/
def apply : List Value → Value
  | [] => .null
  | f :: vs =>
    if f.isNull then .null
    else
      let ps := pieces (f.bytes.length + 1) (beforeZero f.bytes) vs
      if ps.isEmpty then .null else .text ps.flatten

end Format

namespace ScalarFunction

def ofFormats : List ScalarFunction :=
  ["printf", "format"].map fun name => ofValues name 0 unbounded fun vs => .ok (Format.apply vs)

end ScalarFunction

end CouplingTree.Sql
