import CouplingTree.Json.Value
import CouplingTree.Text.Numeral
import CouplingTree.Text.Utf16

/-!
# Reading JSON

`Json.read` reads a whole text as one value. Besides the standard's grammar it takes the numbers `NaN`, `Infinity` and
`-Infinity`. A text that is no value is refused with the fault and the place where reading stopped; lists and objects may
be nested to a limit.

The reading functions return the characters after what they read, so a place is told by how many are left.
-/

namespace CouplingTree.Json

/-! ## Faults -/

inductive Fault
  | expectingValue
  | expectingName
  | expectingColon
  | expectingComma
  | unterminatedString
  | controlCharacter
  | escape
  | codeUnit
  | extraData
  | byteOrderMark
deriving DecidableEq, Repr

def Fault.message : Fault → String
  | expectingValue => "Expecting value"
  | expectingName => "Expecting property name enclosed in double quotes"
  | expectingColon => "Expecting ':' delimiter"
  | expectingComma => "Expecting ',' delimiter"
  | unterminatedString => "Unterminated string starting at"
  | controlCharacter => "Invalid control character at"
  | escape => "Invalid \\escape"
  | codeUnit => "Invalid \\uXXXX escape"
  | extraData => "Extra data"
  | byteOrderMark => "Unexpected UTF-8 BOM (decode using utf-8-sig)"

/-- A place in a text: characters before it, and its line and column, both counted from one. -/
structure Place where
  index : Nat
  line : Nat
  column : Nat
deriving DecidableEq, Repr

/-- The place after the characters `before`. -/
def Place.after (before : List Char) : Place where
  index := before.length
  line := before.count '\n' + 1
  column := (before.reverse.takeWhile (· ≠ '\n')).length + 1

inductive Container
  | list
  | object
deriving DecidableEq, Repr

inductive ReadError
  | malformed (fault : Fault) (place : Place)
  /-- An integer with more digits than are converted. -/
  | longInteger (digits : Nat)
  /-- A list or an object inside more others than may be nested. -/
  | tooDeep (container : Container)
deriving DecidableEq, Repr

def ReadError.message : ReadError → String
  | malformed fault place =>
    s!"{fault.message}: line {place.line} column {place.column} (char {place.index})"
  | longInteger digits =>
    s!"Exceeds the limit ({Numeral.digitLimit} digits) for integer string conversion: value has {digits} digits; " ++
      "use sys.set_int_max_str_digits() to increase the limit"
  | tooDeep container =>
    "maximum recursion depth exceeded while decoding a JSON " ++
      (match container with | .list => "array" | .object => "object") ++ " from a unicode string"

/-- Why reading stopped; a fault comes with the characters left at its place. -/
inductive Stop
  | fault (fault : Fault) (left : List Char)
  | longInteger (digits : Nat)
  | tooDeep (container : Container)

abbrev Reading (α : Type) := Except Stop (α × List Char)

def stopAt {α : Type} (fault : Fault) (left : List Char) : Except Stop α := .error (.fault fault left)

/-! ## Blanks and strings -/

def isBlank (c : Char) : Bool := c = ' ' || c = '\t' || c = '\n' || c = '\r'

def skipBlanks (cs : List Char) : List Char := cs.dropWhile isBlank

/-- Four hexadecimal digits as a number. -/
def codeUnit? (a b c d : Char) : Option Nat :=
  match hexValue? a, hexValue? b, hexValue? c, hexValue? d with
  | some a, some b, some c, some d => some (((a * 16 + b) * 16 + c) * 16 + d)
  | _, _, _, _ => none

/-- The character after a backslash, other than `u`. -/
def escaped? (c : Char) : Option Char :=
  if c = '"' ∨ c = '\\' ∨ c = '/' then some c
  else if c = 'b' then some '\x08'
  else if c = 'f' then some '\x0c'
  else if c = 'n' then some '\n'
  else if c = 'r' then some '\r'
  else if c = 't' then some '\t'
  else none

/-- Puts a code point in front of what is read next. -/
def Reading.push (n : Nat) (r : Reading (List Nat)) : Reading (List Nat) := r.map fun p => (n :: p.1, p.2)

/-- Reads the code points of a string; `start` is the text from its opening quote on. -/
def readCodes (start : List Char) : List Char → Reading (List Nat)
  | [] => stopAt .unterminatedString start
  | '"' :: rest => .ok ([], rest)
  | ['\\'] => stopAt .unterminatedString start
  | '\\' :: 'u' :: a :: b :: c :: d :: e :: rest =>
    match codeUnit? a b c d with
    | none => stopAt .codeUnit ('u' :: a :: b :: c :: d :: e :: rest)
    | some unit => (readCodes start (e :: rest)).push unit
  | '\\' :: 'u' :: rest => stopAt .codeUnit ('u' :: rest)
  | '\\' :: c :: rest =>
    match escaped? c with
    | none => stopAt .escape ('\\' :: c :: rest)
    | some c' => (readCodes start rest).push c'.toNat
  | c :: rest => if c.toNat < 0x20 then stopAt .controlCharacter (c :: rest) else (readCodes start rest).push c.toNat

section

variable {start tail rest : List Char} {c d : Char} {ns : List Nat}

theorem readCodes_escaped (h : escaped? d = some c) (hr : readCodes start tail = .ok (ns, rest)) :
    readCodes start ('\\' :: d :: tail) = .ok (c.toNat :: ns, rest) := by
  have hu : d ≠ 'u' := by
    rintro rfl
    cases h
  rw [readCodes]
  · rw [h]
    simp only [hr]
    rfl
  all_goals simp_all

theorem readCodes_plain (hquote : c ≠ '"') (hslash : c ≠ '\\') (hspace : 0x20 ≤ c.toNat)
    (hr : readCodes start tail = .ok (ns, rest)) : readCodes start (c :: tail) = .ok (c.toNat :: ns, rest) := by
  rw [readCodes]
  · rw [if_neg (Nat.not_lt.2 hspace), hr]
    rfl
  all_goals simp_all

end

/-- Reads a string after its opening quote. -/
def readString (rest : List Char) : Reading String :=
  (readCodes ('"' :: rest) rest).map fun p => (String.ofList (Utf16.join p.1), p.2)

/-! ## Numbers -/

/-- Whether there is a minus sign in front, and what follows it. -/
def readMinus : List Char → Bool × List Char
  | '-' :: rest => (true, rest)
  | cs => (false, cs)

/-- The digits before a point. A zero in front is the only one. -/
def readWholePart : List Char → List Char × List Char
  | '0' :: rest => (['0'], rest)
  | cs => Numeral.readDigits cs

def readNumber (cs : List Char) : Reading Json :=
  let (negative, body) := readMinus cs
  let (whole, rest) := readWholePart body
  if whole.isEmpty then stopAt .expectingValue cs
  else
    match Numeral.readFraction? rest, Numeral.readExponent? ((Numeral.readFraction? rest).elim rest Prod.snd) with
    | none, none =>
      if Numeral.digitLimit < whole.length then .error (.longInteger whole.length)
      else .ok (.int (if negative then -(Numeral.number whole : Int) else Numeral.number whole), rest)
    | fraction, exponent =>
      let digits := fraction.elim [] Prod.fst
      let power : Int := exponent.elim 0 Prod.fst
      let d : Decimal := ⟨Numeral.number (whole ++ digits), power - digits.length⟩
      .ok (.double (d.toDouble negative), exponent.elim (fraction.elim rest Prod.snd) Prod.snd)

/-! ## Values -/

/-- Reads a value that is no string, list or object. -/
def readPlain : List Char → Reading Json
  | 'n' :: 'u' :: 'l' :: 'l' :: rest => .ok (.null, rest)
  | 't' :: 'r' :: 'u' :: 'e' :: rest => .ok (.bool true, rest)
  | 'f' :: 'a' :: 'l' :: 's' :: 'e' :: rest => .ok (.bool false, rest)
  | 'N' :: 'a' :: 'N' :: rest => .ok (.double Binary64.notANumber, rest)
  | 'I' :: 'n' :: 'f' :: 'i' :: 'n' :: 'i' :: 't' :: 'y' :: rest => .ok (.double (Binary64.infinity false), rest)
  | '-' :: 'I' :: 'n' :: 'f' :: 'i' :: 'n' :: 'i' :: 't' :: 'y' :: rest => .ok (.double (Binary64.infinity true), rest)
  | cs => readNumber cs

/-- What begins with none of the letters of a name is a number. -/
theorem readPlain_eq_readNumber {c : Char} {cs : List Char} (h : c ∉ ['n', 't', 'f', 'N', 'I', '-']) :
    readPlain (c :: cs) = readNumber (c :: cs) := by
  rw [readPlain] <;> simp_all

theorem readPlain_minus {c : Char} {cs : List Char} (h : c ≠ 'I') :
    readPlain ('-' :: c :: cs) = readNumber ('-' :: c :: cs) := by
  rw [readPlain] <;> simp_all

mutual

/-- Reads one value at the front of the text, with at most `depth` lists and objects inside each other. -/
def readValue (depth : Nat) : Nat → List Char → Except Stop (Json × List Char)
  | 0, cs => stopAt .expectingValue cs
  | fuel + 1, cs =>
    match cs, depth with
    | '"' :: rest, _ => (readString rest).map fun p => (.text p.1, p.2)
    | '[' :: _, 0 => .error (.tooDeep .list)
    | '[' :: rest, depth + 1 =>
      match skipBlanks rest with
      | ']' :: rest => .ok (.list [], rest)
      | rest => (readItems depth fuel rest).map fun p => (.list p.1, p.2)
    | '\x7b' :: _, 0 => .error (.tooDeep .object)
    | '\x7b' :: rest, depth + 1 =>
      match skipBlanks rest with
      | '\x7d' :: rest => .ok (.object [], rest)
      | rest => (readFields depth fuel rest).map fun p => (.ofEntries p.1, p.2)
    | cs, _ => readPlain cs

/-- Reads the items of a list up to its closing bracket; there is at least one. -/
def readItems (depth : Nat) : Nat → List Char → Except Stop (List Json × List Char)
  | 0, cs => stopAt .expectingValue cs
  | fuel + 1, cs => do
    let (v, rest) ← readValue depth fuel cs
    match skipBlanks rest with
    | ']' :: rest => .ok ([v], rest)
    | ',' :: rest =>
      let (vs, rest) ← readItems depth fuel (skipBlanks rest)
      .ok (v :: vs, rest)
    | rest => stopAt .expectingComma rest

/-- Reads the fields of an object up to its closing brace; there is at least one. -/
def readFields (depth : Nat) : Nat → List Char → Except Stop (List (String × Json) × List Char)
  | 0, cs => stopAt .expectingName cs
  | fuel + 1, cs =>
    match cs with
    | '"' :: rest => do
      let (k, rest) ← readString rest
      match skipBlanks rest with
      | ':' :: rest =>
        let (v, rest) ← readValue depth fuel (skipBlanks rest)
        match skipBlanks rest with
        | '\x7d' :: rest => .ok ([(k, v)], rest)
        | ',' :: rest =>
          let (fields, rest) ← readFields depth fuel (skipBlanks rest)
          .ok ((k, v) :: fields, rest)
        | rest => stopAt .expectingComma rest
      | rest => stopAt .expectingColon rest
    | cs => stopAt .expectingName cs

end

/-- Reads a text that holds one value between blanks. -/
def readWhole (depth : Nat) (cs : List Char) : Except Stop Json := do
  let (v, rest) ← readValue depth (2 * cs.length + 2) (skipBlanks cs)
  match skipBlanks rest with
  | [] => .ok v
  | rest => stopAt .extraData rest

/-- The error for a stop within a text. -/
def Stop.toError (cs : List Char) : Stop → ReadError
  | fault f left => .malformed f (.after (cs.take (cs.length - left.length)))
  | longInteger digits => .longInteger digits
  | tooDeep container => .tooDeep container

/-- Reads a text that holds one value. -/
def read (depth : Nat) (cs : List Char) : Except ReadError Json := (readWhole depth cs).mapError (Stop.toError cs)

/-- Reads a text that holds one value and no byte order mark. -/
def readUnmarked (depth : Nat) (cs : List Char) : Except ReadError Json :=
  if cs.head? = some '\uFEFF' then .error (.malformed .byteOrderMark (.after [])) else read depth cs

end CouplingTree.Json
