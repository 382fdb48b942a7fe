import CouplingTree.Sql.Function.Basic
import CouplingTree.Text.Character

/-!
# Documents in texts

A document is a value that is written in JSON, by the strict rules: numbers have no zeros in front, and texts no control
characters. Numbers and texts are kept as they are written, so a document that is read and written again differs in its
blanks alone.

`Document.ofBytes?` reads a document, `Document.written` writes it, and `Document.datum` is the value that it stands for.

`written_list_nil` : a list without items is written in two brackets.
-/

namespace CouplingTree.Sql

/-- The name of a member: what is between the quotes, or the bytes themselves. -/
structure MemberName where
  content : Bytes
  isQuoted : Bool
deriving DecidableEq

inductive Document
  | null
  | truth (b : Bool)
  | integer (digits : Bytes)
  | real (digits : Bytes)
  /-- A text as it stands between the quotes, and whether characters in it are escaped. -/
  | text (content : Bytes) (hasEscapes : Bool)
  | list (items : List Document)
  | object (members : List (MemberName × Document))
  /-- A document that has been put in place of another one, as it is written. It has no parts. -/
  | fixed (source : Bytes)
  /-- Where a document has been taken away. -/
  | removed

instance inhabitedDocument : Inhabited Document := ⟨.null⟩

namespace Document

/-! ## Reading -/

def isBlank (b : UInt8) : Bool := b = 0x20 || b = 0x09 || b = 0x0A || b = 0x0D

def skipBlanks (bs : Bytes) : Bytes := bs.dropWhile isBlank

def isHexByte (b : UInt8) : Bool := (hexValue? (Char.ofNat b.toNat)).isSome && b < 0x80

def isWordByte (b : UInt8) : Bool := isDigitByte b || (let c := lowerByte b; 0x61 ≤ c && c ≤ 0x7A)

/-- The content of a text up to the closing quote, whether it has escapes, and what follows. -/
def text? : Bytes → Option (Bytes × Bool × Bytes)
  | [] => none
  | b :: rest =>
    if b < 0x20 then none
    else if b = 0x22 then some ([], false, rest)
    else if b = 0x5C then
      match rest with
      | [] => none
      | e :: rest =>
        if e ∈ [0x22, 0x5C, 0x2F, 0x62, 0x66, 0x6E, 0x72, 0x74] ||
            (e = 0x75 && decide (4 ≤ rest.length) && (rest.take 4).all isHexByte) then
          (text? rest).map fun t => (b :: e :: t.1, true, t.2.2)
        else none
    else (text? rest).map fun t => (b :: t.1, t.2.1, t.2.2)

/-- Goes on with a number behind a byte: whether a point, and whether an exponent has been seen. -/
def numberFrom (last : UInt8) (point exponent : Bool) : Bytes → Option (Bytes × Bool × Bytes)
  | [] => if last < 0x30 then none else some ([], point, [])
  | b :: rest =>
    let goOn (point exponent : Bool) : Option (Bytes × Bool × Bytes) :=
      (numberFrom b point exponent rest).map fun n => (b :: n.1, n.2.1, n.2.2)
    if isDigitByte b then goOn point exponent
    else if b = 0x2E then if last = 0x2D || point then none else goOn true exponent
    else if b = 0x65 || b = 0x45 then
      if last < 0x30 || exponent then none
      else
        match rest with
        | [] => none
        | c :: rest =>
          if isDigitByte c then (numberFrom c true true rest).map fun n => (b :: c :: n.1, n.2.1, n.2.2)
          else if (c = 0x2B || c = 0x2D) && rest.head?.any isDigitByte then
            (numberFrom c true true rest).map fun n => (b :: c :: n.1, n.2.1, n.2.2)
          else none
    else if last < 0x30 then none
    else some ([], point, b :: rest)

/-- A number whose first byte is a digit or a minus sign. -/
def number? : Bytes → Option (Document × Bytes)
  | [] => none
  | b :: rest =>
    let digits := if b = 0x2D then rest else b :: rest
    let startsWithZero : Bool :=
      match digits with
      | 0x30 :: d :: _ => isDigitByte d
      | _ => false
    if startsWithZero then none
    else (numberFrom b false false rest).map fun n => (if n.2.1 then real (b :: n.1) else integer (b :: n.1), n.2.2)

/-- A word that no other word goes on with. -/
def word? (bs : Bytes) : Option (Document × Bytes) :=
  let words : List (String × Document) := [("null", .null), ("true", .truth true), ("false", .truth false)]
  words.findSome? fun w =>
    let name := Utf8.encode w.1
    let rest := bs.drop name.length
    if name.isPrefixOf bs && !rest.head?.any isWordByte then some (w.2, rest) else none

mutual

/-- A value after blanks, nested so deeply at most. -/
def value? : Nat → Nat → Bytes → Option (Document × Bytes)
  | 0, _, _ => none
  | _, 0, _ => none
  | fuel + 1, depth + 1, bs =>
    match skipBlanks bs with
    | [] => none
    | b :: rest =>
      if b = 0x7B then
        match skipBlanks rest with
        | 0x7D :: rest => some (.object [], rest)
        | rest => (members? fuel depth rest).map fun m => (.object m.1, m.2)
      else if b = 0x5B then
        match skipBlanks rest with
        | 0x5D :: rest => some (.list [], rest)
        | rest => (items? fuel depth rest).map fun i => (.list i.1, i.2)
      else if b = 0x22 then (text? rest).map fun t => (.text t.1 t.2.1, t.2.2)
      else if b = 0x2D || isDigitByte b then number? (b :: rest)
      else word? (b :: rest)

/-- The items of a list up to its end. -/
def items? : Nat → Nat → Bytes → Option (List Document × Bytes)
  | 0, _, _ => none
  | fuel + 1, depth, bs =>
    match value? fuel depth bs with
    | none => none
    | some (item, rest) =>
      match skipBlanks rest with
      | 0x2C :: rest => (items? fuel depth rest).map fun i => (item :: i.1, i.2)
      | 0x5D :: rest => some ([item], rest)
      | _ => none

/-- The members of an object up to its end. -/
def members? : Nat → Nat → Bytes → Option (List (MemberName × Document) × Bytes)
  | 0, _, _ => none
  | fuel + 1, depth, bs =>
    match skipBlanks bs with
    | 0x22 :: rest =>
      match text? rest with
      | none => none
      | some (name, _, rest) =>
        match skipBlanks rest with
        | 0x3A :: rest =>
          match value? fuel depth rest with
          | none => none
          | some (item, rest) =>
            match skipBlanks rest with
            | 0x2C :: rest => (members? fuel depth rest).map fun m => ((⟨name, true⟩, item) :: m.1, m.2)
            | 0x7D :: rest => some ([(⟨name, true⟩, item)], rest)
            | _ => none
        | _ => none
    | _ => none

end

/-- Documents may be inside each other so deeply. -/
def depthLimit : Nat := 2000

/-- The document that all of a text is. -/
def ofBytes? (bs : Bytes) : Option Document :=
  match value? (2 * bs.length + 2) depthLimit bs with
  | some (d, rest) => if (skipBlanks rest).isEmpty then some d else none
  | none => none

/-! ## Writing -/

/-- A byte of a text as it is written. -/
def writtenByte (b : UInt8) : Bytes :=
  let letters : List (UInt8 × UInt8) := [(0x08, 0x62), (0x09, 0x74), (0x0A, 0x6E), (0x0C, 0x66), (0x0D, 0x72)]
  if b = 0x22 || b = 0x5C then [0x5C, b]
  else if b < 0x20 then
    match letters.lookup b with
    | some c => [0x5C, c]
    | none => Utf8.encode ("\\u00" ++ String.ofList (hexText 2 b.toNat))
  else [b]

def quoted (content : Bytes) : Bytes := 0x22 :: content ++ [0x22]

def writtenText (bs : Bytes) : Bytes := quoted (bs.flatMap writtenByte)

def writtenName (n : MemberName) : Bytes := if n.isQuoted then quoted n.content else writtenText n.content

def isRemoved : Document → Bool
  | removed => true
  | _ => false

/-- Pieces with commas between them. -/
def commas (pieces : List Bytes) : Bytes := ([0x2C] : Bytes).intercalate pieces

/-- An item is smaller than the list that it stands in. -/
theorem sizeOf_item_lt {items : List Document} {d : Document} (h : d ∈ items) : sizeOf d < sizeOf (list items) := by
  have hitem := List.sizeOf_lt_of_mem h
  simp only [list.sizeOf_spec]
  omega

/-- The value of a member is smaller than the object that the member stands in. -/
theorem sizeOf_value_lt {members : List (MemberName × Document)} {m : MemberName × Document} (h : m ∈ members) :
    sizeOf m.2 < sizeOf (object members) := by
  have hmember := List.sizeOf_lt_of_mem h
  have hvalue : sizeOf m.2 < sizeOf m := by
    rcases m with ⟨name, value⟩
    simp only [Prod.mk.sizeOf_spec]
    omega
  simp only [object.sizeOf_spec]
  omega

def written : Document → Bytes
  | null => Utf8.encode "null"
  | truth b => Utf8.encode (if b then "true" else "false")
  | integer ds | real ds => ds
  | text content _ => quoted content
  | list items => 0x5B :: commas (items.attach.filterMap fun d => if d.1.isRemoved then none else some d.1.written) ++ [0x5D]
  | object members =>
    0x7B :: commas (members.attach.filterMap fun m =>
      if m.1.2.isRemoved then none else some (writtenName m.1.1 ++ 0x3A :: m.1.2.written)) ++ [0x7D]
  | fixed source => source
  | removed => []
termination_by d => sizeOf d
decreasing_by
  · exact sizeOf_item_lt d.2
  · exact sizeOf_value_lt m.2

theorem written_list_nil : (list []).written = [0x5B, 0x5D] := by simp [written, commas, List.intercalate]

/-! ## Values -/

/-- The number of four digits to the base 16. -/
def hexNumber (bs : Bytes) : Nat := bs.foldl (fun n b => n * 16 + (hexValue? (Char.ofNat b.toNat)).getD 0) 0

/-- What a letter behind a backslash stands for. -/
def unescaped (b : UInt8) : UInt8 :=
  let letters : List (UInt8 × UInt8) := [(0x62, 0x08), (0x66, 0x0C), (0x6E, 0x0A), (0x72, 0x0D), (0x74, 0x09)]
  (letters.lookup b).getD b

/-- The second half of a pair, if it is written next. -/
def secondHalf? : Bytes → Option (Nat × Bytes)
  | 0x5C :: 0x75 :: rest =>
    let n := hexNumber (rest.take 4)
    if 4 ≤ rest.length ∧ 0xDC00 ≤ n ∧ n < 0xE000 then some (n - 0xDC00, rest.drop 4) else none
  | _ => none

/-- The text that is written with escapes, in so many steps at most. A zero ends it. -/
def withoutEscapes : Nat → Bytes → Bytes
  | 0, _ => []
  | _, [] => []
  | fuel + 1, 0x5C :: 0x75 :: rest =>
    let n := hexNumber (rest.take 4)
    if n = 0 then []
    else
      match if 0xD800 ≤ n ∧ n < 0xDC00 then secondHalf? (rest.drop 4) else none with
      | some (low, rest) => Utf8.bytesOf ((n - 0xD800) * 0x400 + low + 0x10000) ++ withoutEscapes fuel rest
      | none => Utf8.bytesOf n ++ withoutEscapes fuel (rest.drop 4)
  | fuel + 1, 0x5C :: b :: rest => unescaped b :: withoutEscapes fuel rest
  | fuel + 1, b :: rest => b :: withoutEscapes fuel rest

/-- The text that a name or a text stands for. -/
def content (bs : Bytes) : Bytes := withoutEscapes bs.length bs

/-- The number that digits stand for. -/
def number (digits : Bytes) : Value := ((LeadingNumber.read? digits).map LeadingNumber.toValue).getD .null

/-- The value that a document stands for. Lists and objects are their texts. -/
def datum (d : Document) : Datum :=
  match d with
  | null | removed => ⟨.null, false⟩
  | truth b => ⟨.ofBool b, false⟩
  | integer ds => ⟨number ds, false⟩
  | real ds => ⟨.real ((LeadingNumber.read? ds).map LeadingNumber.toDouble |>.getD 0), false⟩
  | text bs hasEscapes => ⟨.text (if hasEscapes then content bs else bs), false⟩
  | list _ | object _ | fixed _ => ⟨.text d.written, true⟩

/-- The word for what a document is. -/
def kind : Document → String
  | null | removed => "null"
  | truth b => if b then "true" else "false"
  | integer _ => "integer"
  | real _ => "real"
  | text _ _ | fixed _ => "text"
  | list _ => "array"
  | object _ => "object"

/-- A value as it is put into a document. -/
def writtenDatum (d : Datum) : Except Problem Bytes :=
  match d.value with
  | .null => .ok (Utf8.encode "null")
  | .integer _ | .real _ => .ok d.value.bytes
  | .text bs => .ok (if d.isDocument then bs else writtenText bs)
  | .blob _ => .error .blobInDocument

/-! ## Places -/

/-- How many places a document takes: one for itself, and one for each of its parts and of the names of its members. -/
def size : Document → Nat
  | list items => (items.attach.map fun d => d.1.size).foldl (· + ·) 1
  | object members => (members.attach.map fun m => m.1.2.size + 1).foldl (· + ·) 1
  | _ => 1
termination_by d => sizeOf d
decreasing_by
  · exact sizeOf_item_lt d.2
  · exact sizeOf_value_lt m.2

end Document

end CouplingTree.Sql
