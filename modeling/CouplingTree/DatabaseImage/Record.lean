import CouplingTree.DatabaseImage.Pages
import CouplingTree.Text.Utf16

/-!
# Values in database images

A row in bytes starts with its header: the size of the header and a list of kinds, one for each value. The values follow.
The kind of a value tells how many bytes it takes. `RowEntry.stored` reads one value, and looks at no more of the row
than it needs for that.

`length_units` : every unit of a text in UTF-16 takes two bytes.
-/

namespace CouplingTree

open Sql (Value Problem)

/-! ## Texts -/

namespace TextEncoding

/-- The numbers of two bytes each; a byte left over says nothing. -/
def units (order : ByteOrder) : List UInt8 → List Nat
  | a :: b :: rest => order.number [a, b] :: units order rest
  | _ => []

theorem length_units (order : ByteOrder) : ∀ bytes : List UInt8, (units order bytes).length = bytes.length / 2
  | [] => rfl
  | [_] => by simp [units]
  | _ :: _ :: rest => by simp [units, length_units order rest]; omega

/-- A text in the bytes of UTF-8. -/
def toUtf8 : TextEncoding → List UInt8 → List UInt8
  | utf8, bytes => bytes
  | utf16 order, bytes => (Utf16.joinLoosely (units order bytes)).flatMap Utf8.bytesOf

end TextEncoding

/-! ## Kinds of values -/

namespace DatabaseImage

/-- How many bytes a value of a kind takes. -/
def width : Nat → Nat
  | 0 | 8 | 9 | 10 | 11 => 0
  | 5 => 6
  | 6 | 7 => 8
  | kind => if kind < 5 then kind else (kind - 12) / 2

/-- The double of eight bytes. What is no number is nothing. -/
def realOf (bytes : List UInt8) : Value := .ofDouble (Float.ofBits (UInt64.ofNat (ByteOrder.highNumber bytes)))

def valueOf (encoding : TextEncoding) (kind : Nat) (bytes : List UInt8) : Value :=
  match kind with
  | 0 | 10 | 11 => .null
  | 7 => realOf bytes
  | 8 => .integer 0
  | 9 => .integer 1
  | kind =>
    if kind < 7 then .integer (signed (8 * bytes.length) (ByteOrder.highNumber bytes))
    else if kind % 2 = 0 then .blob bytes
    else .text (encoding.toUtf8 bytes)

/-- Numbers in headers are not read beyond this one. -/
def greatestKind : Nat := lengthBound - 1

/-- A number in a header, with the place after it. -/
def kindAt (bytes : Array UInt8) (i : Nat) : Nat × Nat :=
  let (n, i) := groupsAt bytes i
  (min n greatestKind, i)

end DatabaseImage

/-! ## Rows -/

namespace RowEntry

open DatabaseImage

/-- The most bytes of a row. -/
def lengthLimit : Nat := 1000000000

/-- The most bytes of a header that is not in one page. -/
def headerLimit : Nat := 98307

/-- How far the list of kinds is read: the place reached in it, the offset of the next value, and the kind and the offset
of the last one. -/
structure HeaderState where
  place : Nat
  offset : Nat
  read : Nat := 0
  kind : Nat := 0
  start : Nat := 0

/-- Reads kinds, so many at most, until the header ends. At least one is read. -/
def readKinds (bytes : Array UInt8) (stop : Nat) : Nat → HeaderState → HeaderState
  | 0, s => s
  | count + 1, s =>
    let (kind, place) := kindAt bytes s.place
    let s : HeaderState := ⟨place, s.offset + width kind, s.read + 1, kind, s.offset⟩
    if stop ≤ place then s else readKinds bytes stop count s

/-- The bytes of a row that are in its page. -/
def present (d : DatabaseImage) (e : RowEntry) : Nat := min e.here (e.page + d.pageSize - e.start)

/-- The bytes in which the header is read, and the place where it starts in them. -/
def headerBytes (d : DatabaseImage) (e : RowEntry) (size : Nat) : Option (Array UInt8 × Nat) :=
  if size ≤ e.present d then some (d.bytes, e.start)
  else if headerLimit < size ∨ e.length < size then none
  else (d.payload? e 0 size).map fun bytes => (bytes.toArray, 0)

/-- The bytes of a value. -/
def content? (d : DatabaseImage) (e : RowEntry) (start count : Nat) : Option (List UInt8) :=
  if start + count ≤ e.present d then some (bytesAt d.bytes (e.start + start) count)
  else if count = 0 then some []
  else d.payload? e start count

/-- The value at a place, or nothing where the row ends before it. The list of kinds ends where it says, and the values
end with the row. -/
def stored (d : DatabaseImage) (e : RowEntry) (place : Nat) : Except Problem (Option Value) :=
  if lengthLimit < e.length then .error .tooBig
  else
    let (size, first) := kindAt d.bytes e.start
    match e.headerBytes d size with
    | none => .error .malformed
    | some (bytes, base) =>
      let stop := base + size
      let s := readKinds bytes stop (place + 1) { place := base + (first - e.start), offset := size }
      let isRead := decide (stop ≤ s.place)
      if isRead && (decide (stop < s.place) || decide (s.offset ≠ e.length)) || decide (e.length < s.offset) then
        if size = 0 then .ok none else .error .malformed
      else if s.read ≤ place then .ok none
      else
        match e.content? d s.start (width s.kind) with
        | some content => .ok (some (valueOf d.encoding s.kind content))
        | none => .error .malformed

end RowEntry

end CouplingTree
