import CouplingTree.Text.Utf16

/-!
# Encodings of JSON

A JSON text starts with characters of ASCII, so the zeros among its first bytes tell how many bytes a code unit has and
which of them comes first. `Json.decode` reads a text over again in the encoding that its bytes show.

`Encoding.of_eq_utf8` : bytes without zeros show UTF-8; `decode_of_utf8` : a text that shows it is taken as it stands,
without a byte order mark in front.
-/

namespace CouplingTree.Json

inductive Encoding
  | utf8
  | utf16 (order : ByteOrder)
  | utf32 (order : ByteOrder)
deriving DecidableEq, Repr

/-- The encoding that bytes show. -/
def Encoding.of : List UInt8 → Encoding
  | a :: b :: c :: d :: _ =>
    if a = 0 then if b = 0 then utf32 .highFirst else utf16 .highFirst
    else if b = 0 then if c = 0 ∧ d = 0 then utf32 .lowFirst else utf16 .lowFirst
    else utf8
  | [a, b] => if a = 0 then utf16 .highFirst else if b = 0 then utf16 .lowFirst else utf8
  | _ => utf8

theorem Encoding.of_eq_utf8 : ∀ {bytes : List UInt8}, (0 : UInt8) ∉ bytes → Encoding.of bytes = utf8
  | a :: b :: c :: d :: rest, h => by
    have ha : a ≠ 0 := fun e => h (by simp [e])
    have hb : b ≠ 0 := fun e => h (by simp [e])
    rw [of, if_neg ha, if_neg hb]
  | [a, b], h => by
    have ha : a ≠ 0 := fun e => h (by simp [e])
    have hb : b ≠ 0 := fun e => h (by simp [e])
    rw [of, if_neg ha, if_neg hb]
  | [], _ => rfl
  | [_], _ => rfl
  | [_, _, _], _ => rfl

/-- The numbers of two bytes each; no byte may be left over. -/
def pairUnits? (order : ByteOrder) : List UInt8 → Option (List Nat)
  | a :: b :: rest => (pairUnits? order rest).map (order.number [a, b] :: ·)
  | [] => some []
  | _ => none

/-- The numbers of four bytes each; no byte may be left over, and each number has to be a code point. -/
def quadUnits? (order : ByteOrder) : List UInt8 → Option (List Nat)
  | a :: b :: c :: d :: rest =>
    let n := order.number [a, b, c, d]
    if n < 0x110000 then (quadUnits? order rest).map (n :: ·) else none
  | [] => some []
  | _ => none

/-- Drops a byte order mark in front. -/
def withoutMark : List Char → List Char
  | c :: rest => if c = '\uFEFF' then rest else c :: rest
  | [] => []

/-- The characters of a text in the encoding that its bytes show. -/
def decode (s : String) : Option (List Char) :=
  match Encoding.of (Utf8.encode s) with
  | .utf8 => some (withoutMark s.toList)
  | .utf16 order => (pairUnits? order (Utf8.encode s)).map Utf16.join
  | .utf32 order => (quadUnits? order (Utf8.encode s)).map (List.map Utf16.single)

theorem decode_of_utf8 {s : String} (h : Encoding.of (Utf8.encode s) = .utf8) :
    decode s = some (withoutMark s.toList) := by
  simp [decode, h]

end CouplingTree.Json
