import CouplingTree.Text.Quoted

/-!
# UTF-8

`Utf8.decode` reads bytes as text and refuses the first byte that no UTF-8 text has in its place; `Utf8.decodeLossy`
puts the replacement character where the other refuses. Both go byte by byte and keep the character begun so far.

`decode_ascii` : bytes below 128 are the characters of those code points.
-/

namespace CouplingTree.Utf8

/-- A character begun: its bits so far, how many bytes it still needs, and the range of the next one. -/
structure Pending where
  bits : Nat
  owed : Nat
  least : Nat := 0x80
  greatest : Nat := 0xBF

/-- What the first byte of a character says. -/
inductive Lead
  | complete (c : Char)
  | pending (p : Pending)
  | invalid

def lead (b : Nat) : Lead :=
  if b < 0x80 then .complete (Char.ofNat b)
  else if 0xC2 ≤ b ∧ b ≤ 0xDF then .pending { bits := b - 0xC0, owed := 1 }
  else if b = 0xE0 then .pending { bits := 0, owed := 2, least := 0xA0 }
  else if b = 0xED then .pending { bits := b - 0xE0, owed := 2, greatest := 0x9F }
  else if 0xE1 ≤ b ∧ b ≤ 0xEF then .pending { bits := b - 0xE0, owed := 2 }
  else if b = 0xF0 then .pending { bits := 0, owed := 3, least := 0x90 }
  else if 0xF1 ≤ b ∧ b ≤ 0xF3 then .pending { bits := b - 0xF0, owed := 3 }
  else if b = 0xF4 then .pending { bits := 4, owed := 3, greatest := 0x8F }
  else .invalid

def Pending.accepts (p : Pending) (b : Nat) : Bool := decide (p.least ≤ b ∧ b ≤ p.greatest)

/-- The character or the longer beginning after an accepted byte. -/
def Pending.push (p : Pending) (b : Nat) : Lead :=
  let bits := p.bits * 64 + (b - 0x80)
  if p.owed ≤ 1 then .complete (Char.ofNat bits) else .pending { bits, owed := p.owed - 1 }

/-! ## Strict decoding -/

inductive Reason
  | invalidStart
  | invalidContinuation
  | unexpectedEnd
deriving DecidableEq, Repr

/-- The bytes that are no text: `count` of them from `start` on, the first of which is `byte`. -/
structure Fault where
  reason : Reason
  start : Nat
  count : Nat
  byte : UInt8
deriving DecidableEq, Repr

def Reason.message : Reason → String
  | invalidStart => "invalid start byte"
  | invalidContinuation => "invalid continuation byte"
  | unexpectedEnd => "unexpected end of data"

def Fault.message (f : Fault) : String :=
  let place :=
    if f.count = 1 then s!"byte 0x{String.ofList (hexText 2 f.byte.toNat)} in position {f.start}"
    else s!"bytes in position {f.start}-{f.start + f.count - 1}"
  "'utf-8' codec can't decode " ++ place ++ ": " ++ f.reason.message

/-- Decodes the bytes from `position` on. A character begun before them is given with its first byte and its place. -/
def decodeFrom (position : Nat) (begun : Option (Pending × UInt8 × Nat)) : List UInt8 → Except Fault (List Char)
  | [] =>
    match begun with
    | none => .ok []
    | some (_, byte, start) => .error ⟨.unexpectedEnd, start, position - start, byte⟩
  | b :: rest =>
    match begun with
    | none =>
      match lead b.toNat with
      | .complete c => (decodeFrom (position + 1) none rest).map (c :: ·)
      | .pending p => decodeFrom (position + 1) (some (p, b, position)) rest
      | .invalid => .error ⟨.invalidStart, position, 1, b⟩
    | some (p, byte, start) =>
      if p.accepts b.toNat then
        match p.push b.toNat with
        | .complete c => (decodeFrom (position + 1) none rest).map (c :: ·)
        | .pending p => decodeFrom (position + 1) (some (p, byte, start)) rest
        | .invalid => .error ⟨.invalidContinuation, start, position - start, byte⟩
      else .error ⟨.invalidContinuation, start, position - start, byte⟩

def decode (bytes : List UInt8) : Except Fault (List Char) := decodeFrom 0 none bytes

theorem decodeFrom_ascii : ∀ (bytes : List UInt8) (position : Nat), (∀ b ∈ bytes, b.toNat < 0x80) →
    decodeFrom position none bytes = .ok (bytes.map fun b => Char.ofNat b.toNat)
  | [], _, _ => rfl
  | b :: rest, position, h => by
    have hb : b.toNat < 0x80 := h b (List.mem_cons_self ..)
    have ih := decodeFrom_ascii rest (position + 1) fun c hc => h c (List.mem_cons_of_mem _ hc)
    simp [decodeFrom, lead, hb, ih, Except.map]

theorem decode_ascii {bytes : List UInt8} (h : ∀ b ∈ bytes, b.toNat < 0x80) :
    decode bytes = .ok (bytes.map fun b => Char.ofNat b.toNat) :=
  decodeFrom_ascii bytes 0 h

/-! ## Lossy decoding -/

/-- Stands for bytes that are no text. -/
def replacement : Char := Char.ofNat 0xFFFD

def decodeLossyFrom (begun : Option Pending) : List UInt8 → List Char
  | [] => if begun.isSome then [replacement] else []
  | b :: rest =>
    let go (l : Lead) : List Char :=
      match l with
      | .complete c => c :: decodeLossyFrom none rest
      | .pending p => decodeLossyFrom (some p) rest
      | .invalid => replacement :: decodeLossyFrom none rest
    match begun with
    | none => go (lead b.toNat)
    | some p => if p.accepts b.toNat then go (p.push b.toNat) else replacement :: go (lead b.toNat)

def decodeLossy (bytes : List UInt8) : List Char := decodeLossyFrom none bytes

/-! ## Encoding -/

def encode (s : String) : List UInt8 := s.toByteArray.toList

/-- The bytes of a code point, which may also be a surrogate. -/
def bytesOf (n : Nat) : List UInt8 :=
  let continuation (k : Nat) : UInt8 := UInt8.ofNat (0x80 + k % 64)
  if n < 0x80 then [UInt8.ofNat n]
  else if n < 0x800 then [UInt8.ofNat (0xC0 + n / 64), continuation n]
  else if n < 0x10000 then [UInt8.ofNat (0xE0 + n / 4096), continuation (n / 64), continuation n]
  else [UInt8.ofNat (0xF0 + n / 262144 % 8), continuation (n / 4096), continuation (n / 64), continuation n]

end CouplingTree.Utf8
