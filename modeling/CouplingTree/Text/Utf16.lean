import CouplingTree.Text.Utf8

/-!
# UTF-16

A number that takes several bytes is written with its highest byte first or with its lowest one.

A character beyond the first 65536 has two code units, a high surrogate and a low one. `Utf16.join` puts such pairs
together.

`join_eq_map`, `joinLoosely_eq_self` : units that are no surrogates are the code points themselves.
-/

namespace CouplingTree

inductive ByteOrder
  | highFirst
  | lowFirst
deriving DecidableEq, Repr

namespace ByteOrder

/-- The number whose digits the bytes are, from the highest on. -/
def highNumber (bytes : List UInt8) : Nat := bytes.foldl (fun n b => n * 256 + b.toNat) 0

/-- The number that bytes stand for. -/
def number : ByteOrder → List UInt8 → Nat
  | highFirst, bytes => highNumber bytes
  | lowFirst, bytes => highNumber bytes.reverse

end ByteOrder

end CouplingTree

namespace CouplingTree.Utf16

def isHighSurrogate (n : Nat) : Bool := decide (0xD800 ≤ n ∧ n < 0xDC00)

def isLowSurrogate (n : Nat) : Bool := decide (0xDC00 ≤ n ∧ n < 0xE000)

/-- The character of a code point; a surrogate is none and gives the replacement character. -/
def single (n : Nat) : Char := if isHighSurrogate n || isLowSurrogate n then Utf8.replacement else Char.ofNat n

/-- The characters of code points, a pair of surrogates being one. -/
def join : List Nat → List Char
  | high :: low :: rest =>
    if isHighSurrogate high && isLowSurrogate low then
      Char.ofNat (0x10000 + (high - 0xD800) * 0x400 + (low - 0xDC00)) :: join rest
    else single high :: join (low :: rest)
  | [n] => [single n]
  | [] => []

theorem single_of_lt {n : Nat} (h : n < 0xD800) : single n = Char.ofNat n := by
  have h' : ¬0xDC00 ≤ n := by omega
  simp [single, isHighSurrogate, isLowSurrogate, Nat.not_le.2 h, h']

theorem join_eq_map : ∀ {units : List Nat}, (∀ n ∈ units, n < 0xD800) → join units = units.map Char.ofNat
  | [], _ => rfl
  | [n], h => by rw [join, single_of_lt (h n (List.mem_cons_self ..)), List.map_cons, List.map_nil]
  | high :: low :: rest, h => by
    have hn : high < 0xD800 := h high (List.mem_cons_self ..)
    rw [join, if_neg (by simp [isHighSurrogate, Nat.not_le.2 hn]), single_of_lt hn,
      join_eq_map fun n hn => h n (List.mem_cons_of_mem _ hn)]
    rfl

/-! ## Units that need not be in order -/

/-- The code point that a surrogate and the unit after it are put together to, whatever they are. -/
def combined (first second : Nat) : Nat := second % 0x400 + first % 0x40 * 0x400 + (first / 0x40 % 0x10 + 1) * 0x10000

/-- The code points of units. Any surrogate takes the unit after it with it; a last one is left alone. -/
def joinLoosely : List Nat → List Nat
  | first :: second :: rest =>
    if isHighSurrogate first || isLowSurrogate first then combined first second :: joinLoosely rest
    else first :: joinLoosely (second :: rest)
  | units => units

theorem joinLoosely_eq_self : ∀ {units : List Nat}, (∀ n ∈ units, n < 0xD800) → joinLoosely units = units
  | [], _ => rfl
  | [_], _ => rfl
  | first :: second :: rest, h => by
    have hn : first < 0xD800 := h first (List.mem_cons_self ..)
    have h' : ¬0xDC00 ≤ first := by omega
    rw [joinLoosely, if_neg (by simp [isHighSurrogate, isLowSurrogate, Nat.not_le.2 hn, h']),
      joinLoosely_eq_self fun n hm => h n (List.mem_cons_of_mem _ hm)]

end CouplingTree.Utf16
