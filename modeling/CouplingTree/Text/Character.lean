/-!
# Characters

* `lowerAscii` writes the letters of ASCII small; two names are the same if they differ in the case of such letters alone.
  `sameName_self`, `sameName_comm` : every name is the same as itself, and which one comes first does not matter.
* `isBlank` is the Unicode property White_Space; `strip` takes characters off both ends of a text.
  `isBlank_of_isWhitespace` : white space of ASCII is blank; `strip_eq_self` : a text without such ends is kept.
* Each script with decimal digits has ten of them in a row, from zero to nine. Hexadecimal digits are those of ASCII alone.
  `digitValue?_ascii` : the digits of ASCII have their own values.
-/

namespace CouplingTree

/-! ## Names without regard to case -/

/-- The small letters of ASCII in place of its capital ones. -/
def lowerAscii (s : String) : String :=
  String.ofList (s.toList.map fun c => if 'A' ≤ c ∧ c ≤ 'Z' then Char.ofNat (c.toNat + 0x20) else c)

/-- Whether two names are the same but for the case of ASCII letters. -/
def sameName (a b : String) : Bool := decide (lowerAscii a = lowerAscii b)

theorem sameName_self (a : String) : sameName a a = true := by simp [sameName]

theorem sameName_comm (a b : String) : sameName a b = sameName b a := by simp [sameName, eq_comm]

/-! ## Blank characters -/

def isBlank (c : Char) : Bool :=
  let n := c.toNat
  decide (9 ≤ n ∧ n ≤ 0xD ∨ n = 0x20 ∨ n = 0x85 ∨ n = 0xA0 ∨ n = 0x1680 ∨ 0x2000 ≤ n ∧ n ≤ 0x200A ∨
    n = 0x2028 ∨ n = 0x2029 ∨ n = 0x202F ∨ n = 0x205F ∨ n = 0x3000)

/-- Takes the characters of a class off both ends. -/
def strip (drop : Char → Bool) (cs : List Char) : List Char :=
  ((cs.dropWhile drop).reverse.dropWhile drop).reverse

theorem isBlank_of_isWhitespace {c : Char} (h : c.isWhitespace = true) : isBlank c = true := by
  simp only [Char.isWhitespace, Bool.or_eq_true, decide_eq_true_eq] at h
  rcases h with ((rfl | rfl) | rfl) | rfl <;> rfl

theorem strip_eq_self {drop : Char → Bool} {cs : List Char} (h : ∀ c ∈ cs, drop c = false) : strip drop cs = cs := by
  have key : ∀ ds : List Char, (∀ c ∈ ds, drop c = false) → ds.dropWhile drop = ds
    | [], _ => rfl
    | d :: ds, hd => by simp [hd d (List.mem_cons_self ..)]
  rw [strip, key cs h, key _ fun c hc => h c (List.mem_reverse.1 hc), List.reverse_reverse]

/-! ## Digits -/

/-- The code points of the zeros. -/
def digitZeros : List Nat := [
  0x30, 0x660, 0x6F0, 0x7C0, 0x966, 0x9E6, 0xA66, 0xAE6, 0xB66, 0xBE6, 0xC66, 0xCE6, 0xD66, 0xDE6, 0xE50, 0xED0,
  0xF20, 0x1040, 0x1090, 0x17E0, 0x1810, 0x1946, 0x19D0, 0x1A80, 0x1A90, 0x1B50, 0x1BB0, 0x1C40, 0x1C50, 0xA620,
  0xA8D0, 0xA900, 0xA9D0, 0xA9F0, 0xAA50, 0xABF0, 0xFF10, 0x104A0, 0x10D30, 0x11066, 0x110F0, 0x11136, 0x111D0,
  0x112F0, 0x11450, 0x114D0, 0x11650, 0x116C0, 0x11730, 0x118E0, 0x11950, 0x11C50, 0x11D50, 0x11DA0, 0x16A60,
  0x16AC0, 0x16B50, 0x1D7CE, 0x1D7D8, 0x1D7E2, 0x1D7EC, 0x1D7F6, 0x1E140, 0x1E2F0, 0x1E950, 0x1FBF0]

/-- The value of a decimal digit. -/
def digitValue? (c : Char) : Option Nat :=
  (digitZeros.find? fun z => decide (z ≤ c.toNat ∧ c.toNat < z + 10)).map (c.toNat - ·)

theorem digitValue?_ascii {c : Char} (h : 0x30 ≤ c.toNat) (h' : c.toNat < 0x3A) :
    digitValue? c = some (c.toNat - 0x30) := by
  simp [digitValue?, digitZeros, h, h']

/-- The value of a hexadecimal digit. -/
def hexValue? (c : Char) : Option Nat :=
  if '0' ≤ c ∧ c ≤ '9' then some (c.toNat - 0x30)
  else if 'a' ≤ c ∧ c ≤ 'f' then some (c.toNat - 0x57)
  else if 'A' ≤ c ∧ c ≤ 'F' then some (c.toNat - 0x37)
  else none

end CouplingTree
