import CouplingTree.Json.Reader
import CouplingTree.Json.Writer

/-!
# Strings come back

A string is written character by character. What is written for a character is read as its code units, of which there are
two for a character beyond the first 65536, and the units of characters are joined to these characters.

* `Utf16.join_units` : the units of characters are joined to them.
* `codeUnit?_hexText` : the four digits of a unit are read as this unit.
* `readCodes_escapeChar` : what is written for a character is read as its units.
* `readString_escaped` : so a string comes back.
-/

namespace CouplingTree

/-! ## Code units -/

namespace Utf16

/-- The code units of a character. -/
def units (c : Char) : List Nat :=
  if c.toNat < 0x10000 then [c.toNat]
  else [0xD800 + (c.toNat - 0x10000) / 0x400, 0xDC00 + (c.toNat - 0x10000) % 0x400]

theorem not_surrogate (c : Char) : isHighSurrogate c.toNat = false ∧ isLowSurrogate c.toNat = false := by
  have hc : c.toNat < 0xD800 ∨ 0xDFFF < c.toNat ∧ c.toNat < 0x110000 := c.valid
  simp only [isHighSurrogate, isLowSurrogate, decide_eq_false_iff_not]
  omega

theorem join_cons (c : Char) (rest : List Nat) : join (c.toNat :: rest) = c :: join rest := by
  obtain ⟨hhigh, hlow⟩ := not_surrogate c
  have hsingle : single c.toNat = c := by
    rw [single, hhigh, hlow, Bool.or_false, if_neg Bool.false_ne_true, Char.ofNat_toNat]
  cases rest with
  | nil => rw [join, hsingle, join]
  | cons n rest => rw [join, hhigh, Bool.false_and, if_neg Bool.false_ne_true, hsingle]

theorem toNat_lt (c : Char) : c.toNat < 0x110000 := by
  have hc : c.toNat < 0xD800 ∨ 0xDFFF < c.toNat ∧ c.toNat < 0x110000 := c.valid
  omega

theorem join_units (c : Char) (rest : List Nat) : join (units c ++ rest) = c :: join rest := by
  have hmax := toNat_lt c
  unfold units
  split
  · exact join_cons c rest
  · next h =>
    have hpair : isHighSurrogate (0xD800 + (c.toNat - 0x10000) / 0x400) = true ∧
        isLowSurrogate (0xDC00 + (c.toNat - 0x10000) % 0x400) = true := by
      simp only [isHighSurrogate, isLowSurrogate, decide_eq_true_eq]
      omega
    have hcode : 0x10000 + (0xD800 + (c.toNat - 0x10000) / 0x400 - 0xD800) * 0x400 +
        (0xDC00 + (c.toNat - 0x10000) % 0x400 - 0xDC00) = c.toNat := by omega
    rw [List.cons_append, List.singleton_append, join, hpair.1, hpair.2, Bool.and_self, if_pos rfl, hcode, Char.ofNat_toNat]

theorem join_flatMap_units : ∀ cs : List Char, join (cs.flatMap units) = cs
  | [] => rfl
  | c :: cs => by rw [List.flatMap_cons, join_units, join_flatMap_units cs]

end Utf16

namespace Json

/-! ## Hexadecimal digits -/

theorem hexValue?_digitChar {d : Nat} (h : d < 16) : hexValue? (Nat.digitChar d) = some d := by
  have key : ∀ e : Fin 16, hexValue? (Nat.digitChar e) = some e.val := by decide
  exact key ⟨d, h⟩

theorem hexText_four (n : Nat) : hexText 4 n = [Nat.digitChar (n / 16 / 16 / 16 % 16), Nat.digitChar (n / 16 / 16 % 16),
    Nat.digitChar (n / 16 % 16), Nat.digitChar (n % 16)] := rfl

theorem codeUnit?_hexText {n : Nat} (h : n < 0x10000) :
    codeUnit? (Nat.digitChar (n / 16 / 16 / 16 % 16)) (Nat.digitChar (n / 16 / 16 % 16)) (Nat.digitChar (n / 16 % 16))
      (Nat.digitChar (n % 16)) = some n := by
  have hmod : ∀ k, k % 16 < 16 := fun k => Nat.mod_lt k (by decide)
  simp only [codeUnit?, hexValue?_digitChar (hmod _)]
  congr 1
  omega

/-! ## Characters -/

variable {start tail rest : List Char} {c : Char} {ns : List Nat}

theorem readCodes_escapeUnit {n : Nat} (h : n < 0x10000) (ht : tail ≠ []) (hr : readCodes start tail = .ok (ns, rest)) :
    readCodes start (escapeUnit n ++ tail) = .ok (n :: ns, rest) := by
  obtain ⟨e, tail, rfl⟩ := List.exists_cons_of_ne_nil ht
  rw [escapeUnit, hexText_four]
  simp only [List.cons_append, List.nil_append]
  rw [readCodes, codeUnit?_hexText h]
  simp only [hr]
  rfl

theorem readCodes_escapeChar (c : Char) (ht : tail ≠ []) (hr : readCodes start tail = .ok (ns, rest)) :
    readCodes start (escapeChar c ++ tail) = .ok (Utf16.units c ++ ns, rest) := by
  have hunits : c.toNat < 0x10000 → Utf16.units c = [c.toNat] := fun h => if_pos h
  unfold escapeChar
  split
  · next h =>
    rw [hunits (by rcases h with rfl | rfl <;> decide)]
    exact readCodes_escaped (by rcases h with rfl | rfl <;> rfl) hr
  next hmarks =>
  rw [not_or] at hmarks
  split
  · next h =>
    rw [hunits (by omega)]
    exact readCodes_plain hmarks.1 hmarks.2 h.1 hr
  -- the short escapes
  split
  · next h => subst h; exact readCodes_escaped rfl hr
  split
  · next h => subst h; exact readCodes_escaped rfl hr
  split
  · next h => subst h; exact readCodes_escaped rfl hr
  split
  · next h =>
    obtain rfl : c = '\x0c' := Char.toNat_inj.1 h
    exact readCodes_escaped rfl hr
  split
  · next h =>
    obtain rfl : c = '\x08' := Char.toNat_inj.1 h
    exact readCodes_escaped rfl hr
  split
  · next h =>
    rw [hunits h]
    exact readCodes_escapeUnit h ht hr
  · next h =>
    have hmax : c.toNat < 0x110000 := Utf16.toNat_lt c
    rw [Utf16.units, if_neg h, List.append_assoc]
    exact readCodes_escapeUnit (by omega) (List.append_ne_nil_of_right_ne_nil _ ht) (readCodes_escapeUnit (by omega) ht hr)

theorem readCodes_flatMap (start rest : List Char) : ∀ cs : List Char,
    readCodes start (cs.flatMap escapeChar ++ '"' :: rest) = .ok (cs.flatMap Utf16.units, rest)
  | [] => by
    rw [List.flatMap_nil, List.nil_append, readCodes]
    rfl
  | c :: cs => by
    rw [List.flatMap_cons, List.flatMap_cons, List.append_assoc]
    exact readCodes_escapeChar c (List.append_ne_nil_of_right_ne_nil _ (List.cons_ne_nil _ _)) (readCodes_flatMap start rest cs)

/-! ## Strings -/

theorem stringText_append (s : String) (rest : List Char) :
    stringText s ++ rest = '"' :: (s.toList.flatMap escapeChar ++ '"' :: rest) := by
  simp [stringText]

/-- Behind its opening quote, what is written for a string is read as this string. -/
theorem readString_escaped (s : String) (rest : List Char) :
    readString (s.toList.flatMap escapeChar ++ '"' :: rest) = .ok (s, rest) := by
  rw [readString, readCodes_flatMap, Except.map, Utf16.join_flatMap_units, String.ofList_toList]

end Json

end CouplingTree
