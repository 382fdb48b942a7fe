import Mathlib.Algebra.Group.Nat.Defs
import Mathlib.Data.List.TakeWhile
import CouplingTree.Text.Numeral

/-!
# Numerals that are read back

* `Numeral.Ends` : what may stand behind a numeral, so that it is over.
* `Numeral.readDigits_append` : digits are read up to what is no digit.
* `Numeral.readFraction?_point`, `Numeral.readExponent?_power` : the parts behind the whole part are read.
* `Numeral.length_digits_int?` : an integer that is read has not too many digits.
* `Numeral.head?_toDigits` : the digits of a positive number begin with another digit than zero.
-/

namespace CouplingTree.Numeral

variable {ds rest : List Char}

/-! ## Digits -/

/-- There is no digit in front. -/
def NoDigit (cs : List Char) : Prop := ∀ c, cs.head? = some c → c.isDigit = false

/-- A numeral is over: neither a digit follows, nor a point, nor an exponent. -/
def Ends (cs : List Char) : Prop := ∀ c, cs.head? = some c → c.isDigit = false ∧ c ≠ '.' ∧ c ≠ 'e' ∧ c ≠ 'E'

theorem Ends.noDigit (h : Ends rest) : NoDigit rest := fun c hc => (h c hc).1

theorem noDigit_cons {c : Char} (h : c.isDigit = false) : NoDigit (c :: rest) := fun _ hd =>
  Option.some.inj hd ▸ h

theorem readDigits_append (hds : ∀ c ∈ ds, c.isDigit = true) (hrest : NoDigit rest) : readDigits (ds ++ rest) = (ds, rest) := by
  have hnone : rest.takeWhile Char.isDigit = [] ∧ rest.dropWhile Char.isDigit = rest := by
    cases rest with
    | nil => exact ⟨rfl, rfl⟩
    | cons c rest =>
      have hc : c.isDigit = false := hrest c rfl
      exact ⟨List.takeWhile_cons_of_neg (by simp [hc]), List.dropWhile_cons_of_neg (by simp [hc])⟩
  rw [readDigits, List.takeWhile_append_of_pos hds, List.dropWhile_append_of_pos hds, hnone.1, hnone.2, List.append_nil]

/-! ## Fractions and exponents -/

theorem readFraction?_of_ends (h : Ends rest) : readFraction? rest = none := by
  cases rest with
  | nil => rfl
  | cons c rest =>
    rw [readFraction?]
    rintro _ ⟨⟩
    exact (h '.' rfl).2.1 rfl

theorem readExponent?_of_ends (h : Ends rest) : readExponent? rest = none := by
  cases rest with
  | nil => rfl
  | cons c rest =>
    have hc := (h c rfl).2.2
    rw [readExponent?]
    exact if_neg fun hif => hif.1.elim hc.1 hc.2

theorem readFraction?_point (hds : ∀ c ∈ ds, c.isDigit = true) (hne : ds ≠ []) (hrest : NoDigit rest) :
    readFraction? ('.' :: (ds ++ rest)) = some (ds, rest) := by
  rw [readFraction?, readDigits_append hds hrest]
  exact if_neg (by simpa using hne)

/-- The sign and the digits of a power of ten. -/
def powerText (negative : Bool) (ds : List Char) : List Char := 'e' :: (if negative then '-' else '+') :: ds

theorem readExponent?_power (negative : Bool) (hds : ∀ c ∈ ds, c.isDigit = true) (hne : ds ≠ []) (hrest : NoDigit rest) :
    readExponent? (powerText negative ds ++ rest) = some (if negative then -(number ds : Int) else number ds, rest) := by
  have hsign : readSign ((if negative then '-' else '+') :: (ds ++ rest)) = (negative, ds ++ rest) := by
    cases negative <;> rfl
  rw [powerText, List.cons_append, List.cons_append, readExponent?, hsign]
  simp only [readDigits_append hds hrest]
  exact if_pos ⟨Or.inl trivial, by simpa using hne⟩

/-! ## The digits of a number -/

theorem isDigit_toDigits (n : Nat) : ∀ c ∈ Nat.toDigits 10 n, c.isDigit = true := fun _ hc =>
  Nat.isDigit_of_mem_toDigits (by decide) (by decide) hc

theorem head?_toDigits {n : Nat} (h : 0 < n) : (Nat.toDigits 10 n).head? ≠ some '0' := by
  induction n using Nat.strongRecOn with
  | ind n ih =>
    rw [Nat.toDigits_eq_if (by decide)]
    split
    · next hlt =>
      have key : ∀ d : Fin 10, 0 < d.val → ¬[Nat.digitChar d].head? = some '0' := by decide
      exact key ⟨n, hlt⟩ h
    · next hge =>
      rw [List.head?_append, List.head?_eq_some_head Nat.toDigits_ne_nil, Option.some_or, ← List.head?_eq_some_head]
      exact ih (n / 10) (by omega) (by omega)

theorem number_append (ds es : List Char) : number (ds ++ es) = number ds * 10 ^ es.length + number es := by
  rw [number, Nat.ofDigitChars_append, Nat.ofDigitChars_eq_ofDigitChars_zero, number, number, Nat.mul_comm]

theorem number_replicate_zero (k : Nat) : number (List.replicate k '0') = 0 := by
  rw [number, Nat.ofDigitChars_replicate_zero, Nat.mul_zero]

theorem isDigit_replicate_zero (k : Nat) : ∀ c ∈ List.replicate k '0', c.isDigit = true := fun _ hc => by
  rw [List.eq_of_mem_replicate hc]
  rfl

theorem isDigit_digitsText (width n : Nat) : ∀ c ∈ digitsText width n, c.isDigit = true := fun c hc =>
  (List.mem_append.1 hc).elim (isDigit_replicate_zero _ c) (isDigit_toDigits n c)

theorem number_digitsText (width n : Nat) : number (digitsText width n) = n := by
  rw [digitsText, number_append, number_replicate_zero, Nat.zero_mul, Nat.zero_add, number_toDigits]

theorem digitsText_ne_nil (width n : Nat) : digitsText width n ≠ [] := List.append_ne_nil_of_right_ne_nil _ Nat.toDigits_ne_nil

/-! ## Integers -/

/-- A number of so many digits is less than this power of ten. -/
theorem number_lt : ∀ {ds : List Char}, (∀ c ∈ ds, c.isDigit = true) → number ds < 10 ^ ds.length
  | [], _ => by decide
  | c :: ds, h => by
    obtain ⟨hc, hds⟩ := List.forall_mem_cons.1 h
    have hrest := number_lt hds
    have hdigit : number [c] ≤ 9 := by
      have hnine : c.toNat ≤ '9'.toNat := (Char.isDigit_iff_toNat.1 hc).2
      have hvalue : number [c] = c.toNat - '0'.toNat := by simp [number, Nat.ofDigitChars]
      rw [hvalue]
      exact Nat.sub_le_sub_right hnine _
    rw [← List.singleton_append, number_append, List.length_append, List.length_singleton, Nat.pow_add, Nat.pow_one]
    have hhead := Nat.mul_le_mul_right (10 ^ ds.length) hdigit
    omega

theorem plainInt?_eq_some {i : Int} (h : plainInt? ds = some i) :
    ∃ digits, digits <:+ ds ∧ (∀ c ∈ digits, c.isDigit = true) ∧ i.natAbs = number digits := by
  have hsuffix : (readSign ds).2 <:+ ds := by
    unfold readSign
    split
    · exact List.suffix_cons _ _
    · exact List.suffix_cons _ _
    · exact List.suffix_refl _
  unfold plainInt? at h
  dsimp only at h
  split at h
  · cases h
  · next hdigits =>
    cases h
    simp only [Bool.or_eq_true, Bool.not_eq_true', not_or, Bool.not_eq_false] at hdigits
    refine ⟨_, hsuffix, List.all_eq_true.1 hdigits.2, ?_⟩
    split
    · rw [Int.natAbs_neg, Int.natAbs_natCast]
    · rw [Int.natAbs_natCast]

/-- An integer that is read can be printed. -/
theorem length_digits_int? {cs : List Char} {i : Int} (h : int? cs = some i) :
    (Nat.toDigits 10 i.natAbs).length ≤ digitLimit := by
  obtain ⟨ds, -, h⟩ := Option.bind_eq_some_iff.1 h
  split at h
  · cases h
  · next hcount =>
    obtain ⟨digits, hsuffix, hdigits, hnumber⟩ := plainInt?_eq_some h
    have hlength : digits.length ≤ digitLimit := by
      have hall := List.countP_eq_length.2 hdigits
      have hle := hsuffix.sublist.countP_le (p := Char.isDigit)
      omega
    rw [Nat.length_toDigits_le_iff (by decide) (by decide), hnumber]
    exact (number_lt hdigits).trans_le (Nat.pow_le_pow_right (by decide) hlength)

end CouplingTree.Numeral
