import CouplingTree.FactSource
import CouplingTree.Proofs.Json.Strings
import CouplingTree.Proofs.Numbers.Bits
import CouplingTree.Proofs.Sql.Distinct
import CouplingTree.Proofs.Text.Utf8

/-!
# Names that are told apart

The key of a name that is no text is made so that names have the same key just when the values are the same. The digits of a
number tell it exactly, because no number in a database has more bits than the key has room for.

* `hexText_inj` : digits tell a number that there are enough of them for.
* `OtherName.magnitude_eq` : the exponent and the first bits of a number with few bits.
* `OtherName.placeKey_inj`, `OtherName.key_eq_iff` : hence values with the same key are the same.
* `OtherName.name_firstOf_eq_iff` : and so are those that are shown by the first name that is equal to them.
-/

namespace CouplingTree

/-! ## Hexadecimal digits -/

theorem digitChar_inj {a b : Nat} (ha : a < 16) (hb : b < 16) (h : Nat.digitChar a = Nat.digitChar b) : a = b := by
  have hvalue := congrArg hexValue? h
  rw [Json.hexValue?_digitChar ha, Json.hexValue?_digitChar hb] at hvalue
  exact Option.some.inj hvalue

theorem hexText_inj : ∀ {width n m : Nat}, n < 16 ^ width → m < 16 ^ width → hexText width n = hexText width m → n = m
  | 0, n, m, hn, hm, _ => by
    rw [pow_zero] at hn hm
    omega
  | width + 1, n, m, hn, hm, h => by
    obtain ⟨hinit, hlast⟩ := List.append_inj' h rfl
    rw [pow_succ] at hn hm
    have hhigh : n / 16 = m / 16 := hexText_inj (by omega) (by omega) hinit
    have hlow : n % 16 = m % 16 :=
      digitChar_inj (Nat.mod_lt _ (by decide)) (Nat.mod_lt _ (by decide)) (List.singleton_inj.1 hlast)
    omega

theorem mem_hexText {c : Char} : ∀ {width n : Nat}, c ∈ hexText width n → ∃ d < 16, c = Nat.digitChar d
  | _ + 1, n, h => by
    obtain h | h := List.mem_append.1 h
    · exact mem_hexText h
    · exact ⟨n % 16, Nat.mod_lt _ (by decide), List.mem_singleton.1 h⟩

namespace OtherName
open Binary64 (div_lt_pow_log2 div_quotient div_scaled pow_log2_le pow_log2_le_div lt_pow_log2 scaled_lt_iff
  scaled_pos)

/-! ## Magnitudes -/

variable {n d k : Nat} {z : Int} {p q : ℚ}

/-- The first bit of a quotient. -/
theorem leadingExponent_spec (hn : 0 < n) (hd : 0 < d) :
    (2 : ℚ) ^ leadingExponent n d ≤ n / d ∧ (n / d : ℚ) < 2 ^ (leadingExponent n d + 1) := by
  have hupper := div_lt_pow_log2 n hd
  have hlower := pow_log2_le_div hn hd
  unfold leadingExponent
  dsimp only
  have hiff := scaled_lt_iff (n := n) (e := (n.log2 : Int) - d.log2) hd 1
  rw [Nat.one_mul, Nat.cast_one, one_mul] at hiff
  split
  · next h => exact ⟨hlower, (hiff.1 h).trans_eq (by congr 1; omega)⟩
  · next h => exact ⟨not_lt.1 (hiff.not.1 h), hupper⟩

theorem leadingExponent_eq (hn : 0 < n) (hd : 0 < d) (hk : 0 < k) (h : (n / d : ℚ) = k * 2 ^ z) :
    leadingExponent n d = k.log2 + z := by
  obtain ⟨hle, hlt⟩ := leadingExponent_spec hn hd
  have htwo : (2 : ℚ) ≠ 0 := two_ne_zero
  have hpow : (0 : ℚ) < 2 ^ z := zpow_pos two_pos z
  have hlower : (2 : ℚ) ^ ((k.log2 : Int) + z) ≤ n / d := by
    rw [h, zpow_add₀ htwo]
    exact mul_le_mul_of_nonneg_right (pow_log2_le hk) hpow.le
  have hupper : (n / d : ℚ) < 2 ^ ((k.log2 : Int) + z + 1) := by
    have hexp : (k.log2 : Int) + z + 1 = k.log2 + 1 + z := by omega
    rw [h, hexp, zpow_add₀ htwo]
    exact mul_lt_mul_of_pos_right (lt_pow_log2 k) hpow
  have h₁ := (zpow_lt_zpow_iff_right₀ (one_lt_two (α := ℚ))).1 (hle.trans_lt hupper)
  have h₂ := (zpow_lt_zpow_iff_right₀ (one_lt_two (α := ℚ))).1 (hlower.trans_lt hlt)
  omega

/-- A number that has no more than 64 bits is known by its exponent and these. -/
theorem magnitude_eq (hn : 0 < n) (hd : 0 < d) (hk : 0 < k) (hbits : k < 2 ^ 64) (h : (n / d : ℚ) = k * 2 ^ z) :
    magnitude n d = (((k.log2 : Int) + z + 0x4000).toNat, k * 2 ^ (63 - k.log2)) := by
  have hlog : k.log2 < 64 := (Nat.log2_lt hk.ne').2 hbits
  have hshift : (k.log2 : Int) + z - 63 = z - ((63 - k.log2 : Nat) : Int) := by omega
  have hdiv : n * twoTo (63 - (k.log2 + z : Int)).toNat / (d * twoTo (-(63 - (k.log2 + z : Int))).toNat) =
      k * 2 ^ (63 - k.log2) := by
    have hquotient := div_scaled n d ((k.log2 : Int) + z - 63)
    have hpos := scaled_pos hd ((k.log2 : Int) + z - 63)
    rw [neg_sub] at hquotient ⊢
    have hexact : (n / d / 2 ^ ((k.log2 : Int) + z - 63) : ℚ) = (k * 2 ^ (63 - k.log2) : Nat) := by
      rw [h, hshift, zpow_sub₀ two_ne_zero, zpow_natCast, Nat.cast_mul, Nat.cast_pow, Nat.cast_two]
      have hz : (2 : ℚ) ^ z ≠ 0 := zpow_ne_zero z two_ne_zero
      field_simp
    rw [hexact, div_eq_iff (Nat.cast_ne_zero.2 hpos.ne')] at hquotient
    have hmul : n * twoTo (63 - ((k.log2 : Int) + z)).toNat =
        k * 2 ^ (63 - k.log2) * (d * twoTo ((k.log2 : Int) + z - 63).toNat) := by exact_mod_cast hquotient
    rw [hmul]
    exact Nat.mul_div_cancel _ hpos
  rw [magnitude, leadingExponent_eq hn hd hk h]
  exact Prod.ext rfl hdiv

/-! ## Keys of numbers -/

/-- A number of which the key loses nothing. -/
def IsExact (q : ℚ) : Prop := ∃ (k : Nat) (z : Int), k < 2 ^ 64 ∧ -0x4000 ≤ z ∧ z ≤ 0x4000 ∧ |q| = k * 2 ^ z

theorem isExact_int {i : Int} (h : i.natAbs < 2 ^ 64) : IsExact i :=
  ⟨i.natAbs, 0, h, by decide, by decide, by rw [zpow_zero, mul_one, Nat.cast_natAbs, Int.cast_abs]⟩

theorem abs_eq_natAbs_div (q : ℚ) : |q| = q.num.natAbs / q.den := by
  rw [Nat.cast_natAbs, Int.cast_abs, ← Nat.abs_cast q.den, ← abs_div, Rat.num_div_den]

/-- The magnitude of a number: an exponent, and as many bits as there is room for. -/
structure HasMagnitude (q : ℚ) (e m : Nat) : Prop where
  exponent_lt : e < 0x10000
  bits_pos : 0 < m
  bits_lt : m < 2 ^ 64
  abs_eq : |q| = m * 2 ^ ((e : Int) - 0x4000 - 63)

theorem exists_magnitude (h : IsExact q) (hq : q ≠ 0) : ∃ e m, magnitude q.num.natAbs q.den = (e, m) ∧ HasMagnitude q e m := by
  obtain ⟨k, z, hbits, hleast, hgreatest, habs⟩ := h
  have hk : 0 < k := by
    refine Nat.pos_of_ne_zero fun hzero => hq (abs_eq_zero.1 ?_)
    rw [habs, hzero, Nat.cast_zero, zero_mul]
  have hlog : k.log2 < 64 := (Nat.log2_lt hk.ne').2 hbits
  refine ⟨_, _, magnitude_eq (Int.natAbs_pos.2 (Rat.num_ne_zero.2 hq)) q.pos hk hbits ((abs_eq_natAbs_div q).symm.trans habs),
    by omega, by positivity, ?_, ?_⟩
  · calc k * 2 ^ (63 - k.log2) < 2 ^ (k.log2 + 1) * 2 ^ (63 - k.log2) :=
          Nat.mul_lt_mul_of_pos_right Nat.lt_log2_self (Nat.two_pow_pos _)
      _ = 2 ^ 64 := by rw [← pow_add]; congr 1; omega
  · have hexp : (((k.log2 : Int) + z + 0x4000).toNat : Int) - 0x4000 - 63 = z - ((63 - k.log2 : Nat) : Int) := by omega
    rw [habs, hexp, zpow_sub₀ two_ne_zero, zpow_natCast, Nat.cast_mul, Nat.cast_pow, Nat.cast_two]
    field_simp

/-- A zero, or the sign and two blocks of digits that tell the magnitude. -/
theorem numberKey_cases (h : IsExact q) :
    q = 0 ∧ numberKey (decide (q < 0)) (some q) = ['1'] ∨
    (∃ e m, q < 0 ∧ HasMagnitude q e m ∧
      numberKey (decide (q < 0)) (some q) = '0' :: (hexText 4 (0xFFFF - e) ++ hexText 16 (2 ^ 64 - m))) ∨
    ∃ e m, 0 < q ∧ HasMagnitude q e m ∧ numberKey (decide (q < 0)) (some q) = '2' :: (hexText 4 e ++ hexText 16 m) := by
  rcases lt_trichotomy q 0 with hq | rfl | hq
  · obtain ⟨e, m, hmagnitude, hm⟩ := exists_magnitude h hq.ne
    refine .inr (.inl ⟨e, m, hq, hm, ?_⟩)
    rw [numberKey, hmagnitude, decide_eq_true hq]
    exact if_neg hq.ne
  · exact .inl ⟨rfl, rfl⟩
  · obtain ⟨e, m, hmagnitude, hm⟩ := exists_magnitude h hq.ne'
    refine .inr (.inr ⟨e, m, hq, hm, ?_⟩)
    rw [numberKey, hmagnitude, decide_eq_false hq.le.not_gt]
    exact if_neg hq.ne'

/-- The digits tell two numbers. -/
theorem hexText_append_inj {e e' m m' : Nat} (he : e < 0x10000) (he' : e' < 0x10000) (hm : m < 2 ^ 64) (hm' : m' < 2 ^ 64)
    (h : hexText 4 e ++ hexText 16 m = hexText 4 e' ++ hexText 16 m') : e = e' ∧ m = m' := by
  obtain ⟨hfirst, hsecond⟩ := List.append_inj h (by rw [length_hexText, length_hexText])
  exact ⟨hexText_inj he he' hfirst, hexText_inj hm hm' hsecond⟩

/-- Numbers with the same key are the same. -/
theorem numberKey_inj (hp : IsExact p) (hq : IsExact q)
    (h : numberKey (decide (p < 0)) (some p) = numberKey (decide (q < 0)) (some q)) : p = q := by
  rcases numberKey_cases hp with ⟨hsign, hkey⟩ | ⟨e, m, hsign, hm, hkey⟩ | ⟨e, m, hsign, hm, hkey⟩ <;>
    rcases numberKey_cases hq with ⟨hsign', hkey'⟩ | ⟨e', m', hsign', hm', hkey'⟩ | ⟨e', m', hsign', hm', hkey'⟩ <;>
    rw [hkey, hkey', List.cons.injEq] at h
  case inl.inl => exact hsign.trans hsign'.symm
  case inr.inl.inr.inl =>
    obtain ⟨he, hbits⟩ := hexText_append_inj (by omega) (by omega) (by have := hm.bits_pos; omega)
      (by have := hm'.bits_pos; omega) h.2
    obtain rfl : e = e' := by have := hm.exponent_lt; have := hm'.exponent_lt; omega
    obtain rfl : m = m' := by have := hm.bits_lt; have := hm'.bits_lt; omega
    rw [← neg_inj, ← abs_of_neg hsign, ← abs_of_neg hsign', hm.abs_eq, hm'.abs_eq]
  case inr.inr.inr.inr =>
    obtain ⟨rfl, rfl⟩ := hexText_append_inj hm.exponent_lt hm'.exponent_lt hm.bits_lt hm'.bits_lt h.2
    rw [← abs_of_pos hsign, ← abs_of_pos hsign', hm.abs_eq, hm'.abs_eq]
  all_goals exact absurd h.1 (by decide)

/-! ## Keys of places -/

open Sql (Place Value)

/-- The key of what is at a place among the numbers, or beyond them. -/
def placeKey : Place → List Char
  | .below => numberKey true none
  | .rational q => numberKey (decide (q < 0)) (some q)
  | .above => numberKey false none

/-- A place of which the key loses nothing. -/
def IsExactPlace : Place → Prop
  | .rational q => IsExact q
  | _ => True

theorem head?_numberKey (isNegative : Bool) (q : ℚ) : (numberKey isNegative (some q)).head? ∈ [some '0', some '1', some '2'] := by
  unfold numberKey
  dsimp only
  split
  · exact List.mem_of_elem_eq_true rfl
  · split
    · exact List.mem_of_elem_eq_true rfl
    · exact List.mem_of_elem_eq_true rfl

theorem placeKey_inj {p q : Place} (hp : IsExactPlace p) (hq : IsExactPlace q) (h : placeKey p = placeKey q) : p = q := by
  cases p <;> cases q
  case rational.rational p q => rw [numberKey_inj hp hq h]
  case below.below | above.above => rfl
  case below.above | above.below => exact absurd h (by decide)
  case rational.below q | rational.above q =>
    have hhead : (placeKey (.rational q)).head? ∈ [some '0', some '1', some '2'] := head?_numberKey _ q
    rw [h] at hhead
    exact absurd hhead (by decide)
  case below.rational q | above.rational q =>
    have hhead : (placeKey (.rational q)).head? ∈ [some '0', some '1', some '2'] := head?_numberKey _ q
    rw [← h] at hhead
    exact absurd hhead (by decide)

theorem key_integer (i : Int) : (integer i).key = placeKey (.rational i) := by
  rw [key, placeKey, decide_eq_decide.2 (Int.cast_lt_zero (R := ℚ)).symm]

/-- A finite double as a rational number. -/
theorem toRat?_of_finite {x : Float} {negative : Bool} {m : Nat} {e : Int} (h : Binary64.value x = .finite negative m e) :
    Binary64.toRat? x = some (if negative then -(m * 2 ^ e : ℚ) else m * 2 ^ e) := by
  rw [Binary64.toRat?, h]
  dsimp only
  rw [Rat.mkRat_eq_div, ← div_quotient]
  cases negative
  · rfl
  · rw [if_pos rfl, if_pos rfl, Int.cast_neg, neg_div]
    rfl

theorem key_double {x : Float} (hx : Binary64.value x ≠ .nan) : (double x).key = placeKey (.ofDouble x) := by
  rw [key, Place.ofDouble]
  cases hvalue : Binary64.value x with
  | nan => exact absurd hvalue hx
  | infinity negative =>
    have hrat : Binary64.toRat? x = none := by rw [Binary64.toRat?, hvalue]
    have hsign : x < 0 ↔ negative = true := by
      rw [Doubles.eq_infinity_of_value hvalue, Doubles.infinity_lt_zero_iff]
    have hdecide : decide (x < 0) = negative := by rw [Bool.eq_iff_iff, decide_eq_true_iff, hsign]
    rw [hrat, hdecide]
    cases negative <;> rfl
  | finite negative m e =>
    rw [toRat?_of_finite hvalue, Option.getD_some, placeKey]
    by_cases hm : m = 0
    · have hzero : (if negative then -(m * 2 ^ e : ℚ) else m * 2 ^ e) = 0 := by simp [hm]
      rw [hzero]
      cases decide (x < 0) <;> rfl
    · have hpos : (0 : ℚ) < m * 2 ^ e := mul_pos (Nat.cast_pos.2 (Nat.pos_of_ne_zero hm)) (zpow_pos two_pos e)
      have hsign : (if negative then -(m * 2 ^ e : ℚ) else m * 2 ^ e) < 0 ↔ negative = true := by
        cases negative <;> simp [hpos, hpos.le]
      rw [decide_eq_decide.2 ((Doubles.lt_zero_iff_of_finite hvalue hm).trans hsign.symm)]

theorem isExact_ofDouble {x : Float} (hx : Binary64.value x ≠ .nan) : IsExactPlace (.ofDouble x) := by
  rw [Place.ofDouble]
  cases hvalue : Binary64.value x with
  | nan => exact absurd hvalue hx
  | infinity negative => cases negative <;> trivial
  | finite negative m e =>
    obtain ⟨hnormal, -, hlt⟩ := Doubles.bits_of_value hvalue
    have hleast := hnormal.least
    have hbits := hnormal.lt
    have hbounds : m < 2 ^ 64 ∧ -0x4000 ≤ e ∧ e ≤ 0x4000 := by
      unfold Binary64.bitsOf Binary64.infinityBits at hlt
      simp only [Binary64.leadingBit, Binary64.leastExponent] at *
      omega
    rw [toRat?_of_finite hvalue, Option.getD_some]
    refine ⟨m, e, hbounds.1, hbounds.2.1, hbounds.2.2, ?_⟩
    have hnonneg : (0 : ℚ) ≤ m * 2 ^ e := by positivity
    cases negative
    · exact abs_of_nonneg hnonneg
    · exact (abs_neg _).trans (abs_of_nonneg hnonneg)

/-! ## Keys of values -/

theorem hexBytes_inj : ∀ {bs bs' : List UInt8}, hexBytes bs = hexBytes bs' → bs = bs'
  | [], [], _ => rfl
  | [], b :: bs, h | b :: bs, [], h => by
    have hlength := congrArg List.length h
    simp only [hexBytes, List.flatMap_cons, List.flatMap_nil, List.length_append, length_hexText, List.length_nil] at hlength
    omega
  | b :: bs, b' :: bs', h => by
    simp only [hexBytes, List.flatMap_cons] at h
    obtain ⟨hfirst, hrest⟩ := List.append_inj h (by rw [length_hexText, length_hexText])
    rw [UInt8.toNat_inj.1 (hexText_inj b.toNat_lt b'.toNat_lt hfirst), hexBytes_inj hrest]

/-- The name that a value is, if it is no text. -/
def ofValue? : Value → Option OtherName
  | .null => some missing
  | .integer i => some (integer i)
  | .real x => some (double x)
  | .blob bs => some (bytes bs)
  | .text _ => none

/-- A value as it can be in a database: integers have 64 bits, and doubles are numbers. -/
def IsStored : Value → Prop
  | .integer i => i.natAbs < 2 ^ 64
  | .real x => Binary64.value x ≠ .nan
  | _ => True

/-- The rank of the values that have a key. -/
def keyRank : List Char → Nat
  | [] => 0
  | 'x' :: _ => 3
  | _ => 1

theorem keyRank_numberKey (isNegative : Bool) (q : Option ℚ) : keyRank (numberKey isNegative q) = 1 := by
  cases q with
  | none => cases isNegative <;> rfl
  | some q =>
    unfold numberKey
    dsimp only
    split
    · rfl
    · cases isNegative <;> rfl

variable {v w : Value} {n m : OtherName}

theorem keyRank_key (h : ofValue? v = some n) : keyRank n.key = v.rank := by
  cases v <;> cases h
  case integer i => exact keyRank_numberKey (decide (i < 0)) (some i)
  case real x => exact keyRank_numberKey (decide (x < 0)) (Binary64.toRat? x)
  all_goals rfl

theorem key_of_number (hv : IsStored v) (hn : ofValue? v = some n) (hrank : v.rank = 1) :
    n.key = placeKey v.place ∧ IsExactPlace v.place := by
  cases v <;> cases hn
  case integer i => exact ⟨key_integer i, isExact_int hv⟩
  case real x => exact ⟨key_double hv, isExact_ofDouble hv⟩
  all_goals simp [Value.rank] at hrank

/-- Values have the same key when they are the same. -/
theorem key_eq_iff (hv : IsStored v) (hw : IsStored w) (hn : ofValue? v = some n) (hm : ofValue? w = some m) :
    n.key = m.key ↔ v.same .binary w = true := by
  rw [Value.same_iff]
  by_cases hrank : v.rank = w.rank
  · have hnumbers : v.rank = 1 → (n.key = m.key ↔ v.place = w.place) := fun hone => by
      obtain ⟨hkey, hexact⟩ := key_of_number hv hn hone
      obtain ⟨hkey', hexact'⟩ := key_of_number hw hm (hrank.symm.trans hone)
      rw [hkey, hkey']
      exact ⟨placeKey_inj hexact hexact', congrArg _⟩
    cases v <;> cases w
    case integer.integer | integer.real | real.integer | real.real =>
      exact (hnumbers rfl).trans ⟨fun h => ⟨rfl, h, rfl⟩, fun h => h.2.1⟩
    case null.null =>
      cases hn
      cases hm
      exact iff_of_true rfl ⟨rfl, rfl, rfl⟩
    case blob.blob bs bs' =>
      cases hn
      cases hm
      exact ⟨fun h => ⟨rfl, rfl, hexBytes_inj (List.cons.inj h).2⟩, fun h => congrArg (fun bs => 'x' :: hexBytes bs) h.2.2⟩
    case text.text => cases hn
    all_goals simp [Value.rank] at hrank
  · exact iff_of_false (fun h => hrank (by rw [← keyRank_key hn, ← keyRank_key hm, h])) fun h => hrank h.1

/-! ## From names to keys -/

/-- A character that no spelling begins with. -/
def isKeyChar (c : Char) : Bool := c ≠ ':' && c ≠ '='

theorem isKeyChar_hexText {c : Char} {width n : Nat} (h : c ∈ hexText width n) : isKeyChar c = true := by
  obtain ⟨d, hd, rfl⟩ := mem_hexText h
  have hdigits : ∀ e : Fin 16, isKeyChar (Nat.digitChar e) = true := by decide
  exact hdigits ⟨d, hd⟩

theorem isKeyChar_numberKey {c : Char} {isNegative : Bool} {q : Option ℚ} (h : c ∈ numberKey isNegative q) :
    isKeyChar c = true := by
  cases q with
  | none => cases isNegative <;> (cases List.mem_singleton.1 h; rfl)
  | some q =>
    unfold numberKey at h
    dsimp only at h
    split at h
    · cases List.mem_singleton.1 h
      rfl
    · cases isNegative <;>
        (simp only [Bool.false_eq_true, if_false, if_true, List.cons_append, List.mem_cons, List.mem_append] at h
         obtain rfl | h | h := h
         · rfl
         · exact isKeyChar_hexText h
         · exact isKeyChar_hexText h)

theorem isKeyChar_key {c : Char} (h : c ∈ n.key) : isKeyChar c = true := by
  cases n with
  | missing => cases h
  | integer i => exact isKeyChar_numberKey (q := some i) h
  | double x => exact isKeyChar_numberKey (q := Binary64.toRat? x) h
  | bytes bs =>
    obtain rfl | h := List.mem_cons.1 h
    · rfl
    · obtain ⟨b, -, hc⟩ := List.mem_flatMap.1 h
      exact isKeyChar_hexText hc

/-- The key ends where the spelling begins. -/
theorem takeWhile_name (n : OtherName) : (n.key ++ n.spelling).takeWhile isKeyChar = n.key := by
  rw [List.takeWhile_append_of_pos fun c => isKeyChar_key]
  cases n <;> exact List.append_nil _

theorem key_eq_of_name_eq (h : n.name = m.name) : n.key = m.key := by
  have hlist : n.key ++ n.spelling = m.key ++ m.spelling := (List.cons.inj (String.ofList_injective h)).2
  rw [← takeWhile_name n, ← takeWhile_name m, hlist]

theorem keyName_eq_iff : n.keyName = m.keyName ↔ n.key = m.key :=
  ⟨fun h => (List.cons.inj (String.ofList_injective h)).2, fun h => by rw [keyName, keyName, h]⟩

/-- The first name of those that are equal to this one. -/
def firstOf (written : List OtherName) (n : OtherName) : OtherName := (written.find? fun m => m.key == n.key).getD n

theorem key_firstOf (written : List OtherName) (n : OtherName) : (firstOf written n).key = n.key := by
  unfold firstOf
  cases h : written.find? fun m => m.key == n.key with
  | none => rfl
  | some m =>
    have hkey := List.find?_some h
    exact beq_iff_eq.1 hkey

theorem firstOf_mem {written : List OtherName} (hn : n ∈ written) : firstOf written n ∈ written := by
  unfold firstOf
  cases h : written.find? fun m => m.key == n.key with
  | none => exact hn
  | some m => exact List.mem_of_find?_eq_some h

/-- Names that were written are shown alike when they have the same key. -/
theorem name_firstOf_eq_iff {written : List OtherName} (hn : n ∈ written) :
    (firstOf written n).name = (firstOf written m).name ↔ n.key = m.key := by
  constructor
  · intro h
    rw [← key_firstOf written n, ← key_firstOf written m, key_eq_of_name_eq h]
  · intro h
    have hfound : (written.find? fun m => m.key == n.key).isSome := List.find?_isSome.2 ⟨n, hn, beq_self_eq_true n.key⟩
    obtain ⟨k, hk⟩ := Option.isSome_iff_exists.1 hfound
    rw [firstOf, firstOf, ← h, hk]
    rfl

end OtherName

end CouplingTree
