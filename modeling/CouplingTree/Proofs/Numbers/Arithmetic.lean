import CouplingTree.Proofs.Numbers.Nearest

/-!
# The arithmetic of doubles

Sums, quotients and conversions of doubles that are not negative are the nearest doubles to the exact results.

* `Doubles.StandsFor x q` : a finite double without a sign, and its value.
* `Doubles.bits_round` : a mantissa that is cut to 53 bits goes to the nearest double.
* `Doubles.bits_add`, `Doubles.bits_div`, `Doubles.bits_natCast` : hence the bits of sums, quotients and counts.
-/

namespace CouplingTree.Doubles

open Float.Model UnpackedFloat Binary64

/-! ## Mantissas that are cut -/

/-- The whole part of `n / d`, and the bits that compare the rest with a half. -/
def cut (n d : Nat) : ExtendedMantissa := ⟨n / d, decide (d ≤ 2 * (n % d)), decide (2 * (n % d) % d ≠ 0)⟩

variable {n d : Nat} {e : Int}

theorem cut_eq (n : Nat) (hd : 0 < d) : .ofMantissaAndAccuracy (n / d) (accuracyOfFraction (n % d) d) = cut n d := by
  have hlt := Nat.mod_lt n hd
  unfold accuracyOfFraction cut
  split
  · next h => simp [h, ExtendedMantissa.ofMantissaAndAccuracy, hd.ne']
  · next h =>
    cases hcompare : compare (2 * (n % d)) d with
    | lt =>
      have hless := Nat.compare_eq_lt.1 hcompare
      have hmod : 2 * (n % d) % d = 2 * (n % d) := Nat.mod_eq_of_lt hless
      simp [ExtendedMantissa.ofMantissaAndAccuracy, hmod, h, hless]
    | eq =>
      have hequal := Nat.compare_eq_eq.1 hcompare
      simp [ExtendedMantissa.ofMantissaAndAccuracy, hequal]
    | gt =>
      have hgreater := Nat.compare_eq_gt.1 hcompare
      have hmod : 2 * (n % d) % d = 2 * (n % d) - d := by
        rw [Nat.mod_eq_sub_mod hgreater.le, Nat.mod_eq_of_lt (by omega)]
      have hrest : 2 * (n % d) - d ≠ 0 := by omega
      simp [ExtendedMantissa.ofMantissaAndAccuracy, hmod, hrest, hgreater.le]

/-- The bits compare the rest with a half, so that they tell the nearest natural number. -/
theorem roundedMantissa_cut (n : Nat) (hd : 0 < d) : (cut n d).roundedMantissa = roundDiv n d := by
  have hlt := Nat.mod_lt n hd
  rw [← cut_eq n hd]
  unfold accuracyOfFraction roundDiv
  split
  · next h => simp [h, hd, ExtendedMantissa.ofMantissaAndAccuracy, ExtendedMantissa.roundedMantissa,
      ExtendedMantissa.accuracy, Accuracy.roundToNearestEven]
  · cases hcompare : compare (2 * (n % d)) d with
    | lt =>
      rw [if_pos (Nat.compare_eq_lt.1 hcompare)]
      rfl
    | eq =>
      have hequal := Nat.compare_eq_eq.1 hcompare
      rw [if_neg (by omega), if_neg (by omega)]
      change n / d + n / d % 2 = _
      split <;> omega
    | gt =>
      have hgreater := Nat.compare_eq_gt.1 hcompare
      rw [if_neg (by omega), if_pos hgreater]
      rfl

theorem shiftRightOne_cut (n : Nat) (hd : 0 < d) : (cut n d).shiftRightOne = cut n (d * 2) := by
  have hlt := Nat.mod_lt n hd
  have hmod : n % (d * 2) = n % d + d * (n / d % 2) := Nat.mod_mul
  have hquotient : n / (d * 2) = n / d / 2 := (Nat.div_div_eq_div_mul n d 2).symm
  have hdouble : 2 * (n % d) % d ≠ 0 ∨ d ≤ 2 * (n % d) ↔ n % d ≠ 0 := by
    constructor
    · rintro (h | h)
      · exact fun hzero => h (by rw [hzero, Nat.mul_zero, Nat.zero_mod])
      · omega
    · intro h
      by_cases hle : d ≤ 2 * (n % d)
      · exact Or.inr hle
      · rw [Nat.mod_eq_of_lt (Nat.lt_of_not_le hle)]
        omega
  have hsticky : 2 * (n % (d * 2)) % (d * 2) ≠ 0 ↔ n % d ≠ 0 := by
    rw [Nat.mul_comm d 2, Nat.mul_mod_mul_left, Nat.mul_comm 2 d, Nat.mod_mul_right_mod]
    omega
  unfold ExtendedMantissa.shiftRightOne cut
  rw [ExtendedMantissa.mk.injEq]
  refine ⟨hquotient.symm, ?_, ?_⟩
  · rw [hmod, Bool.eq_iff_iff, bne_iff_ne, decide_eq_true_iff]
    rcases Nat.mod_two_eq_zero_or_one (n / d) with h | h <;> rw [h] <;> omega
  · rw [Bool.eq_iff_iff, Bool.or_eq_true, decide_eq_true_iff, decide_eq_true_iff, decide_eq_true_iff, hsticky, Or.comm,
      hdouble]

theorem shiftRight_cut (n : Nat) (hd : 0 < d) (k : Nat) : cut n d >>> k = cut n (d * 2 ^ k) := by
  change k.repeat ExtendedMantissa.shiftRightOne (cut n d) = _
  induction k with
  | zero => simp [Nat.repeat]
  | succ k ih =>
    rw [Nat.repeat, ih, shiftRightOne_cut n (Nat.mul_pos hd (Nat.two_pow_pos k)), Nat.mul_assoc, Nat.pow_succ]

/-! ## Bits of a double -/

/-- The bits of a double as a number. -/
def bits (x : Float) : Nat := x.toBits.toNat

theorem toNat_packComponents (exponent : BitVec 11) (mantissa : BitVec 52) :
    (packComponents Format.binary64 .positive exponent mantissa).toNat = exponent.toNat * leadingBit + mantissa.toNat := by
  have hsign : (Sign.toBitVec .positive ++ exponent).toNat = exponent.toNat := by
    rw [BitVec.toNat_append]
    simp [Sign.toBitVec]
  rw [packComponents, BitVec.toNat_append, hsign, ← Nat.shiftLeft_add_eq_or_of_lt mantissa.isLt, Nat.shiftLeft_eq]
  rfl

theorem log2_lt_of_isNormal {m : Nat} (hm : 0 < m) (h : IsNormal m e) : m.log2 < 53 :=
  (Nat.log2_lt hm.ne').2 (h.lt.trans_eq rfl)

theorem leadingBit_le_iff {m : Nat} (hm : 0 < m) (h : IsNormal m e) : leadingBit ≤ m ↔ m.log2 + 1 = 53 := by
  have hlt := log2_lt_of_isNormal hm h
  have hle : 52 ≤ m.log2 ↔ leadingBit ≤ m := Nat.le_log2 hm.ne'
  omega

theorem toNat_pack_finite {m : Nat} (hm : 0 < m) (h : IsNormal m e) :
    (UnpackedFloat.pack Format.binary64 (.finite .positive m e hm)).toNat = bitsOf m e := by
  have hleast : -1074 ≤ e := h.least
  have hlog := leadingBit_le_iff hm h
  have hlt := h.lt
  have hbias : e + (Format.exponentBias Format.binary64 : Int) + (52 : Nat) = e + 1075 := by
    change e + 1023 + 52 = _
    omega
  have hinfinity : infinityBits = 2047 * leadingBit := rfl
  unfold UnpackedFloat.pack bitsOf
  dsimp only
  rw [hbias]
  split
  · next hlarge =>
    have hlarge' : 2048 ≤ (e + 1075).toNat + 1 := hlarge
    have hbits : (packedInfinity Format.binary64 .positive).toNat = infinityBits := by
      rw [packedInfinity, toNat_packComponents]
      rfl
    have hnormal := h.le (by change -1074 < e; omega)
    have hmul : 2046 * leadingBit ≤ (e + 1074).toNat * leadingBit := Nat.mul_le_mul_right _ (by omega)
    rw [hbits, Nat.min_eq_right (by omega)]
  · next hsmall =>
    have hsmall' : (e + 1075).toNat + 1 < 2048 := Nat.lt_of_not_le hsmall
    have hmul : (e + 1074).toNat * leadingBit ≤ 2045 * leadingBit := Nat.mul_le_mul_right _ (by omega)
    rw [Nat.min_eq_left (by omega)]
    split
    · next hone =>
      have hnormal := hlog.2 hone
      rw [toNat_packComponents, BitVec.toNat_ofNat, BitVec.toNat_ofNat]
      have hexponent : (e + 1075).toNat % 2 ^ 11 = (e + 1074).toNat + 1 := by
        rw [Nat.mod_eq_of_lt (by omega)]
        omega
      have hmantissa : m % leadingBit = m - leadingBit := by
        rw [Nat.mod_eq_sub_mod hnormal, Nat.mod_eq_of_lt (by omega)]
      change _ % 2 ^ 11 * leadingBit + m % leadingBit = _
      rw [hexponent, hmantissa, Nat.add_mul]
      omega
    · next hone =>
      have hlow : m < leadingBit := Nat.lt_of_not_le fun hle => hone (hlog.1 hle)
      have hexponent : e = -1074 := le_antisymm (not_lt.1 fun hgt => absurd (h.le hgt) (Nat.not_le_of_lt hlow)) hleast
      rw [toNat_packComponents, BitVec.toNat_ofNat, hexponent]
      change 0 * leadingBit + m % leadingBit = 0 * leadingBit + m
      rw [Nat.mod_eq_of_lt hlow]

theorem toNat_unpackMantissa (b : BitVec 64) :
    (@unpackMantissa Format.binary64 b).toNat = b.toNat % leadingBit := by
  unfold unpackMantissa
  rw [BitVec.toNat_cast, BitVec.extractLsb_toNat]
  rfl

theorem toNat_unpackExponent (b : BitVec 64) :
    (@unpackExponent Format.binary64 b).toNat = b.toNat / leadingBit % 2048 := by
  unfold unpackExponent
  rw [BitVec.toNat_cast, BitVec.extractLsb_toNat, Nat.shiftRight_eq_div_pow]
  rfl

theorem unpackSign_of_lt {b : BitVec 64} (h : b.toNat < signBit) : @unpackSign Format.binary64 b = 0#1 := by
  apply BitVec.eq_of_toNat_eq
  unfold unpackSign
  rw [BitVec.toNat_cast, BitVec.extractLsb_toNat, Nat.shiftRight_eq_div_pow]
  change b.toNat / signBit % 2 = 0
  rw [Nat.div_eq_of_lt h]

/-- The value of a double by the parts of its bits. -/
theorem value_eq (x : Float) : value x =
    if bits x / leadingBit % 2048 = 2047 then
      if bits x % leadingBit = 0 then .infinity (decide (signBit ≤ bits x)) else .nan
    else if bits x / leadingBit % 2048 = 0 then .finite (decide (signBit ≤ bits x)) (bits x % leadingBit) (-1074)
    else .finite (decide (signBit ≤ bits x)) (leadingBit + bits x % leadingBit)
      (((bits x / leadingBit % 2048 : Nat) : Int) - 1075) := rfl

theorem bits_lt (x : Float) : bits x < 2 * signBit := x.toBits.toNat_lt

/-- What the sign adds to the bits. -/
theorem signPart_eq {n : Nat} (h : n < 2 * signBit) :
    (if decide (signBit ≤ n) then signBit else 0) = n - n % signBit := by
  by_cases hn : signBit ≤ n
  · rw [decide_eq_true hn, if_pos rfl, Nat.mod_eq_sub_mod hn, Nat.mod_eq_of_lt (by omega)]
    omega
  · rw [decide_eq_false hn, if_neg Bool.false_ne_true, Nat.mod_eq_of_lt (by omega), Nat.sub_self]

theorem bits_of_value {x : Float} {m : Nat} {negative : Bool} (h : value x = .finite negative m e) :
    IsNormal m e ∧ bits x = bitsOf m e + (if negative then signBit else 0) ∧ bitsOf m e < infinityBits := by
  have hsign := signPart_eq (bits_lt x)
  rw [value_eq] at h
  generalize bits x = b at h hsign ⊢
  split at h
  · split at h <;> cases h
  · split at h
    all_goals
      injection h with hnegative hm he
      subst hm he hnegative
      rw [hsign]
      unfold bitsOf infinityBits
      refine ⟨⟨?_, ?_, fun _ => ?_⟩, ?_, ?_⟩
      all_goals
        simp only [leadingBit, signBit, leastExponent] at *
        omega

theorem isNormal_of_value {x : Float} {m : Nat} (h : value x = .finite false m e) :
    IsNormal m e ∧ bits x = bitsOf m e ∧ bits x < infinityBits := by
  obtain ⟨hnormal, hbits, hlt⟩ := bits_of_value h
  rw [if_neg Bool.false_ne_true, Nat.add_zero] at hbits
  exact ⟨hnormal, hbits, hbits.trans_lt hlt⟩

theorem value_of_bits_lt {x : Float} (h : bits x < infinityBits) : ∃ m e, value x = .finite false m e := by
  have hsign : decide (signBit ≤ bits x) = false := decide_eq_false (by simp only [signBit, infinityBits, leadingBit] at *; omega)
  rw [value_eq, hsign, if_neg (by simp only [infinityBits, leadingBit] at *; omega)]
  split
  · exact ⟨_, _, rfl⟩
  · exact ⟨_, _, rfl⟩

/-- Finite bits without a sign have a field of the exponent, which is zero for the least exponent, and the rest of the
mantissa. -/
theorem fields_of_isNormal {n m : Nat} (h : IsNormal m e) (hn : n = bitsOf m e) (hlt : n < infinityBits) :
    n / leadingBit % 2048 ≠ 2047 ∧
      (n / leadingBit % 2048 = 0 → n % leadingBit = m ∧ e = -1074) ∧
      (n / leadingBit % 2048 ≠ 0 → leadingBit + n % leadingBit = m ∧ ((n / leadingBit % 2048 : Nat) : Int) - 1075 = e) := by
  have hnormal : leastExponent < e → leadingBit ≤ m := h.le
  have hleast : leastExponent ≤ e := h.least
  have hbound := h.lt
  have hsum : n = (e + 1074).toNat * leadingBit + m := by
    rw [hn, bitsOf] at hlt
    rw [hn, bitsOf]
    omega
  simp only [leadingBit, infinityBits, leastExponent] at *
  omega

/-- The number that finite bits without a sign hold. -/
theorem unpack_eq {b : BitVec 64} {m : Nat} (hnormal : IsNormal m e) (hbits : b.toNat = bitsOf m e)
    (hlt : b.toNat < infinityBits) : UnpackedFloat.unpack Format.binary64 b =
      if hm : m = 0 then .zero .positive else .finite .positive m e (Nat.pos_of_ne_zero hm) := by
  obtain ⟨hfinite, hsubnormal, hfull⟩ := fields_of_isNormal hnormal hbits hlt
  have hmantissa := toNat_unpackMantissa b
  have hexponent := toNat_unpackExponent b
  have hsign := unpackSign_of_lt (hlt.trans (by decide))
  unfold UnpackedFloat.unpack
  dsimp only
  have hnumber : @unpackExponent Format.binary64 b ≠ -1#_ := fun h => hfinite (by rw [← hexponent, h]; rfl)
  rw [if_neg hnumber, hsign]
  by_cases hzero : @unpackExponent Format.binary64 b = 0#_
  · have hfield : b.toNat / leadingBit % 2048 = 0 := by rw [← hexponent, hzero]; rfl
    obtain ⟨hm, he⟩ := hsubnormal hfield
    rw [if_pos hzero]
    by_cases hnone : @unpackMantissa Format.binary64 b = 0#_
    · have hm0 : m = 0 := by rw [← hm, ← hmantissa, hnone]; rfl
      rw [dif_pos hnone, dif_pos hm0]
      rfl
    · have hm0 : m ≠ 0 := fun h => hnone (BitVec.eq_of_toNat_eq (by rw [hmantissa, hm, h]; rfl))
      rw [dif_neg hnone, dif_neg hm0, UnpackedFloat.finite.injEq]
      refine ⟨rfl, hmantissa.trans hm, ?_⟩
      rw [hexponent, hfield, he]
      rfl
  · have hfield : b.toNat / leadingBit % 2048 ≠ 0 := fun h => hzero (BitVec.eq_of_toNat_eq (by rw [hexponent, h]; rfl))
    obtain ⟨hm, he⟩ := hfull hfield
    have hm0 : m ≠ 0 := by
      rw [← hm]
      exact (Nat.add_pos_left (by decide) _).ne'
    rw [if_neg hzero, dif_neg hm0, UnpackedFloat.finite.injEq]
    refine ⟨rfl, ?_, ?_⟩
    · rw [BitVec.toNat_append, ← Nat.shiftLeft_add_eq_or_of_lt (BitVec.isLt _), hmantissa, ← hm]
      rfl
    · rw [hexponent]
      exact he

theorem unpack_of_value {x : Float} {m : Nat} (h : value x = .finite false m e) :
    x.toModel.unpack = if hm : m = 0 then .zero .positive else .finite .positive m e (Nat.pos_of_ne_zero hm) := by
  obtain ⟨hnormal, hbits, hlt⟩ := isNormal_of_value h
  exact unpack_eq hnormal hbits hlt

/-! ## Rounding -/

theorem shift_cut (n : Nat) (hd : 0 < d) (e : Int) :
    shiftToTargetExponent Format.binary64 (n / d) e (accuracyOfFraction (n % d) d) =
      (cut n (d * 2 ^ (Format.binary64.targetExponent (totalExponent (n / d) e) - e).toNat),
        e + (Format.binary64.targetExponent (totalExponent (n / d) e) - e).toNat) := by
  unfold shiftToTargetExponent shiftToExponent
  dsimp only
  rw [cut_eq n hd, shiftRight_cut n hd]

theorem targetExponent_eq (m : Nat) (e : Int) :
    Format.binary64.targetExponent (totalExponent m e) = max ((m.log2 : Int) + e - 52) leastExponent := by
  change max ((m.log2 : Int) + 1 + e - 53) (-1074) = _
  unfold leastExponent
  omega

/-- The power that is aimed at is the one that the mantissa of the exact number counts. -/
theorem isUnit_targetExponent {q : ℚ} (hd : 0 < d) (hq : (n / d : ℚ) * 2 ^ e = q) (hfine : d ≤ n ∨ e ≤ -1022) :
    IsUnit q (Format.binary64.targetExponent (totalExponent (n / d) e)) := by
  have htwo : (2 : ℚ) ≠ 0 := two_ne_zero
  have hpow : (0 : ℚ) < 2 ^ e := zpow_pos two_pos e
  have hdpos : (0 : ℚ) < d := Nat.cast_pos.2 hd
  rw [targetExponent_eq, ← hq]
  by_cases hle : d ≤ n
  · have hlower : (2 : ℚ) ^ ((n / d).log2 : Int) ≤ n / d := by
      rw [zpow_natCast, le_div_iff₀ hdpos]
      exact_mod_cast (Nat.le_div_iff_mul_le hd).1 (Nat.log2_self_le (Nat.div_pos hle hd).ne')
    have hupper : (n / d : ℚ) < 2 ^ (((n / d).log2 : Int) + 1) := by
      have hlt : (n / d : ℚ) < 2 ^ ((n / d).log2 + 1) := by
        rw [div_lt_iff₀ hdpos]
        exact_mod_cast (Nat.div_lt_iff_lt_mul hd).1 (Nat.lt_log2_self (n := n / d))
      exact_mod_cast hlt
    refine isUnit_max ?_ ?_
    · calc (n / d : ℚ) * 2 ^ e < 2 ^ (((n / d).log2 : Int) + 1) * 2 ^ e := mul_lt_mul_of_pos_right hupper hpow
        _ = _ := by rw [← zpow_add₀ htwo]; congr 1; omega
    · calc (2 : ℚ) ^ (((n / d).log2 : Int) + e - 52 + 52) = 2 ^ ((n / d).log2 : Int) * 2 ^ e := by
            rw [← zpow_add₀ htwo]; congr 1; omega
        _ ≤ _ := mul_le_mul_of_nonneg_right hlower hpow.le
  · have hexponent : e ≤ -1022 := hfine.resolve_left hle
    have hfloor : n / d = 0 := Nat.div_eq_of_lt (Nat.lt_of_not_le hle)
    have hlog : ((n / d).log2 : Int) = 0 := by rw [hfloor]; rfl
    have hlt : (n / d : ℚ) < 1 := by
      rw [div_lt_one hdpos]
      exact_mod_cast Nat.lt_of_not_le hle
    rw [hlog, max_eq_right (by unfold leastExponent; omega)]
    refine ⟨le_rfl, ?_, fun hgt => absurd hgt (lt_irrefl _)⟩
    calc (n / d : ℚ) * 2 ^ e < 1 * 2 ^ e := mul_lt_mul_of_pos_right hlt hpow
      _ = 2 ^ e := one_mul _
      _ ≤ _ := zpow_le_zpow_right₀ one_le_two (by unfold leastExponent; omega)

theorem shift_exact (m : Nat) (e : Int) : shiftToTargetExponent Format.binary64 m e .exact =
    (cut m (2 ^ (Format.binary64.targetExponent (totalExponent m e) - e).toNat),
      e + (Format.binary64.targetExponent (totalExponent m e) - e).toNat) := by
  have h := shift_cut m Nat.one_pos e
  rwa [Nat.div_one, Nat.mod_one, Nat.one_mul] at h

/-- Finite numbers are packed to their bits, zero among them. -/
theorem bits_pack {m : Nat} (h : IsNormal m e) :
    (Float.Model.pack (if hm : m = 0 then .zero .positive
      else .finite .positive m e (Nat.pos_of_ne_zero hm))).toBits.toNat = bitsOf m e := by
  by_cases hm : m = 0
  · have hleast : e = leastExponent := le_antisymm (not_lt.1 fun hgt => absurd (h.le hgt) (by rw [hm]; decide)) h.least
    rw [dif_pos hm, hm, hleast, bitsOf_zero]
    rfl
  · rw [dif_neg hm]
    exact toNat_pack_finite (Nat.pos_of_ne_zero hm) h

/-- Rounding can reach the next power of two, which the next exponent counts. -/
theorem bits_shift_exact {m : Nat} {p : ExtendedMantissa × Int} (he : leastExponent ≤ e) (hle : m ≤ 2 * leadingBit)
    (hnormal : leastExponent < e → leadingBit ≤ m) (hp : shiftToTargetExponent Format.binary64 m e .exact = p) :
    (Float.Model.pack (if h : p.1.mantissa = 0 then .zero .positive
      else .finite .positive p.1.mantissa p.2 (Nat.pos_of_ne_zero h))).toBits.toNat = bitsOf m e := by
  rw [shift_exact, targetExponent_eq] at hp
  subst hp
  rcases hle.lt_or_eq with hlt | rfl
  · have hnormal' : IsNormal m e := ⟨he, hlt, hnormal⟩
    have hlog : m.log2 < 53 := by
      obtain rfl | hm := m.eq_zero_or_pos
      · decide
      · exact log2_lt_of_isNormal hm hnormal'
    have hshift : (max ((m.log2 : Int) + e - 52) leastExponent - e).toNat = 0 := by omega
    rw [hshift]
    have hmantissa : (cut m (2 ^ 0)).mantissa = m := Nat.div_one m
    dsimp only
    rw [Nat.cast_zero, add_zero]
    generalize (cut m (2 ^ 0)).mantissa = k at hmantissa ⊢
    subst hmantissa
    exact bits_pack hnormal'
  · have hlog : (2 * leadingBit).log2 = 53 := Nat.log2_two_pow (n := 53)
    have hshift : (max (((2 * leadingBit).log2 : Int) + e - 52) leastExponent - e).toNat = 1 := by
      rw [hlog]
      omega
    rw [hshift]
    have hmantissa : (cut (2 * leadingBit) (2 ^ 1)).mantissa = leadingBit := rfl
    have hnext : IsNormal leadingBit (e + 1) := ⟨by omega, by decide, fun _ => le_rfl⟩
    dsimp only
    generalize (cut (2 * leadingBit) (2 ^ 1)).mantissa = k at hmantissa ⊢
    subst hmantissa
    rw [dif_neg (by decide), ← bitsOf_carry he]
    exact toNat_pack_finite (by decide) hnext

/-- **Cutting goes to the nearest double.** A quotient whose whole part has bits enough, or is as fine as doubles get, is cut
to the nearest double of what it stands for. -/
theorem bits_roundWithAccuracy {a b : Nat} (hd : 0 < d) (ha : 0 < a) (hb : 0 < b) (hq : (n / d : ℚ) * 2 ^ e = a / b)
    (hfine : d ≤ n ∨ e ≤ -1022) (he : e ≤ unitExponent a b) :
    (Float.Model.pack (roundWithAccuracy Format.binary64 .positive (n / d) e
      (accuracyOfFraction (n % d) d))).toBits.toNat = nearestBits a b := by
  have hunit := isUnit_targetExponent hd hq hfine
  have htarget := (isUnit_unitExponent ha hb).unique hunit
  rw [nearestBits_eq ha hb hunit]
  unfold roundWithAccuracy
  rw [shift_cut n hd e, ← htarget]
  obtain ⟨k, hk⟩ : ∃ k : Nat, unitExponent a b = e + k := ⟨(unitExponent a b - e).toNat, by omega⟩
  have hshift : (unitExponent a b - e).toNat = k := by omega
  rw [← htarget] at hunit
  have hround : (cut n (d * 2 ^ k)).roundedMantissa =
      roundDiv (a * twoTo (-unitExponent a b).toNat) (b * twoTo (unitExponent a b).toNat) := by
    rw [roundedMantissa_cut n (Nat.mul_pos hd (Nat.two_pow_pos k))]
    refine roundDiv_congr (Nat.mul_pos hd (Nat.two_pow_pos k)) (scaled_pos hb _) ?_
    rw [div_scaled, ← hq, hk, zpow_add₀ two_ne_zero, zpow_natCast]
    have hpow : (2 : ℚ) ^ e ≠ 0 := (zpow_pos two_pos e).ne'
    push_cast
    field_simp
  rw [hshift, ← hk]
  dsimp only
  rw [hround]
  exact bits_shift_exact hunit.least (hunit.roundDiv_le hb) (hunit.le_roundDiv hb) rfl

theorem bits_round {m a b : Nat} (hm : 0 < m) (ha : 0 < a) (hb : 0 < b) (hq : (m : ℚ) * 2 ^ e = a / b) :
    (Float.Model.pack (round Format.binary64 .positive m e)).toBits.toNat = nearestBits a b := by
  have hunit : IsUnit (a / b) (Format.binary64.targetExponent (totalExponent m e)) := by
    have h := isUnit_targetExponent (n := m) (e := e) Nat.one_pos (by simpa using hq) (Or.inl hm)
    rwa [Nat.div_one] at h
  have htarget := (isUnit_unitExponent ha hb).unique hunit
  unfold UnpackedFloat.round decreaseExponent
  dsimp only
  rw [← htarget]
  generalize hk : (e - unitExponent a b).toNat = k
  have hvalue : ((m <<< k : Nat) : ℚ) * 2 ^ (e - (k : Int)) = a / b := by
    rw [← hq, Nat.shiftLeft_eq, Nat.cast_mul, Nat.cast_pow, Nat.cast_ofNat, mul_assoc, ← zpow_natCast,
      ← zpow_add₀ two_ne_zero]
    congr 2
    omega
  have h := bits_roundWithAccuracy (n := m <<< k) Nat.one_pos ha hb (by simpa using hvalue)
    (Or.inl (Nat.shiftLeft_pos_iff.2 hm)) (by omega)
  rwa [Nat.div_one, Nat.mod_one] at h

/-! ## Sums, quotients and counts -/

/-- A finite double without a sign, and its value. -/
def StandsFor (x : Float) (q : ℚ) : Prop := ∃ m e, value x = .finite false m e ∧ q = m * 2 ^ e

variable {x y : Float} {p q : ℚ} {a b : Nat}

theorem StandsFor.nonneg (h : StandsFor x p) : 0 ≤ p := by
  obtain ⟨m, e, -, rfl⟩ := h
  exact mul_nonneg (Nat.cast_nonneg m) (zpow_pos two_pos e).le

theorem standsFor_of_bits_lt (h : bits x < infinityBits) : ∃ q, StandsFor x q := by
  obtain ⟨m, e, hx⟩ := value_of_bits_lt h
  exact ⟨_, m, e, hx, rfl⟩

/-- A double is the nearest one to its value. -/
theorem StandsFor.bits_eq (h : StandsFor x p) (hb : 0 < b) (hp : p = a / b) : bits x = nearestBits a b := by
  obtain ⟨m, e, hx, rfl⟩ := h
  obtain ⟨hnormal, hbits, -⟩ := isNormal_of_value hx
  rw [hbits, nearestBits_of_div_eq hb hnormal hp.symm]

/-- A double is zero or what its mantissa counts. -/
theorem StandsFor.unpack_cases (h : StandsFor x p) :
    (x.toModel.unpack = .zero .positive ∧ p = 0) ∨
      ∃ m e, ∃ hm : 0 < m, x.toModel.unpack = .finite .positive m e hm ∧ IsNormal m e ∧ p = m * 2 ^ e := by
  obtain ⟨m, e, hx, rfl⟩ := h
  rw [unpack_of_value hx]
  by_cases hm : m = 0
  · rw [dif_pos hm]
    exact Or.inl ⟨rfl, by rw [hm, Nat.cast_zero, zero_mul]⟩
  · rw [dif_neg hm]
    exact Or.inr ⟨m, e, Nat.pos_of_ne_zero hm, rfl, (isNormal_of_value hx).1, rfl⟩

theorem eq_zero_of_div_eq_zero (hb : 0 < b) (h : (0 : ℚ) = a / b) : a = 0 := by
  exact_mod_cast (div_eq_zero_iff.1 h.symm).resolve_right (Nat.cast_ne_zero.2 hb.ne')

theorem pos_of_div_pos {r : ℚ} (hr : 0 < r) (h : r = a / b) : 0 < a := by
  refine Nat.pos_of_ne_zero fun hzero => ?_
  rw [h, hzero, Nat.cast_zero, zero_div] at hr
  exact lt_irrefl _ hr

theorem bits_pack_finite {m : Nat} (hm : 0 < m) (hnormal : IsNormal m e) (hb : 0 < b) (h : (m : ℚ) * 2 ^ e = a / b) :
    (Float.Model.pack (.finite .positive m e hm)).toBits.toNat = nearestBits a b := by
  rw [nearestBits_of_div_eq hb hnormal h.symm]
  exact toNat_pack_finite hm hnormal

theorem bits_normalize {k : Int} (hk : 0 ≤ k) (hb : 0 < b) (h : (k : ℚ) * 2 ^ e = a / b) :
    (Float.Model.pack (normalize Format.binary64 k e .positive)).toBits.toNat = nearestBits a b := by
  obtain ⟨k, rfl⟩ := Int.eq_ofNat_of_zero_le hk
  rw [Int.cast_natCast] at h
  unfold UnpackedFloat.normalize
  obtain rfl | hk := k.eq_zero_or_pos
  · obtain rfl : a = 0 := eq_zero_of_div_eq_zero hb (by simpa using h)
    rfl
  · rw [Int.compare_eq_gt.2 (by omega)]
    exact bits_round hk (pos_of_div_pos (mul_pos (Nat.cast_pos.2 hk) (zpow_pos two_pos e)) h) hb h

/-- Mantissas are added when they count the same power. -/
theorem decreaseExponent_value (m : Nat) {e t : Int} (ht : t ≤ e) :
    ((decreaseExponent m e t).1 : ℚ) * 2 ^ t = m * 2 ^ e := by
  change ((m <<< (e - t).toNat : Nat) : ℚ) * 2 ^ t = _
  rw [Nat.shiftLeft_eq, Nat.cast_mul, Nat.cast_pow, Nat.cast_ofNat, mul_assoc, ← zpow_natCast, ← zpow_add₀ two_ne_zero]
  congr 2
  omega

theorem bits_add (hx : StandsFor x p) (hy : StandsFor y q) (hb : 0 < b) (h : p + q = a / b) :
    bits (x + y) = nearestBits a b := by
  change (Float.Model.pack (UnpackedFloat.add Format.binary64 x.toModel.unpack y.toModel.unpack)).toBits.toNat = _
  rcases hx.unpack_cases with ⟨hux, rfl⟩ | ⟨m, e, hm, hux, hnx, rfl⟩ <;>
    rcases hy.unpack_cases with ⟨huy, rfl⟩ | ⟨m', e', hm', huy, hny, rfl⟩ <;> rw [hux, huy]
  · obtain rfl : a = 0 := eq_zero_of_div_eq_zero hb (by simpa using h)
    rfl
  · exact bits_pack_finite hm' hny hb (by simpa using h)
  · exact bits_pack_finite hm hnx hb (by simpa using h)
  · unfold UnpackedFloat.add
    dsimp only
    have hleft := decreaseExponent_value m (min_le_left e e')
    have hright := decreaseExponent_value m' (min_le_right e e')
    refine bits_normalize (add_nonneg (Int.natCast_nonneg _) (Int.natCast_nonneg _)) hb ?_
    rw [← h, ← hleft, ← hright, ← add_mul]
    exact congrArg (· * (2 : ℚ) ^ min e e') (Int.cast_add _ _)

/-- A difference that is not negative. -/
theorem bits_sub (hx : StandsFor x p) (hy : StandsFor y q) (hle : q ≤ p) (hb : 0 < b) (h : p - q = a / b) :
    bits (x - y) = nearestBits a b := by
  change (Float.Model.pack (UnpackedFloat.sub Format.binary64 x.toModel.unpack y.toModel.unpack)).toBits.toNat = _
  rcases hx.unpack_cases with ⟨hux, rfl⟩ | ⟨m, e, hm, hux, hnx, rfl⟩ <;>
    rcases hy.unpack_cases with ⟨huy, rfl⟩ | ⟨m', e', hm', huy, hny, rfl⟩ <;> rw [hux, huy]
  · obtain rfl : a = 0 := eq_zero_of_div_eq_zero hb (by simpa using h)
    rfl
  · exact absurd hle (mul_pos (Nat.cast_pos.2 hm') (zpow_pos two_pos e')).not_ge
  · exact bits_pack_finite hm hnx hb (by simpa using h)
  · unfold UnpackedFloat.sub
    dsimp only
    have hleft := decreaseExponent_value m (min_le_left e e')
    have hright := decreaseExponent_value m' (min_le_right e e')
    rw [← hleft, ← hright] at h hle
    have hle' := Nat.cast_le.1 (le_of_mul_le_mul_right hle (zpow_pos two_pos _))
    refine bits_normalize (sub_nonneg.2 (Int.ofNat_le.2 hle')) hb ?_
    rw [← h, ← sub_mul]
    exact congrArg (· * (2 : ℚ) ^ min e e') (Int.cast_sub _ _)

/-- A quotient lies above the power of two one below the difference of the exponents. -/
theorem pow_lt_div {m m' : Nat} (hm : 0 < m) (hm' : 0 < m') (e e' : Int) :
    (2 : ℚ) ^ ((m.log2 : Int) + e - (m'.log2 + 1 + e')) < m * 2 ^ e / (m' * 2 ^ e') := by
  have htwo : (2 : ℚ) ≠ 0 := two_ne_zero
  rw [lt_div_iff₀ (mul_pos (Nat.cast_pos.2 hm') (zpow_pos two_pos e'))]
  calc (2 : ℚ) ^ ((m.log2 : Int) + e - (m'.log2 + 1 + e')) * (m' * 2 ^ e')
      < 2 ^ ((m.log2 : Int) + e - (m'.log2 + 1 + e')) * (2 ^ ((m'.log2 : Int) + 1) * 2 ^ e') :=
        mul_lt_mul_of_pos_left (mul_lt_mul_of_pos_right (lt_pow_log2 m') (zpow_pos two_pos e')) (zpow_pos two_pos _)
    _ = 2 ^ (m.log2 : Int) * 2 ^ e := by
        rw [← zpow_add₀ htwo, ← zpow_add₀ htwo, ← zpow_add₀ htwo]
        congr 1
        omega
    _ ≤ m * 2 ^ e := mul_le_mul_of_nonneg_right (pow_log2_le hm) (zpow_pos two_pos e).le

/-- The dividend is shifted by what the exponents differ. -/
theorem shiftLeft_div_mul (m m' k : Nat) {e e' t : Int} (hk : (k : Int) + t = e - e') :
    ((m <<< k : Nat) / m' : ℚ) * 2 ^ t = m * 2 ^ e / (m' * 2 ^ e') := by
  have hpow : (2 : ℚ) ^ k * 2 ^ t = 2 ^ e / 2 ^ e' := by
    rw [← zpow_natCast, ← zpow_add₀ two_ne_zero, ← zpow_sub₀ two_ne_zero, hk]
  rw [Nat.shiftLeft_eq, Nat.cast_mul, Nat.cast_pow, Nat.cast_ofNat, div_mul_eq_mul_div, mul_assoc, hpow,
    mul_div_mul_comm, mul_div_assoc, div_div, mul_comm (2 ^ e' : ℚ)]
  field_simp

/-- The quotient of two mantissas has bits enough, or is as fine as doubles get. -/
theorem bits_divCore {m m' : Nat} {e e' : Int} (hm : 0 < m) (hm' : 0 < m') (ha : 0 < a) (hb : 0 < b)
    (h : (m : ℚ) * 2 ^ e / (m' * 2 ^ e') = a / b) :
    (Float.Model.pack (roundWithAccuracy Format.binary64 .positive (divCore Format.binary64 m e m' e').1
      (divCore Format.binary64 m e m' e').2.1 (divCore Format.binary64 m e m' e').2.2)).toBits.toNat = nearestBits a b := by
  have hlower := h ▸ pow_lt_div hm hm' e e'
  have hunit := isUnit_unitExponent ha hb
  have hleast := hunit.least
  -- the exponent at which the division is done
  have htarget : ∃ t, t ≤ e - e' ∧ t ≤ unitExponent a b ∧
      (t ≤ -1022 ∨ t + 52 ≤ (m.log2 : Int) + e - (m'.log2 + 1 + e')) ∧
      divCore Format.binary64 m e m' e' =
        ((m <<< (e - e' - t).toNat) / m', t, accuracyOfFraction ((m <<< (e - e' - t).toNat) % m') m') := by
    refine ⟨min (e - e') (max ((m.log2 : Int) + 1 + e - (m'.log2 + 1 + e') - 53) leastExponent), min_le_left _ _, ?_, ?_,
      rfl⟩
    · refine (min_le_right _ _).trans (max_le ?_ hleast)
      have hexp := (zpow_lt_zpow_iff_right₀ (one_lt_two (α := ℚ))).1 (hlower.trans hunit.lt)
      omega
    · unfold leastExponent
      omega
  obtain ⟨t, hte, htu, hfine, hcore⟩ := htarget
  rw [hcore]
  dsimp only
  have hvalue := (shiftLeft_div_mul m m' (e - e' - t).toNat (t := t) (by omega)).trans h
  refine bits_roundWithAccuracy hm' ha hb hvalue (hfine.symm.imp_left fun hbits => ?_) htu
  have hone : (1 : ℚ) ≤ (m <<< (e - e' - t).toNat : Nat) / m' := by
    have hlt : (1 : ℚ) * 2 ^ t < (m <<< (e - e' - t).toNat : Nat) / m' * 2 ^ t := by
      rw [hvalue, one_mul]
      exact (zpow_le_zpow_right₀ one_le_two (by omega)).trans_lt hlower
    exact (lt_of_mul_lt_mul_right hlt (zpow_pos two_pos t).le).le
  rw [one_le_div (Nat.cast_pos.2 hm')] at hone
  exact_mod_cast hone

theorem bits_div (hx : StandsFor x p) (hy : StandsFor y q) (hq : 0 < q) (hb : 0 < b) (h : p / q = a / b) :
    bits (x / y) = nearestBits a b := by
  change (Float.Model.pack (UnpackedFloat.div Format.binary64 x.toModel.unpack y.toModel.unpack)).toBits.toNat = _
  rcases hy.unpack_cases with ⟨-, rfl⟩ | ⟨m', e', hm', huy, -, rfl⟩
  · exact absurd hq (lt_irrefl _)
  rcases hx.unpack_cases with ⟨hux, rfl⟩ | ⟨m, e, hm, hux, -, rfl⟩ <;> rw [hux, huy]
  · obtain rfl : a = 0 := eq_zero_of_div_eq_zero hb (by simpa using h)
    rfl
  · have hpos : (0 : ℚ) < m * 2 ^ e := mul_pos (Nat.cast_pos.2 hm) (zpow_pos two_pos e)
    exact bits_divCore hm hm' (pos_of_div_pos (div_pos hpos hq) h) hb h

/-- A product whose power does not exceed the one that doubles next to it count. -/
theorem bits_mul_finite {m m' : Nat} {e e' : Int} (hm : 0 < m) (hm' : 0 < m') (ha : 0 < a) (hb : 0 < b)
    (hq : (m : ℚ) * 2 ^ e * (m' * 2 ^ e') = a / b) (he : e + e' ≤ unitExponent a b) :
    (Float.Model.pack (UnpackedFloat.mul Format.binary64 (.finite .positive m e hm)
      (.finite .positive m' e' hm'))).toBits.toNat = nearestBits a b := by
  have hpos : 0 < m * m' := Nat.mul_pos hm hm'
  have hvalue : ((m * m' : Nat) : ℚ) * 2 ^ (e + e') = a / b := by
    rw [← hq, Nat.cast_mul, zpow_add₀ two_ne_zero, mul_mul_mul_comm]
  have h := bits_roundWithAccuracy (n := m * m') Nat.one_pos ha hb (by simpa using hvalue) (Or.inl hpos) he
  rw [Nat.div_one, Nat.mod_one] at h
  exact h

/-- The double one, as conversions multiply by it. -/
theorem bits_mul_one (h : bits x < infinityBits) : bits (x * Float.ofBits 0x3FF0000000000000) = bits x := by
  have hone : (Float.ofBits 0x3FF0000000000000).toModel.unpack = .finite .positive leadingBit (-52) (by decide) := rfl
  change (Float.Model.pack (UnpackedFloat.mul Format.binary64 x.toModel.unpack
    (Float.ofBits 0x3FF0000000000000).toModel.unpack)).toBits.toNat = _
  rw [hone]
  obtain ⟨m, e, hvalue⟩ := value_of_bits_lt h
  obtain ⟨hnormal, hbits, -⟩ := isNormal_of_value hvalue
  rw [unpack_of_value hvalue, hbits, ← nearestBits_quotient hnormal]
  have hdiv := div_quotient m e
  by_cases hm : m = 0
  · subst hm
    rw [Nat.cast_zero, zero_mul] at hdiv
    rw [dif_pos rfl, eq_zero_of_div_eq_zero (quotient_pos 0 e) hdiv.symm, nearestBits_zero]
    rfl
  · have hmpos := Nat.pos_of_ne_zero hm
    have hpos : 0 < (quotient m e).1 :=
      pos_of_div_pos (mul_pos (Nat.cast_pos.2 hmpos) (zpow_pos two_pos e)) hdiv.symm
    have hvalue' : (m : ℚ) * 2 ^ e * (leadingBit * 2 ^ (-52 : Int)) = (quotient m e).1 / (quotient m e).2 := by
      have hleading : ((leadingBit : Nat) : ℚ) * 2 ^ (-52 : Int) = 1 := by norm_num [leadingBit]
      rw [hdiv, hleading, mul_one]
    have hunit := (isUnit_unitExponent hpos (quotient_pos m e)).unique (hdiv ▸ hnormal.isUnit)
    rw [dif_neg hm]
    exact bits_mul_finite hmpos (by decide) hpos (quotient_pos m e) hvalue' (by omega)

theorem bits_toFloat (k : UInt64) : bits k.toFloat = nearestBits k.toNat 1 := by
  change (Float.Model.pack (normalize Format.binary64 (k.toNat : Int) 0 .positive)).toBits.toNat = _
  exact bits_normalize (Int.natCast_nonneg _) Nat.one_pos (by simp)

theorem nearestBits_two_pow_lt : nearestBits (2 ^ 53) 1 < infinityBits := by decide

/-- A count is converted to the nearest double: one of less than 53 bits by a multiplication by one, and all others digit
by digit. -/
theorem bits_natCast (n : Nat) : bits (n : Float) = nearestBits n 1 := by
  change bits (Float.ofScientific n false 0) = _
  unfold Float.ofScientific
  split
  · next h =>
    have hn : n.toUInt64.toNat = n := Nat.mod_eq_of_lt (h.1.trans (by decide))
    have hbits := bits_toFloat n.toUInt64
    rw [hn] at hbits
    have hlt : nearestBits n 1 < infinityBits := by
      have hle : nearestBits n 1 ≤ nearestBits (2 ^ 53) 1 :=
        nearestBits_le_of_div_le Nat.one_pos Nat.one_pos ((div_le_div_iff_mul_le Nat.one_pos Nat.one_pos).2 (by omega))
      exact hle.trans_lt nearestBits_two_pow_lt
    have hmul := bits_mul_one (hbits ▸ hlt)
    rw [hbits] at hmul
    exact hmul
  · next h =>
    -- the digits are shifted up by 53 bits, and down again when they are cut
    have hlarge : 2 ^ 53 ≤ n := by omega
    have hpos : 0 < n := by omega
    have hlow : ¬ (0 : Int) < -((2 ^ Format.binary64.exponentBits : Int) + n.log2) := by
      have hpow : (0 : Int) < 2 ^ Format.binary64.exponentBits := by decide
      omega
    change (Float.Model.pack (UnpackedFloat.ofScientific Format.binary64 n 0)).toBits.toNat = _
    unfold UnpackedFloat.ofScientific
    rw [dif_neg hpos.ne', if_neg (by decide), if_neg hlow, if_pos le_rfl]
    have hunit := isUnit_unitExponent hpos Nat.one_pos
    have hexp : -53 ≤ unitExponent n 1 := by
      have hone : (2 : ℚ) ^ (0 : Int) < 2 ^ (unitExponent n 1 + 53) := by
        refine lt_of_le_of_lt ?_ hunit.lt
        rw [zpow_zero, Nat.cast_one, div_one]
        exact_mod_cast hpos
      have hexp := (zpow_lt_zpow_iff_right₀ (one_lt_two (α := ℚ))).1 hone
      omega
    refine bits_mul_finite _ _ hpos Nat.one_pos ?_ (by rw [Int.add_zero]; exact hexp)
    have hshift : ((n <<< 53 : Nat) : ℚ) * 2 ^ (-53 : Int) = n := by
      have hone : ((2 ^ 53 : Nat) : ℚ) * 2 ^ (-53 : Int) = 1 := by norm_num
      rw [Nat.shiftLeft_eq, Nat.cast_mul, mul_assoc, hone, mul_one]
    change ((n <<< 53 : Nat) : ℚ) * 2 ^ (-53 : Int) * ((1 : Nat) * 2 ^ (0 : Int)) = _
    rw [hshift, Nat.cast_one, zpow_zero, mul_one, mul_one, div_one]

end CouplingTree.Doubles
