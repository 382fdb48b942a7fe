import CouplingTree.Proofs.Numbers.Fractions

/-!
# A double is its bits

A double is made again of its bits, so that what `Binary64.value` tells of it tells which one it is: the nearest double to
what it stands for, an infinity, or the one that is no number.

* `Doubles.pack_unpack` : valid bits are packed again from what they are unpacked to.
* `Doubles.ofBits_bits` : a double is made again of its bits.
* `Doubles.eq_nearest_of_value`, `Doubles.eq_infinity_of_value`, `Doubles.eq_notANumber_of_value` : which double it is.
* `Doubles.lt_zero_iff_of_finite`, `Doubles.infinity_lt_zero_iff` : which doubles are below zero.
* `Doubles.isFinite_of_le` : hence doubles from zero to one are finite.
-/

namespace CouplingTree.Doubles

open Float.Model UnpackedFloat Binary64

/-! ## Packing -/

section Packing

variable {b : BitVec Format.binary64.numBits} {exponent : BitVec Format.binary64.exponentBits}
  {mantissa : BitVec Format.binary64.mantissaBitsWithoutImplicit}

theorem toBitVec_ofBitVec (s : BitVec 1) : (Sign.ofBitVec s).toBitVec = s := by
  have key : ∀ t : BitVec 1, (Sign.ofBitVec t).toBitVec = t := by decide
  exact key s

/-- Sign, exponent and mantissa are all the bits. -/
theorem packComponents_eq (he : unpackExponent b = exponent) (hm : unpackMantissa b = mantissa) :
    packComponents Format.binary64 (Sign.ofBitVec (unpackSign b)) exponent mantissa = b := by
  subst he hm
  unfold unpackSign
  simp only [packComponents, toBitVec_ofBitVec, unpackExponent, unpackMantissa, BitVec.extractLsb]
  ext i hi
  grind

theorem pack_subnormal (he : unpackExponent b = 0#_) (hm : 0 < (unpackMantissa b).toNat) :
    UnpackedFloat.pack Format.binary64 (.finite (Sign.ofBitVec (unpackSign b)) (unpackMantissa b).toNat (-1074) hm) = b := by
  have hlog : ¬(unpackMantissa b).toNat.log2 + 1 = Format.binary64.mantissaBits := by
    have hlt : (unpackMantissa b).toNat.log2 < 52 := (Nat.log2_lt hm.ne').2 (unpackMantissa b).isLt
    intro h
    have h' : (unpackMantissa b).toNat.log2 + 1 = 53 := h
    omega
  unfold UnpackedFloat.pack
  rw [if_neg (by decide), if_neg hlog]
  refine packComponents_eq he ?_
  rw [BitVec.ofNat_toNat, BitVec.setWidth_eq]

theorem pack_normal (hlarge : unpackExponent b ≠ -1#_) (hm : 0 < (1#1 ++ unpackMantissa b).toNat) :
    UnpackedFloat.pack Format.binary64 (.finite (Sign.ofBitVec (unpackSign b)) (1#1 ++ unpackMantissa b).toNat
      ((unpackExponent b).toNat - 1075) hm) = b := by
  have hmantissa : (1#1 ++ unpackMantissa b).toNat = 2 ^ 52 + (unpackMantissa b).toNat := by
    rw [BitVec.toNat_append, ← Nat.shiftLeft_add_eq_or_of_lt (unpackMantissa b).isLt]
    rfl
  have hlt : (unpackMantissa b).toNat < 2 ^ 52 := (unpackMantissa b).isLt
  have hexponent : (unpackExponent b).toNat < 2047 := by
    have hne : (unpackExponent b).toNat ≠ 2047 := fun h => hlarge (BitVec.eq_of_toNat_eq h)
    have hbound : (unpackExponent b).toNat < 2048 := (unpackExponent b).isLt
    omega
  have hbiased : ((((unpackExponent b).toNat : Int) - 1075) + Format.binary64.exponentBias +
      Format.binary64.mantissaBitsWithoutImplicit).toNat = (unpackExponent b).toNat := by
    change ((((unpackExponent b).toNat : Int) - 1075) + 1023 + 52).toNat = _
    omega
  have hlog : (1#1 ++ unpackMantissa b).toNat.log2 + 1 = Format.binary64.mantissaBits := by
    have hle : 52 ≤ (1#1 ++ unpackMantissa b).toNat.log2 := (Nat.le_log2 hm.ne').2 (by omega)
    have hlt : (1#1 ++ unpackMantissa b).toNat.log2 < 53 := (Nat.log2_lt hm.ne').2 (by omega)
    change _ = 53
    omega
  unfold UnpackedFloat.pack
  rw [hbiased]
  rw [if_neg (by change ¬2048 ≤ _; omega), if_pos hlog]
  refine packComponents_eq ?_ ?_
  · rw [BitVec.ofNat_toNat, BitVec.setWidth_eq]
  · apply BitVec.eq_of_toNat_eq
    rw [BitVec.toNat_ofNat, hmantissa]
    change _ = _ % 2 ^ 52
    omega

/-- Valid bits are packed again from what they are unpacked to. -/
theorem pack_unpack (h : Format.binary64.Valid b) :
    UnpackedFloat.pack Format.binary64 (UnpackedFloat.unpack Format.binary64 b) = b := by
  unfold UnpackedFloat.unpack
  dsimp only
  by_cases hlarge : unpackExponent b = -1#_
  · rw [if_pos hlarge]
    by_cases hm : unpackMantissa b = 0#_
    · rw [if_pos hm]
      exact packComponents_eq hlarge hm
    · rw [if_neg hm]
      exact (h.eq_packedNaN hlarge hm).symm
  rw [if_neg hlarge]
  by_cases he : unpackExponent b = 0#_
  · rw [if_pos he]
    by_cases hm : unpackMantissa b = 0#_
    · rw [dif_pos hm]
      exact packComponents_eq he hm
    · rw [dif_neg hm, he]
      exact pack_subnormal he _
  · rw [if_neg he]
    exact pack_normal hlarge _

end Packing

/-! ## Which double it is -/

variable {x : Float} {e : Int} {m : Nat} {negative : Bool}

theorem ofBits_bits (x : Float) : Float.ofBits (UInt64.ofNat (bits x)) = x := by
  refine eq_of_bits_eq ?_
  have hx : UInt64.ofNat (bits x) = x.toModel.toBits := UInt64.ofNat_toNat
  rw [hx]
  have hbits := pack_unpack x.toModel.valid
  exact congrArg BitVec.toNat hbits

theorem eq_nearest_of_value (h : value x = .finite negative m e) : x = nearest negative (quotient m e).1 (quotient m e).2 := by
  obtain ⟨hnormal, hbits, -⟩ := bits_of_value h
  rw [nearest, nearestBits_quotient hnormal, ← hbits, ofBits_bits]

theorem eq_infinity_of_value (h : value x = .infinity negative) : x = Binary64.infinity negative := by
  have hbits : bits x = infinityBits + if negative then signBit else 0 := by
    have hsign := signPart_eq (bits_lt x)
    rw [value_eq] at h
    generalize bits x = b at h hsign ⊢
    split at h
    · split at h
      · injection h with hnegative
        rw [← hnegative, hsign]
        simp only [infinityBits, leadingBit, signBit] at *
        omega
      · cases h
    · split at h <;> cases h
  rw [Binary64.infinity, ← hbits, ofBits_bits]

/-- All valid bits that stand for no number are the same. -/
theorem eq_notANumber_of_value (h : value x = .nan) : x = Binary64.notANumber := by
  have hparts : bits x / leadingBit % 2048 = 2047 ∧ bits x % leadingBit ≠ 0 := by
    rw [value_eq] at h
    split at h
    · next he =>
      split at h
      · cases h
      · next hm => exact ⟨he, hm⟩
    · split at h <;> cases h
  have hexponent : @unpackExponent Format.binary64 x.toBits.toBitVec = -1#_ := by
    apply BitVec.eq_of_toNat_eq
    rw [toNat_unpackExponent]
    exact hparts.1
  have hmantissa : @unpackMantissa Format.binary64 x.toBits.toBitVec ≠ 0#_ := fun hzero => by
    have hnat := congrArg BitVec.toNat hzero
    rw [toNat_unpackMantissa] at hnat
    exact hparts.2 hnat
  have hbits : x.toBits.toBitVec = packedNaN Format.binary64 := x.toModel.valid.eq_packedNaN hexponent hmantissa
  refine eq_of_bits_eq ?_
  change x.toBits.toBitVec.toNat = _
  rw [hbits]
  decide

/-! ## Below zero -/

theorem unpackSign_of_le {b : BitVec 64} (h : signBit ≤ b.toNat) : @unpackSign Format.binary64 b = 1#1 := by
  apply BitVec.eq_of_toNat_eq
  unfold unpackSign
  rw [BitVec.toNat_cast, BitVec.extractLsb_toNat, Nat.shiftRight_eq_div_pow]
  change b.toNat / signBit % 2 = 1
  have hb := b.isLt
  simp only [signBit] at *
  omega

theorem rank?_of_negative (h : value x = .finite true m e) (hm : m ≠ 0) : ∃ e' m', rank? x = some (.of (-1) e' m') := by
  have hexponent : ∀ {c : BitVec 11}, @unpackExponent Format.binary64 x.toBits.toBitVec = c →
      bits x / leadingBit % 2048 = c.toNat := fun hc => by
    rw [← hc, toNat_unpackExponent]
    rfl
  have hmantissa : @unpackMantissa Format.binary64 x.toBits.toBitVec = 0#_ → bits x % leadingBit = 0 := fun hzero => by
    have hnat := toNat_unpackMantissa x.toBits.toBitVec
    rw [hzero] at hnat
    exact hnat.symm
  rw [value_eq] at h
  split at h
  · split at h <;> cases h
  next hfinite =>
  have hsign : signBit ≤ bits x := by
    split at h <;> (injection h with hsign; exact of_decide_eq_true hsign)
  change ∃ e' m', rankOf? (UnpackedFloat.unpack Format.binary64 x.toBits.toBitVec) = _
  unfold UnpackedFloat.unpack
  dsimp only
  rw [unpackSign_of_le hsign, if_neg fun hc => hfinite ((hexponent hc).trans rfl)]
  by_cases hzero : @unpackExponent Format.binary64 x.toBits.toBitVec = 0#_
  · have hfield : bits x / leadingBit % 2048 = 0 := hexponent hzero
    rw [if_pos hfield] at h
    injection h with _ hmantissa'
    rw [if_pos hzero, dif_neg fun hc => hm (hmantissa'.symm.trans (hmantissa hc))]
    exact ⟨_, _, rfl⟩
  · rw [if_neg hzero]
    exact ⟨_, _, rfl⟩

/-- A finite double that is no zero is below zero when it has the sign. -/
theorem lt_zero_iff_of_finite (h : value x = .finite negative m e) (hm : m ≠ 0) : x < 0 ↔ negative = true := by
  cases negative with
  | false =>
    obtain ⟨-, -, hlt⟩ := isNormal_of_value h
    exact iff_of_false (not_lt_zero hlt.le) Bool.false_ne_true
  | true =>
    obtain ⟨e', m', hrank⟩ := rank?_of_negative h hm
    have hbelow : Rank.of (-1) e' m' < .of 0 0 0 := by
      rw [Rank.of, Rank.of, Prod.Lex.toLex_lt_toLex]
      exact .inl neg_one_lt_zero
    exact iff_of_true (lt_iff.2 ⟨_, _, hrank, rank?_zero, hbelow⟩) rfl

theorem infinity_lt_zero_iff : Binary64.infinity negative < 0 ↔ negative = true := by
  cases negative
  · exact iff_of_false (by decide) Bool.false_ne_true
  · exact iff_of_true (by decide) rfl

/-! ## Between two numbers -/

/-- What lies between two numbers is a number. -/
theorem isFinite_of_le (hleast : 0 ≤ x) (hgreatest : x ≤ 1) : Binary64.isFinite x = true := by
  cases hx : value x with
  | finite negative m e =>
    unfold Binary64.isFinite toRat?
    rw [hx]
    rfl
  | infinity negative =>
    rw [eq_infinity_of_value hx] at hleast hgreatest
    cases negative
    · exact absurd hgreatest (by decide)
    · exact absurd hleast (by decide)
  | nan =>
    rw [eq_notANumber_of_value hx] at hleast
    exact absurd hleast (by decide)

end CouplingTree.Doubles
