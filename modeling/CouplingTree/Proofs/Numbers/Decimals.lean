import CouplingTree.Numbers.Decimal
import CouplingTree.Proofs.Numbers.Accuracy
import CouplingTree.Proofs.Numbers.Bits

/-!
# Decimals as doubles

* `Decimal.toDouble_eq` : a decimal is read as the double nearest to it, also where it is not multiplied out.
* `Decimal.toDouble_congr` : so it is only what a decimal stands for that counts.
* `Decimal.toDouble_shortest` : the shortest digits of a double are read as this double.
-/

namespace CouplingTree

open Binary64

namespace Binary64

variable {a b c d : Nat} {negative : Bool}

theorem nearest_congr (h : nearestBits a b = nearestBits c d) : nearest negative a b = nearest negative c d := by
  rw [nearest, nearest, h]

theorem bits_nearest_false (a b : Nat) : (nearest false a b).toBits.toNat = nearestBits a b := by
  rcases (nearestBits_le_infinityBits a b).lt_or_eq with h | h
  · exact Doubles.bits_nearest h
  · rw [nearest, h]
    rfl

end Binary64

namespace Decimal

variable {d d' : Decimal} {negative : Bool}

/-! ## What a decimal stands for -/

/-- The number that a decimal stands for. -/
def value (d : Decimal) : ℚ := d.digits * 10 ^ d.exponent

theorem cast_tenTo (n : Nat) : (tenTo n : ℚ) = 10 ^ n := Nat.cast_pow 10 n

theorem div_quotient (d : Decimal) : (d.quotient.1 : ℚ) / d.quotient.2 = d.value := by
  have hpow : (10 : ℚ) ^ d.exponent = 10 ^ d.exponent.toNat / 10 ^ (-d.exponent).toNat := by
    rw [← zpow_natCast, ← zpow_natCast, ← zpow_sub₀ (by norm_num)]
    congr 1
    omega
  change ((d.digits * tenTo d.exponent.toNat : Nat) : ℚ) / ((1 * tenTo (-d.exponent).toNat : Nat) : ℚ) = _
  rw [Nat.one_mul, Nat.cast_mul, cast_tenTo, cast_tenTo, value, hpow, mul_div_assoc]

theorem quotient_pos (d : Decimal) : 0 < d.quotient.2 := Nat.mul_pos one_pos (Doubles.tenTo_pos _)

theorem nearestBits_quotient_congr (h : d.value = d'.value) :
    nearestBits d.quotient.1 d.quotient.2 = nearestBits d'.quotient.1 d'.quotient.2 :=
  nearestBits_congr d.quotient_pos d'.quotient_pos (by rw [div_quotient, div_quotient, h])

/-! ## Reading -/

/-- Eight is less than ten. -/
theorem digits_lt (n : Nat) : (n : ℚ) < 10 ^ (n.log2 / 3 + 1) := by
  rcases n.eq_zero_or_pos with rfl | hn
  · norm_num
  have hlog : n < 2 ^ (n.log2 + 1) := Nat.lt_log2_self
  have hpow : 2 ^ (n.log2 + 1) ≤ 10 ^ (n.log2 / 3 + 1) :=
    calc 2 ^ (n.log2 + 1) ≤ 2 ^ (3 * (n.log2 / 3 + 1)) := Nat.pow_le_pow_right (by norm_num) (by omega)
      _ = 8 ^ (n.log2 / 3 + 1) := Nat.pow_mul 2 3 _
      _ ≤ 10 ^ (n.log2 / 3 + 1) := Nat.pow_le_pow_left (by norm_num) _
  exact_mod_cast hlog.trans_le hpow

theorem tenTo_lt_tenTo {m n : Nat} (h : m < n) : tenTo m < tenTo n := Nat.pow_lt_pow_right (by decide) h

theorem twoTo_le_tenTo (n : Nat) : twoTo (33 * n) ≤ tenTo (10 * n) :=
  calc twoTo (33 * n) = (2 ^ 33) ^ n := Nat.pow_mul 2 33 n
    _ ≤ (10 ^ 10) ^ n := Nat.pow_le_pow_left (by decide) n
    _ = tenTo (10 * n) := (Nat.pow_mul 10 10 n).symm

/-- The power of ten is past the range of the doubles. -/
theorem twoTo_lt_tenTo : twoTo 1075 < tenTo 331 :=
  calc twoTo 1075 ≤ twoTo (33 * 33) := twoTo_mono (by decide)
    _ ≤ tenTo (10 * 33) := twoTo_le_tenTo 33
    _ < tenTo 331 := tenTo_lt_tenTo (by decide)

theorem nearestBits_tiny (h : d.exponent + (d.digits.log2 / 3 + 1 : Nat) < -330) :
    nearestBits d.quotient.1 d.quotient.2 = 0 := by
  have hvalue : d.value ≤ (1 : Nat) / (tenTo 331 : Nat) := by
    have hten : (0 : ℚ) < 10 := by norm_num
    calc d.value ≤ 10 ^ (d.digits.log2 / 3 + 1) * 10 ^ d.exponent :=
          mul_le_mul_of_nonneg_right (digits_lt _).le (zpow_pos hten _).le
      _ = 10 ^ (d.exponent + (d.digits.log2 / 3 + 1 : Nat)) := by
          rw [← zpow_natCast, ← zpow_add₀ hten.ne', add_comm]
      _ ≤ 10 ^ (-(331 : Nat) : Int) := zpow_le_zpow_right₀ (by norm_num) (by omega)
      _ = (1 : Nat) / (tenTo 331 : Nat) := by rw [cast_tenTo, zpow_neg, zpow_natCast, Nat.cast_one, one_div]
  have hle := (div_le_div_iff_mul_le d.quotient_pos (Doubles.tenTo_pos 331)).1 (d.div_quotient.trans_le hvalue)
  obtain hn | hn := d.quotient.1.eq_zero_or_pos
  · rw [hn, nearestBits_zero]
  refine nearestBits_eq_zero (Nat.lt_of_lt_of_le ?_ (hle.trans_eq (Nat.one_mul _)))
  have htwo : twoTo 1 = 2 := rfl
  rw [Nat.mul_left_comm, ← htwo, ← twoTo_add]
  exact Nat.mul_lt_mul_of_pos_left twoTo_lt_tenTo hn

theorem nearestBits_huge (hdigits : d.digits ≠ 0) (h : 330 < d.exponent) :
    nearestBits d.quotient.1 d.quotient.2 = infinityBits := by
  have hvalue : ((tenTo 331 : Nat) : ℚ) / (1 : Nat) ≤ d.value := by
    have hone : (1 : ℚ) ≤ d.digits := by exact_mod_cast Nat.pos_of_ne_zero hdigits
    rw [Nat.cast_one, div_one, cast_tenTo, ← zpow_natCast]
    calc (10 : ℚ) ^ ((331 : Nat) : Int) ≤ 10 ^ d.exponent := zpow_le_zpow_right₀ (by norm_num) (by omega)
      _ ≤ d.digits * 10 ^ d.exponent := le_mul_of_one_le_left (zpow_pos (by norm_num) _).le hone
  have hle := (div_le_div_iff_mul_le one_pos d.quotient_pos).1 (hvalue.trans_eq d.div_quotient.symm)
  have hbound : overflowBound ≤ tenTo 331 :=
    overflowBound_le.trans ((twoTo_mono (by decide)).trans twoTo_lt_tenTo.le)
  have hlarge : overflowBound * d.quotient.2 ≤ d.quotient.1 :=
    (Nat.mul_le_mul_right _ hbound).trans (hle.trans_eq (Nat.mul_one _))
  refine le_antisymm (nearestBits_le_infinityBits _ _) (Nat.le_of_not_lt fun hfinite => ?_)
  exact Nat.not_lt.2 hlarge ((nearestBits_lt_infinityBits_iff _ d.quotient_pos).1 hfinite)

/-- A decimal is read as the nearest double, also where it is far outside their range. -/
theorem toDouble_eq (negative : Bool) (d : Decimal) :
    d.toDouble negative = nearest negative d.quotient.1 d.quotient.2 := by
  unfold toDouble
  split
  · next h =>
    refine nearest_congr ?_
    rw [nearestBits_zero]
    rcases h with h | h
    · have hzero : d.quotient.1 = 0 := by
        change d.digits * _ = 0
        rw [h, Nat.zero_mul]
      rw [hzero, nearestBits_zero]
    · exact (nearestBits_tiny h).symm
  · next h =>
    rw [not_or] at h
    split
    · next hlarge => rw [nearest, nearestBits_huge h.1 hlarge, infinity]
    · rfl

theorem toDouble_congr (h : d.value = d'.value) : d.toDouble negative = d'.toDouble negative := by
  rw [toDouble_eq, toDouble_eq, nearest_congr (nearestBits_quotient_congr h)]

/-! ## Shortest digits -/

theorem value_exact (m : Nat) (e : Int) : (exact m e).value = m * 2 ^ e := by
  have hfive : (m * twoTo e.toNat * Nat.pow 5 (-e).toNat : Nat) = (m : ℚ) * 2 ^ e.toNat * 5 ^ (-e).toNat := by
    rw [Nat.cast_mul, Nat.cast_mul, cast_twoTo]
    congr 1
    exact Nat.cast_pow 5 _
  change ((m * twoTo e.toNat * Nat.pow 5 (-e).toNat : Nat) : ℚ) * 10 ^ min e 0 = _
  rw [hfive]
  rcases le_total 0 e with he | he
  · obtain ⟨k, rfl⟩ := Int.eq_ofNat_of_zero_le he
    simp
  · obtain ⟨k, hk⟩ := Int.eq_ofNat_of_zero_le (Int.neg_nonneg_of_nonpos he)
    obtain rfl : e = -(k : Int) := by omega
    have hten : (10 : ℚ) ^ k = 2 ^ k * 5 ^ k := by rw [← mul_pow]; norm_num
    rw [min_eq_left he, zpow_neg, zpow_neg, zpow_natCast, zpow_natCast, hten]
    field_simp
    simp

/-- The shortest digits are read as the double that they are meant for. -/
theorem toDouble_shortest (negative : Bool) (m : Nat) (e : Int) :
    (shortest m e).toDouble negative = nearest negative (Binary64.quotient m e).1 (Binary64.quotient m e).2 := by
  have hbits : nearestBits (shortest m e).quotient.1 (shortest m e).quotient.2 =
      nearestBits (Binary64.quotient m e).1 (Binary64.quotient m e).2 := by
    unfold shortest
    dsimp only
    cases hfound : (List.range 17).findSome? _ with
    | none =>
      refine nearestBits_congr (quotient_pos _) (Binary64.quotient_pos m e) ?_
      rw [div_quotient, Binary64.div_quotient]
      exact value_exact m e
    | some d =>
      obtain ⟨k, -, hk⟩ := List.exists_of_findSome?_eq_some hfound
      have hd := List.find?_some hk
      rw [decide_eq_true_eq, toDouble_eq, bits_nearest_false] at hd
      exact hd
  rw [toDouble_eq, nearest_congr hbits]

theorem shortest_digits_pos {m : Nat} {e : Int} (h : nearestBits (Binary64.quotient m e).1 (Binary64.quotient m e).2 ≠ 0) :
    0 < (shortest m e).digits := by
  refine Nat.pos_of_ne_zero fun hzero => h ?_
  have hread := toDouble_shortest false m e
  rw [toDouble, if_pos (Or.inl hzero)] at hread
  rw [← bits_nearest_false, ← hread, bits_nearest_false, nearestBits_zero]

end Decimal

end CouplingTree
