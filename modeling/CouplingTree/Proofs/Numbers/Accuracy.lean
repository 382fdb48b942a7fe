import CouplingTree.Proofs.Numbers.Fractions

/-!
# How far rounding goes

Up to one, neighbouring doubles are at most `2 ^ -53` apart from what lies between them, so that rounding a fraction to a
double, and to decimal places, stays close to it.

* `abs_roundDiv_sub_le` : the nearest natural number is at most a half away.
* `Doubles.standsFor_nearest` : the value of the double nearest to a quotient.
* `Doubles.nearest_close` : up to one it is at most `2 ^ -53` away.
* `Doubles.toPlaces_close`, `Doubles.ratio?_close` : rounding to decimal places adds half a unit of the last place.
* `Binary64.nearestBits_lt_infinityBits_iff`, `Binary64.nearestBits_eq_zero` : which quotients are too large and too small.
* `Binary64.isSome_ratio?_iff` : what is half way to the power of two after the largest double, or beyond, is no double.
-/

namespace CouplingTree

/-- The nearest natural number is at most a half away. -/
theorem abs_roundDiv_sub_le (n : Nat) {d : Nat} (hd : 0 < d) : |(roundDiv n d : ℚ) - n / d| ≤ 1 / 2 := by
  have hdpos : (0 : ℚ) < d := Nat.cast_pos.2 hd
  have hn : (n / d : ℚ) * d = n := div_mul_cancel₀ _ hdpos.ne'
  have hupper : (2 : ℚ) * (roundDiv n d * d) ≤ 2 * n + d := by exact_mod_cast roundDiv_le n (d := d)
  have hlower : (2 : ℚ) * n ≤ 2 * (roundDiv n d * d) + d := by exact_mod_cast le_roundDiv n hd
  rw [abs_le]
  constructor
  · refine le_of_mul_le_mul_right ?_ hdpos
    rw [sub_mul, hn]
    linarith
  · refine le_of_mul_le_mul_right ?_ hdpos
    rw [sub_mul, hn]
    linarith

namespace Doubles

open Binary64

variable {x : Float} {q : ℚ} {n d : Nat} {e : Int}

/-- The double nearest to a quotient counts the power that its mantissa counts. -/
theorem standsFor_nearest (hn : 0 < n) (hd : 0 < d) (h : IsUnit (n / d) e) (hfinite : nearestBits n d < infinityBits) :
    StandsFor (nearest false n d) (roundDiv (n * twoTo (-e).toNat) (d * twoTo e.toNat) * 2 ^ e) := by
  have hle := h.roundDiv_le hd
  have hlower := h.le_roundDiv hd
  have hbits := bits_nearest hfinite
  have heq := nearestBits_eq hn hd h
  generalize roundDiv (n * twoTo (-e).toNat) (d * twoTo e.toNat) = m at hle hlower heq ⊢
  rw [heq] at hbits
  have hlt : bits (nearest false n d) < infinityBits := (bits_nearest hfinite).trans_lt hfinite
  rcases hle.lt_or_eq with hm | rfl
  · exact standsFor_of_bits_eq ⟨h.least, hm, hlower⟩ hbits hlt
  · have hleast : leastExponent ≤ e := h.least
    rw [← bitsOf_carry hleast] at hbits
    have hnext : IsNormal leadingBit (e + 1) := ⟨by omega, by decide, fun _ => le_rfl⟩
    have hvalue : ((2 * leadingBit : Nat) : ℚ) * 2 ^ e = (leadingBit : Nat) * 2 ^ (e + 1) := by
      rw [zpow_add₀ two_ne_zero, zpow_one, Nat.cast_mul, Nat.cast_ofNat, mul_comm (2 : ℚ), mul_assoc, mul_comm (2 : ℚ)]
    rw [hvalue]
    exact standsFor_of_bits_eq hnext hbits hlt

/-- In units of a power of two, rounding goes at most half of the power. -/
theorem abs_scaled_sub_le (hd : 0 < d) (e : Int) :
    |(roundDiv (n * twoTo (-e).toNat) (d * twoTo e.toNat) * 2 ^ e : ℚ) - n / d| ≤ 2 ^ e / 2 := by
  have hpow : (0 : ℚ) < 2 ^ e := zpow_pos two_pos e
  have hround := abs_roundDiv_sub_le (n * twoTo (-e).toNat) (scaled_pos hd e)
  rw [div_scaled] at hround
  have hscale : (roundDiv (n * twoTo (-e).toNat) (d * twoTo e.toNat) * 2 ^ e : ℚ) - n / d =
      (roundDiv (n * twoTo (-e).toNat) (d * twoTo e.toNat) - n / d / 2 ^ e) * 2 ^ e := by
    rw [sub_mul, div_mul_cancel₀ _ hpow.ne']
  rw [hscale, abs_mul, abs_of_pos hpow]
  calc |(roundDiv (n * twoTo (-e).toNat) (d * twoTo e.toNat) : ℚ) - n / d / 2 ^ e| * 2 ^ e ≤ 1 / 2 * 2 ^ e :=
        mul_le_mul_of_nonneg_right hround hpow.le
    _ = 2 ^ e / 2 := by rw [one_div, inv_mul_eq_div]

/-- The double nearest to a quotient that is at most one. -/
theorem nearest_close (hd : 0 < d) (h : n ≤ d) :
    ∃ v, StandsFor (nearest false n d) v ∧ |v - n / d| ≤ 1 / 2 ^ 53 := by
  obtain rfl | hn := n.eq_zero_or_pos
  · have hfinite : nearestBits 0 d < infinityBits := (nearestBits_zero d).trans_lt (by decide)
    have hbits : bits (nearest false 0 d) = 0 := (bits_nearest hfinite).trans (nearestBits_zero d)
    have hnormal : IsNormal 0 leastExponent := ⟨le_rfl, by decide, fun hgt => absurd hgt (lt_irrefl _)⟩
    refine ⟨_, standsFor_of_bits_eq hnormal (hbits.trans bitsOf_zero.symm) (hbits.trans_lt (by decide)), ?_⟩
    simp
  have hunit := isUnit_unitExponent hn hd
  have hfinite : nearestBits n d < infinityBits := (nearestBits_le_one hd h).trans_lt one_bits_lt
  refine ⟨_, standsFor_nearest hn hd hunit hfinite, (abs_scaled_sub_le hd _).trans ?_⟩
  have hexponent : unitExponent n d ≤ -52 := by
    by_contra hgt
    have hone : (n / d : ℚ) ≤ 1 := div_le_one_of_le₀ (Nat.cast_le.2 h) (Nat.cast_nonneg d)
    have hpow := (hunit.le (by unfold leastExponent; omega)).trans hone
    rw [← zpow_zero (2 : ℚ)] at hpow
    have hle := (zpow_le_zpow_iff_right₀ (one_lt_two (α := ℚ))).1 hpow
    omega
  calc (2 : ℚ) ^ unitExponent n d / 2 ≤ 2 ^ (-52 : Int) / 2 :=
        div_le_div_of_nonneg_right (zpow_le_zpow_right₀ one_le_two hexponent) two_pos.le
    _ = 1 / 2 ^ 53 := by norm_num

/-- Decimal places of a double that is at most one. -/
theorem toPlaces_close (hx : StandsFor x q) (hq : q ≤ 1) (places : Nat) :
    ∃ v, StandsFor (toPlaces places x) v ∧ |v - q| ≤ 1 / (2 * tenTo places : Nat) + 1 / 2 ^ 53 := by
  obtain ⟨m, e, hvalue, rfl⟩ := hx
  have hten : (0 : ℚ) < tenTo places := Nat.cast_pos.2 (tenTo_pos places)
  have hscaled : (((quotient m e).1 * tenTo places : Nat) : ℚ) / (quotient m e).2 = m * 2 ^ e * tenTo places := by
    rw [Nat.cast_mul, mul_div_right_comm, div_quotient]
  have hround := abs_roundDiv_sub_le ((quotient m e).1 * tenTo places) (quotient_pos m e)
  have hle : roundDiv ((quotient m e).1 * tenTo places) (quotient m e).2 ≤ tenTo places := by
    refine roundDiv_le_of_div_le_natCast (quotient_pos m e) ?_
    rw [hscaled]
    exact mul_le_of_le_one_left hten.le hq
  have hplaces : toPlaces places x =
      nearest false (roundDiv ((quotient m e).1 * tenTo places) (quotient m e).2) (tenTo places) := by
    unfold toPlaces
    rw [hvalue]
  rw [hscaled] at hround
  rw [hplaces]
  generalize roundDiv ((quotient m e).1 * tenTo places) (quotient m e).2 = k at hround hle ⊢
  obtain ⟨v, hv, hclose⟩ := nearest_close (tenTo_pos places) hle
  have hunit : |(k : ℚ) / tenTo places - m * 2 ^ e| ≤ 1 / (2 * tenTo places : Nat) := by
    have hquotient : (k : ℚ) / tenTo places - m * 2 ^ e = (k - m * 2 ^ e * tenTo places) / tenTo places := by
      rw [sub_div, mul_div_assoc, div_self hten.ne', mul_one]
    rw [hquotient, abs_div, abs_of_pos hten, Nat.cast_mul, Nat.cast_ofNat, ← div_div]
    exact div_le_div_of_nonneg_right hround hten.le
  refine ⟨v, hv, (abs_sub_le v (k / tenTo places) _).trans ?_⟩
  rw [add_comm]
  exact add_le_add hunit hclose

/-- The quotient of counts that is at most one, to decimal places. -/
theorem ratio?_close {n d : Int} (hn : 0 ≤ n) (hle : n ≤ d) (hd : d ≠ 0) (places : Nat) :
    ∃ q v, ratio? n d = some q ∧ StandsFor (toPlaces places q) v ∧ (0 ≤ v ∧ v ≤ 1) ∧
      |v - (n : ℚ) / d| ≤ 1 / (2 * tenTo places : Nat) + 1 / 2 ^ 52 := by
  obtain ⟨q, hq, hfraction⟩ := ratio?_isFraction hn hle hd
  have hdpos : 0 < d.natAbs := Int.natAbs_pos.2 hd
  have habs : n.natAbs ≤ d.natAbs := by omega
  have hnearest : q = nearest false n.natAbs d.natAbs := by
    unfold ratio? at hq
    rw [decide_eq_false (not_lt.2 hn), decide_eq_false (not_lt.2 (hn.trans hle))] at hq
    exact (Option.some.inj ((Option.ite_none_right_eq_some.1 hq).2 ▸ rfl)).symm
  obtain ⟨u, hu, hclose⟩ := nearest_close hdpos habs
  rw [← hnearest] at hu
  obtain ⟨w, hw, hone⟩ := hfraction.standsFor
  obtain rfl := hu.unique hw
  obtain ⟨v, hv, hplaces⟩ := toPlaces_close hu hone places
  obtain ⟨v', hv', hvone⟩ := (isFraction_toPlaces hfraction places).standsFor
  obtain rfl := hv.unique hv'
  refine ⟨q, v, hq, hv, ⟨hv.nonneg, hvone⟩, ?_⟩
  have hvalue : (n.natAbs / d.natAbs : ℚ) = n / d := by
    rw [Nat.cast_natAbs, Nat.cast_natAbs, abs_of_nonneg hn, abs_of_nonneg (hn.trans hle)]
  rw [hvalue] at hclose
  calc |v - (n : ℚ) / d| ≤ |v - u| + |u - (n : ℚ) / d| := abs_sub_le _ _ _
    _ ≤ 1 / (2 * tenTo places : Nat) + 1 / 2 ^ 53 + 1 / 2 ^ 53 := add_le_add hplaces hclose
    _ = 1 / (2 * tenTo places : Nat) + 1 / 2 ^ 52 := by rw [add_assoc]; norm_num

end Doubles

/-! ## Overflow -/

namespace Binary64

/-- Half way from the largest double to the power of two that is the next one. -/
def overflowBound : Nat := (twoTo 54 - 1) * twoTo 970

theorem overflowBound_le : overflowBound ≤ twoTo 1024 :=
  calc overflowBound ≤ twoTo 54 * twoTo 970 := Nat.mul_le_mul_right _ (Nat.sub_le _ _)
    _ = twoTo 1024 := (twoTo_add 54 970).symm

/-- Half a unit below the power of two that is next, in units of the largest doubles. -/
theorem two_mul_overflowBound : 2 * overflowBound = (2 * (2 * leadingBit) - 1) * twoTo 971 := by
  have hleading : 2 * (2 * leadingBit) = twoTo 54 := by decide
  have htwo : twoTo 1 = 2 := rfl
  rw [overflowBound, hleading, twoTo_add 1 970, htwo, Nat.mul_left_comm]

theorem lt_pow_of_lt_overflowBound {n d : Nat} (hd : 0 < d) (h : n < overflowBound * d) :
    (n / d : ℚ) < 2 ^ (1024 : Int) := by
  rw [div_lt_iff₀ (Nat.cast_pos.2 hd)]
  have hlt : (n : ℚ) < (twoTo 1024 * d : Nat) := Nat.cast_lt.2 (h.trans_le (Nat.mul_le_mul_right d overflowBound_le))
  rwa [Nat.cast_mul, cast_twoTo, ← zpow_natCast] at hlt

/-- The mantissa of what is less does not become a power of two. -/
theorem roundDiv_lt_of_lt_overflowBound {n d : Nat} (h : n < overflowBound * d) :
    roundDiv (n * twoTo 0) (d * twoTo 971) < 2 * leadingBit := by
  have hround := roundDiv_le (n * twoTo 0) (d := d * twoTo 971)
  have hunit : 2 * (n * twoTo 0) < (2 * (2 * leadingBit) - 1) * (d * twoTo 971) := by
    have hone : n * twoTo 0 = n := Nat.mul_one n
    rw [hone, Nat.mul_left_comm, ← two_mul_overflowBound, Nat.mul_comm d, Nat.mul_assoc]
    omega
  rw [Nat.sub_mul, Nat.one_mul] at hunit
  have hlt : roundDiv (n * twoTo 0) (d * twoTo 971) * (d * twoTo 971) < 2 * leadingBit * (d * twoTo 971) := by
    rw [Nat.mul_assoc 2 (2 * leadingBit)] at hunit
    omega
  exact Nat.lt_of_mul_lt_mul_right hlt

/-- A tie goes to the power of two, as its mantissa is even. -/
theorem nearestBits_lt_infinityBits_iff (n : Nat) {d : Nat} (hd : 0 < d) :
    nearestBits n d < infinityBits ↔ n < overflowBound * d := by
  constructor
  · intro hfinite
    by_contra hge
    have hle : (overflowBound / (1 : Nat) : ℚ) ≤ n / d :=
      (div_le_div_iff_mul_le Nat.one_pos hd).2 (by omega)
    have hbound : nearestBits overflowBound 1 = infinityBits := by decide +kernel
    have hmono := nearestBits_le_of_div_le Nat.one_pos hd hle
    omega
  · intro hlt
    obtain rfl | hn := n.eq_zero_or_pos
    · exact (nearestBits_zero d).trans_lt (by decide)
    have hunit := isUnit_unitExponent hn hd
    have hround := hunit.roundDiv_le hd
    rw [nearestBits_eq hn hd hunit, bitsOf]
    have hexponent : unitExponent n d ≤ 971 := by
      by_contra hgt
      have hpow := (hunit.le (by unfold leastExponent; omega)).trans_lt (lt_pow_of_lt_overflowBound hd hlt)
      have hle := (zpow_lt_zpow_iff_right₀ (one_lt_two (α := ℚ))).1 hpow
      omega
    generalize unitExponent n d = e at hround hexponent ⊢
    refine (min_le_left _ _).trans_lt ?_
    -- below the greatest power there is room even for a mantissa that becomes a power of two
    unfold infinityBits
    rcases hexponent.lt_or_eq with hless | rfl
    · have hpos : 0 < leadingBit := by decide
      have hfield : (e + 1074).toNat * leadingBit ≤ 2044 * leadingBit := Nat.mul_le_mul_right _ (by omega)
      omega
    · have hmantissa : roundDiv (n * twoTo (-971 : Int).toNat) (d * twoTo (971 : Int).toNat) < 2 * leadingBit :=
        roundDiv_lt_of_lt_overflowBound hlt
      have hfield : ((971 : Int) + 1074).toNat = 2045 := rfl
      rw [hfield]
      omega

theorem isSome_ratio?_iff (n : Int) {d : Int} (hd : d ≠ 0) :
    (ratio? n d).isSome ↔ n.natAbs < overflowBound * d.natAbs := by
  unfold ratio?
  dsimp only
  rw [← nearestBits_lt_infinityBits_iff n.natAbs (Int.natAbs_pos.2 hd)]
  split
  · next h => exact iff_of_true rfl h
  · next h => exact iff_of_false Bool.false_ne_true h

/-! ## Underflow -/

theorem roundDiv_eq_zero {n d : Nat} (h : 2 * n < d) : roundDiv n d = 0 := by
  rw [roundDiv, Nat.mod_eq_of_lt (by omega), if_pos h, Nat.div_eq_of_lt (by omega)]

/-- What is less than half of the least positive double becomes zero. -/
theorem nearestBits_eq_zero {n d : Nat} (h : 2 * (n * twoTo 1074) < d) : nearestBits n d = 0 := by
  obtain rfl | hn := n.eq_zero_or_pos
  · exact nearestBits_zero d
  have hd : 0 < d := by omega
  have hlt : (n / d : ℚ) < 2 ^ leastExponent := by
    have hcast : (n : ℚ) * 2 ^ 1074 < d := by
      rw [← cast_twoTo, ← Nat.cast_mul]
      exact Nat.cast_lt.2 (by omega)
    have hpow : (2 : ℚ) ^ leastExponent = (2 ^ 1074)⁻¹ := by rw [leastExponent, zpow_neg, ← zpow_natCast]; rfl
    rw [hpow, div_lt_iff₀ (Nat.cast_pos.2 hd), inv_mul_eq_div, lt_div_iff₀ (pow_pos two_pos _)]
    exact hcast
  have hunit : IsUnit (n / d) leastExponent :=
    { least := le_rfl
      lt := hlt.trans_le (zpow_le_zpow_right₀ one_le_two (by omega))
      le := fun hless => absurd hless (lt_irrefl _) }
  have hround : roundDiv (n * twoTo (-leastExponent).toNat) (d * twoTo leastExponent.toNat) = 0 := by
    have hpower : (-leastExponent).toNat = 1074 := rfl
    have hone : d * twoTo leastExponent.toNat = d := Nat.mul_one d
    rw [hpower, hone]
    exact roundDiv_eq_zero h
  rw [nearestBits_eq hn hd hunit, hround]
  rfl

end Binary64

end CouplingTree
