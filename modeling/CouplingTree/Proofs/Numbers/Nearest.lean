import Mathlib.Algebra.Order.Field.Power
import Mathlib.Tactic.FieldSimp
import Mathlib.Algebra.Order.Field.Basic
import Mathlib.Algebra.Order.Field.Rat
import Mathlib.Tactic.Linarith
import CouplingTree.Numbers.Scalar

/-!
# Rounding and the nearest double

Rounding keeps the order of numbers. The bits of a double that is not negative count up the doubles from zero, so that they
are compared in place of the numbers.

* `roundDiv_tie` : half way between two natural numbers the even one is taken.
* `roundDiv_mono` : hence a smaller quotient, even over another divisor, is rounded to at most as much.
* `Rat.toPlaces_mono` : so rounding to decimal places keeps the order of rational numbers that are not negative.
* `Binary64.IsUnit q e` : the mantissa of the doubles next to `q` counts `2 ^ e`; there is one such power.
* `Binary64.nearestBits_eq` : the bits of the double nearest to a quotient, by the power that its mantissa counts.
* `Binary64.nearestBits_mono` : a smaller quotient, even over another divisor, has a nearest double with fewer bits.
* `Binary64.nearestBits_quotient` : what is a double is its own nearest double.
-/

namespace CouplingTree

/-! ## Quotients -/

theorem roundDiv_tie {n d q : Nat} (hd : 0 < d) (h : 2 * n = (2 * q + 1) * d) : roundDiv n d % 2 = 0 := by
  obtain ⟨rest, hrest⟩ : ∃ rest, n = d * q + rest := Nat.exists_eq_add_of_le (by linarith)
  have hhalf : 2 * rest = d := by linarith
  have hdiv : n / d = q := by rw [hrest, Nat.mul_add_div hd, Nat.div_eq_of_lt (by omega), Nat.add_zero]
  have hmod : n % d = rest := by rw [hrest, Nat.mul_add_mod, Nat.mod_eq_of_lt (by omega)]
  rw [roundDiv, hdiv, hmod, if_neg (by omega), if_neg (by omega)]
  split <;> omega

/-- Nearest numbers can only be out of order where both quotients are half way between the two, and then both are even. -/
theorem roundDiv_mono {n d n' d' : Nat} (hd : 0 < d) (hd' : 0 < d') (h : n * d' ≤ n' * d) :
    roundDiv n d ≤ roundDiv n' d' := by
  have hupper : 2 * (roundDiv n d * d) * d' ≤ (2 * n + d) * d' := Nat.mul_le_mul_right d' (roundDiv_le n)
  have hlower : 2 * n' * d ≤ (2 * (roundDiv n' d' * d') + d') * d := Nat.mul_le_mul_right d (le_roundDiv n' hd')
  by_contra hlt
  have hstep : (roundDiv n' d' + 1) * (d * d') ≤ roundDiv n d * (d * d') := Nat.mul_le_mul_right _ (by omega)
  have htie : 2 * n = (2 * roundDiv n' d' + 1) * d := Nat.eq_of_mul_eq_mul_right hd' (by linarith)
  have htie' : 2 * n' = (2 * roundDiv n' d' + 1) * d' := Nat.eq_of_mul_eq_mul_right hd (by linarith)
  have hnext : roundDiv n d = roundDiv n' d' + 1 := Nat.eq_of_mul_eq_mul_right (Nat.mul_pos hd hd') (by linarith)
  have heven := roundDiv_tie hd htie
  have heven' := roundDiv_tie hd' htie'
  omega

/-! ## Decimal places -/

namespace Rat

theorem toPlaces_eq {q : Rat} (hq : 0 ≤ q) (places : Nat) :
    toPlaces places q = (roundDiv (q.num.natAbs * tenTo places) q.den : Rat) / (tenTo places : Rat) := by
  have hnum : ¬ q.num < 0 := Int.not_lt.2 (Rat.num_nonneg.2 hq)
  rw [toPlaces, if_neg hnum, Rat.mkRat_eq_div]
  rfl

theorem toPlaces_mono {q r : Rat} (hq : 0 ≤ q) (h : q ≤ r) (places : Nat) : toPlaces places q ≤ toPlaces places r := by
  have hr : 0 ≤ r := hq.trans h
  rw [toPlaces_eq hq, toPlaces_eq hr]
  refine div_le_div_of_nonneg_right (Nat.cast_le.2 (roundDiv_mono q.pos r.pos ?_)) (Nat.cast_nonneg _)
  have hcross := (Rat.le_iff q r).1 h
  rw [← Int.natAbs_of_nonneg (Rat.num_nonneg.2 hq), ← Int.natAbs_of_nonneg (Rat.num_nonneg.2 hr)] at hcross
  have hcross' : q.num.natAbs * r.den ≤ r.num.natAbs * q.den := by exact_mod_cast hcross
  rw [Nat.mul_right_comm, Nat.mul_right_comm r.num.natAbs]
  exact Nat.mul_le_mul_right _ hcross'

end Rat

end CouplingTree

namespace CouplingTree

/-! ## Quotients -/

theorem twoTo_pos (n : Nat) : 0 < twoTo n := Nat.two_pow_pos n

theorem twoTo_mono {m n : Nat} (h : m ≤ n) : twoTo m ≤ twoTo n := Nat.pow_le_pow_right Nat.two_pos h

theorem twoTo_add (m n : Nat) : twoTo (m + n) = twoTo m * twoTo n := Nat.pow_add 2 m n

theorem cast_twoTo (n : Nat) : (twoTo n : ℚ) = 2 ^ n := Nat.cast_pow 2 n

theorem div_le_div_iff_mul_le {n d n' d' : Nat} (hd : 0 < d) (hd' : 0 < d') :
    (n / d : ℚ) ≤ n' / d' ↔ n * d' ≤ n' * d := by
  rw [div_le_div_iff₀ (Nat.cast_pos.2 hd) (Nat.cast_pos.2 hd')]
  exact_mod_cast Iff.rfl

/-- The nearest natural number depends on the quotient only. -/
theorem roundDiv_le_of_div_le {n d n' d' : Nat} (hd : 0 < d) (hd' : 0 < d') (h : (n / d : ℚ) ≤ n' / d') :
    roundDiv n d ≤ roundDiv n' d' :=
  roundDiv_mono hd hd' ((div_le_div_iff_mul_le hd hd').1 h)

theorem roundDiv_congr {n d n' d' : Nat} (hd : 0 < d) (hd' : 0 < d') (h : (n / d : ℚ) = n' / d') :
    roundDiv n d = roundDiv n' d' :=
  Nat.le_antisymm (roundDiv_le_of_div_le hd hd' h.le) (roundDiv_le_of_div_le hd' hd h.ge)

/-- A natural number that a quotient does not exceed is not exceeded by rounding. -/
theorem roundDiv_le_of_div_le_natCast {n d k : Nat} (hd : 0 < d) (h : (n / d : ℚ) ≤ k) : roundDiv n d ≤ k := by
  have hk : roundDiv k 1 = k := by simpa using roundDiv_mul k Nat.one_pos
  exact hk ▸ roundDiv_le_of_div_le hd Nat.one_pos (by simpa using h)

theorem le_roundDiv_of_natCast_le_div {n d k : Nat} (hd : 0 < d) (h : (k : ℚ) ≤ n / d) : k ≤ roundDiv n d := by
  have hk : roundDiv k 1 = k := by simpa using roundDiv_mul k Nat.one_pos
  exact hk ▸ roundDiv_le_of_div_le Nat.one_pos hd (by simpa using h)

namespace Binary64

variable {n d n' d' m : Nat} {e e' : Int} {p q : ℚ}

/-! ## Powers that are counted -/

/-- The least power that any mantissa counts. -/
def leastExponent : Int := -1074

/-- The mantissa has 53 bits when it counts more than the least power, and otherwise at most that many. -/
structure IsUnit (q : ℚ) (e : Int) : Prop where
  least : leastExponent ≤ e
  lt : q < 2 ^ (e + 53)
  le : leastExponent < e → 2 ^ (e + 52) ≤ q

theorem IsUnit.mono (hp : IsUnit p e) (hq : IsUnit q e') (hpq : p ≤ q) : e ≤ e' := by
  by_contra hlt
  have hle : (2 : ℚ) ^ (e + 52) < 2 ^ (e' + 53) := (hp.le (by have := hq.least; omega)).trans_lt (hpq.trans_lt hq.lt)
  have hexp := (zpow_lt_zpow_iff_right₀ (one_lt_two (α := ℚ))).1 hle
  omega

theorem IsUnit.unique (h : IsUnit q e) (h' : IsUnit q e') : e = e' := le_antisymm (h.mono h' le_rfl) (h'.mono h le_rfl)

/-- A power that is too small is replaced by the least one. -/
theorem isUnit_max (hlt : q < 2 ^ (e + 53)) (hle : 2 ^ (e + 52) ≤ q) : IsUnit q (max e leastExponent) where
  least := le_max_right _ _
  lt := hlt.trans_le (zpow_le_zpow_right₀ one_le_two (by omega))
  le h := by rwa [max_eq_left (by omega)]

theorem pow_log2_le (h : 0 < n) : (2 : ℚ) ^ (n.log2 : Int) ≤ n := by
  rw [zpow_natCast]
  exact_mod_cast Nat.log2_self_le h.ne'

theorem lt_pow_log2 (n : Nat) : (n : ℚ) < 2 ^ ((n.log2 : Int) + 1) := by
  have h : (n : ℚ) < 2 ^ (n.log2 + 1) := by exact_mod_cast Nat.lt_log2_self (n := n)
  exact_mod_cast h

/-- A quotient in units of `2 ^ e`. -/
theorem div_scaled (n d : Nat) (e : Int) :
    ((n * twoTo (-e).toNat : Nat) : ℚ) / (d * twoTo e.toNat : Nat) = n / d / 2 ^ e := by
  have htwo : (2 : ℚ) ≠ 0 := two_ne_zero
  have hpow : (2 : ℚ) ^ e = 2 ^ (e.toNat : Int) / 2 ^ ((-e).toNat : Int) := by
    rw [← zpow_sub₀ htwo]
    congr 1
    omega
  rw [Nat.cast_mul, Nat.cast_mul, cast_twoTo, cast_twoTo, hpow, zpow_natCast, zpow_natCast]
  field_simp

theorem scaled_pos (hd : 0 < d) (e : Int) : 0 < d * twoTo e.toNat := Nat.mul_pos hd (twoTo_pos _)

theorem scaled_lt_iff (hd : 0 < d) (k : Nat) :
    n * twoTo (-e).toNat < k * (d * twoTo e.toNat) ↔ (n / d : ℚ) < k * 2 ^ e := by
  have hpos : (0 : ℚ) < (d * twoTo e.toNat : Nat) := Nat.cast_pos.2 (scaled_pos hd e)
  have hpow : (0 : ℚ) < 2 ^ e := zpow_pos two_pos e
  rw [← div_lt_iff₀ hpow, ← div_scaled, div_lt_iff₀ hpos]
  exact_mod_cast Iff.rfl

/-- A quotient by the first bits of its terms. -/
theorem div_lt_pow_log2 (n : Nat) (hd : 0 < d) : (n / d : ℚ) < 2 ^ ((n.log2 : Int) - d.log2 + 1) := by
  rw [div_lt_iff₀ (Nat.cast_pos.2 hd)]
  calc (n : ℚ) < 2 ^ ((n.log2 : Int) + 1) := lt_pow_log2 n
    _ = 2 ^ ((n.log2 : Int) - d.log2 + 1) * 2 ^ (d.log2 : Int) := by rw [← zpow_add₀ two_ne_zero]; congr 1; omega
    _ ≤ _ := mul_le_mul_of_nonneg_left (pow_log2_le hd) (zpow_pos two_pos _).le

theorem pow_log2_le_div (hn : 0 < n) (hd : 0 < d) : (2 : ℚ) ^ ((n.log2 : Int) - d.log2 - 1) ≤ n / d := by
  rw [le_div_iff₀ (Nat.cast_pos.2 hd)]
  calc (2 : ℚ) ^ ((n.log2 : Int) - d.log2 - 1) * d
      ≤ 2 ^ ((n.log2 : Int) - d.log2 - 1) * 2 ^ ((d.log2 : Int) + 1) :=
        mul_le_mul_of_nonneg_left (lt_pow_log2 d).le (zpow_pos two_pos _).le
    _ = 2 ^ (n.log2 : Int) := by rw [← zpow_add₀ two_ne_zero]; congr 1; omega
    _ ≤ n := pow_log2_le hn

theorem isUnit_unitExponent (hn : 0 < n) (hd : 0 < d) : IsUnit (n / d) (unitExponent n d) := by
  have htwo : (2 : ℚ) ≠ 0 := two_ne_zero
  have hupper := div_lt_pow_log2 n hd
  have hlower := pow_log2_le_div hn hd
  have hleading : ((leadingBit : Nat) : ℚ) = 2 ^ (52 : Int) := by norm_num [leadingBit]
  have hunit : unitExponent n d = max (if (n / d : ℚ) < 2 ^ ((n.log2 : Int) - d.log2 - 52 + 52) then
      (n.log2 : Int) - d.log2 - 52 - 1 else (n.log2 : Int) - d.log2 - 52) leastExponent := by
    unfold unitExponent
    dsimp only
    rw [if_congr (scaled_lt_iff hd leadingBit) rfl rfl, hleading, ← zpow_add₀ htwo, Int.add_comm 52]
    rfl
  rw [hunit]
  split
  · next h => exact isUnit_max (h.trans_eq (by congr 1; omega)) (hlower.trans_eq' (by congr 1; omega))
  · next h => exact isUnit_max (hupper.trans_eq (by congr 1; omega)) (not_lt.1 h)

/-! ## Bits -/

/-- The bits of the double that counts `m` times the power `e`, unless they are those of the infinity. -/
def bitsOf (m : Nat) (e : Int) : Nat := min ((e + 1074).toNat * leadingBit + m) infinityBits

theorem nearestBits_eq (hn : 0 < n) (hd : 0 < d) (h : IsUnit (n / d) e) :
    nearestBits n d = bitsOf (roundDiv (n * twoTo (-e).toNat) (d * twoTo e.toNat)) e := by
  rw [nearestBits, if_neg hn.ne', (isUnit_unitExponent hn hd).unique h]
  rfl

theorem nearestBits_zero (d : Nat) : nearestBits 0 d = 0 := rfl

theorem bitsOf_zero : bitsOf 0 leastExponent = 0 := Nat.zero_min _

/-- Twice the leading bit is carried to the next power. -/
theorem bitsOf_carry (he : leastExponent ≤ e) : bitsOf leadingBit (e + 1) = bitsOf (2 * leadingBit) e := by
  unfold bitsOf leastExponent at *
  have hexponent : (e + 1 + 1074).toNat = (e + 1074).toNat + 1 := by omega
  rw [hexponent, Nat.add_mul]
  omega

theorem nearestBits_le_infinityBits (n d : Nat) : nearestBits n d ≤ infinityBits := by
  unfold nearestBits
  split
  · exact Nat.zero_le _
  · exact min_le_right _ _

theorem IsUnit.roundDiv_le (h : IsUnit (n / d) e) (hd : 0 < d) :
    roundDiv (n * twoTo (-e).toNat) (d * twoTo e.toNat) ≤ 2 * leadingBit := by
  refine roundDiv_le_of_div_le_natCast (scaled_pos hd e) ?_
  rw [div_scaled, div_le_iff₀ (zpow_pos two_pos e)]
  refine h.lt.le.trans_eq ?_
  rw [Int.add_comm, zpow_add₀ two_ne_zero]
  norm_num [leadingBit]

theorem IsUnit.le_roundDiv (h : IsUnit (n / d) e) (hd : 0 < d) (he : leastExponent < e) :
    leadingBit ≤ roundDiv (n * twoTo (-e).toNat) (d * twoTo e.toNat) := by
  refine le_roundDiv_of_natCast_le_div (scaled_pos hd e) ?_
  rw [div_scaled, le_div_iff₀ (zpow_pos two_pos e)]
  refine (h.le he).trans_eq' ?_
  rw [Int.add_comm, zpow_add₀ two_ne_zero]
  norm_num [leadingBit]

/-- Numbers that count the same power are rounded in order, and all others are apart by a power of two. -/
theorem nearestBits_le_of_div_le (hd : 0 < d) (hd' : 0 < d') (h : (n / d : ℚ) ≤ n' / d') :
    nearestBits n d ≤ nearestBits n' d' := by
  obtain rfl | hn := n.eq_zero_or_pos
  · exact Nat.zero_le _
  have hn' : 0 < n' := by
    have hpos : 0 < n * d' := Nat.mul_pos hn hd'
    exact Nat.pos_of_mul_pos_right (hpos.trans_le ((div_le_div_iff_mul_le hd hd').1 h))
  have hu := isUnit_unitExponent hn hd
  have hu' := isUnit_unitExponent hn' hd'
  rw [nearestBits_eq hn hd hu, nearestBits_eq hn' hd' hu']
  generalize unitExponent n d = e at hu ⊢
  generalize unitExponent n' d' = e' at hu' ⊢
  refine min_le_min_right _ ?_
  have hleast : -1074 ≤ e := hu.least
  rcases (hu.mono hu' h).eq_or_lt with rfl | hlt
  · refine Nat.add_le_add_left (roundDiv_le_of_div_le (scaled_pos hd e) (scaled_pos hd' e) ?_) _
    rw [div_scaled, div_scaled]
    exact div_le_div_of_nonneg_right h (zpow_pos two_pos e).le
  · have hupper := hu.roundDiv_le hd
    have hlower := hu'.le_roundDiv hd' (hu.least.trans_lt hlt)
    have hnext : ((e + 1074).toNat + 1) * leadingBit ≤ (e' + 1074).toNat * leadingBit :=
      Nat.mul_le_mul_right _ (by omega)
    rw [Nat.add_mul] at hnext
    omega

theorem nearestBits_congr (hd : 0 < d) (hd' : 0 < d') (h : (n / d : ℚ) = n' / d') : nearestBits n d = nearestBits n' d' :=
  Nat.le_antisymm (nearestBits_le_of_div_le hd hd' h.le) (nearestBits_le_of_div_le hd' hd h.ge)

/-! ## Doubles -/

/-- The mantissa and the power of a finite double. -/
structure IsNormal (m : Nat) (e : Int) : Prop where
  least : leastExponent ≤ e
  lt : m < 2 * leadingBit
  le : leastExponent < e → leadingBit ≤ m

theorem div_quotient (m : Nat) (e : Int) : ((quotient m e).1 : ℚ) / (quotient m e).2 = m * 2 ^ e := by
  have h := div_scaled m 1 (-e)
  rw [Int.neg_neg, Nat.one_mul, Nat.cast_one, div_one, zpow_neg, div_inv_eq_mul] at h
  exact h

theorem quotient_pos (m : Nat) (e : Int) : 0 < (quotient m e).2 := twoTo_pos _

theorem IsNormal.isUnit (h : IsNormal m e) : IsUnit (m * 2 ^ e) e where
  least := h.least
  lt := by
    have hm : (m : ℚ) < (2 * leadingBit : Nat) := Nat.cast_lt.2 h.lt
    rw [Int.add_comm, zpow_add₀ two_ne_zero]
    refine mul_lt_mul_of_pos_right (hm.trans_eq ?_) (zpow_pos two_pos e)
    norm_num [leadingBit]
  le he := by
    have hm : ((leadingBit : Nat) : ℚ) ≤ m := Nat.cast_le.2 (h.le he)
    rw [Int.add_comm, zpow_add₀ two_ne_zero]
    refine mul_le_mul_of_nonneg_right (hm.trans_eq' ?_) (zpow_pos two_pos e).le
    norm_num [leadingBit]

/-- A double counts its mantissa exactly. -/
theorem nearestBits_of_div_eq (hd : 0 < d) (h : IsNormal m e) (hq : (n / d : ℚ) = m * 2 ^ e) :
    nearestBits n d = bitsOf m e := by
  have hpow : (0 : ℚ) < 2 ^ e := zpow_pos two_pos e
  have hround : roundDiv (n * twoTo (-e).toNat) (d * twoTo e.toNat) = m := by
    have hdiv : ((n * twoTo (-e).toNat : Nat) : ℚ) / (d * twoTo e.toNat : Nat) = m := by
      rw [div_scaled, hq, mul_div_assoc, div_self hpow.ne', mul_one]
    exact Nat.le_antisymm (roundDiv_le_of_div_le_natCast (scaled_pos hd e) hdiv.le)
      (le_roundDiv_of_natCast_le_div (scaled_pos hd e) hdiv.ge)
  obtain rfl | hm := m.eq_zero_or_pos
  · have hn : n = 0 := by
      have hzero : (n / d : ℚ) = 0 := by rw [hq, Nat.cast_zero, zero_mul]
      exact_mod_cast (div_eq_zero_iff.1 hzero).resolve_right (Nat.cast_ne_zero.2 hd.ne')
    have hleast : e = leastExponent := le_antisymm (not_lt.1 fun hlt => absurd (h.le hlt) (by decide)) h.least
    rw [hn, hleast, nearestBits_zero, bitsOf_zero]
  · have hn : 0 < n := by
      refine Nat.pos_of_ne_zero fun hzero => ?_
      have hpos : (0 : ℚ) < m * 2 ^ e := mul_pos (Nat.cast_pos.2 hm) hpow
      rw [← hq, hzero, Nat.cast_zero, zero_div] at hpos
      exact lt_irrefl _ hpos
    rw [nearestBits_eq hn hd (hq ▸ h.isUnit), hround]

theorem nearestBits_quotient (h : IsNormal m e) : nearestBits (quotient m e).1 (quotient m e).2 = bitsOf m e :=
  nearestBits_of_div_eq (quotient_pos m e) h (div_quotient m e)

end Binary64

end CouplingTree
