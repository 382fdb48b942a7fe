import CouplingTree.Proofs.Numbers.Arithmetic
import CouplingTree.Proofs.Numbers.Doubles

/-!
# Doubles from zero to one

Shares of counts are doubles from zero to one, and so are the means of such doubles, whatever the rounding errors: a sum of
`k` of them does not exceed `k`, and stops growing at `2 ^ 53`, from where on one more is rounded off.

* `Doubles.isFraction_share`, `Doubles.isFraction_mean` : shares and means.
* `Doubles.not_one_sub_lt_zero` : what is left of one is not negative.
* `Doubles.isFraction_toPlaces` : rounding to decimal places.
* `Doubles.ratio?_isFraction` : quotients of integers.
-/

namespace CouplingTree.Doubles

open Float.Model UnpackedFloat Binary64

variable {x y : Float} {p q : ℚ} {a b : Nat}

/-! ## Order -/

theorem eq_of_bits_eq (h : bits x = bits y) : x = y := by
  obtain ⟨⟨u, hu⟩⟩ := x
  obtain ⟨⟨v, hv⟩⟩ := y
  obtain rfl : u = v := UInt64.toNat_inj.1 h
  rfl

theorem StandsFor.unique (hp : StandsFor x p) (hq : StandsFor x q) : p = q := by
  obtain ⟨m, e, hx, rfl⟩ := hp
  obtain ⟨m', e', hx', rfl⟩ := hq
  cases hx.symm.trans hx'
  rfl

theorem eq_num_div_den (hp : 0 ≤ p) : p = (p.num.natAbs : ℚ) / (p.den : ℚ) := by
  have hnum : ((p.num.natAbs : Int) : ℚ) = p.num := congrArg _ (Int.natAbs_of_nonneg (Rat.num_nonneg.2 hp))
  rw [← Int.cast_natCast p.num.natAbs, hnum, Rat.num_div_den]

theorem StandsFor.bits_mono (hx : StandsFor x p) (hy : StandsFor y q) (h : p ≤ q) : bits x ≤ bits y := by
  have hp := eq_num_div_den hx.nonneg
  have hq := eq_num_div_den hy.nonneg
  rw [hx.bits_eq p.pos hp, hy.bits_eq q.pos hq]
  exact nearestBits_le_of_div_le p.pos q.pos (by rwa [← hp, ← hq])

theorem StandsFor.le_of_bits_le (hx : StandsFor x p) (hy : StandsFor y q) (h : bits x ≤ bits y) : p ≤ q := by
  rcases le_total p q with hle | hle
  · exact hle
  · obtain rfl := eq_of_bits_eq (Nat.le_antisymm h (hy.bits_mono hx hle))
    exact (hx.unique hy).le

theorem unpack_of_bits_eq_infinityBits (h : bits x = infinityBits) : x.toModel.unpack = .infinity .positive := by
  have hx : x = infinity false := eq_of_bits_eq h
  rw [hx]
  rfl

/-- Neither the bits of a finite double nor those of the infinity, without a sign, are less than zero. -/
theorem not_lt_zero (h : bits x ≤ infinityBits) : ¬ x < 0 := by
  intro hlt
  obtain ⟨r, s, hr, hs, hrs⟩ := lt_iff.1 hlt
  cases rank?_zero.symm.trans hs
  rcases h.lt_or_eq with hfinite | hinfinite
  · obtain ⟨q, hq⟩ := standsFor_of_bits_lt hfinite
    rcases hq.unpack_cases with ⟨hu, -⟩ | ⟨m, e, hm, hu, -⟩ <;> rw [rank?, hu] at hr <;> cases hr
    · exact lt_irrefl _ hrs
    · exact absurd hrs (by rw [Rank.of, Rank.of, Prod.Lex.toLex_lt_toLex]; simp)
  · rw [rank?, unpack_of_bits_eq_infinityBits hinfinite] at hr
    cases hr
    exact absurd hrs (by rw [Rank.of, Rank.of, Prod.Lex.toLex_lt_toLex]; simp)

/-! ## Counts -/

theorem bitsOf_injOn {m m' : Nat} {e e' : Int} (h : IsNormal m e) (h' : IsNormal m' e') (hlt : bitsOf m e < infinityBits)
    (heq : bitsOf m e = bitsOf m' e') : m = m' ∧ e = e' := by
  have hsum : (e + 1074).toNat * leadingBit + m = (e' + 1074).toNat * leadingBit + m' := by
    unfold bitsOf at hlt heq
    omega
  have hleast : -1074 ≤ e := h.least
  have hleast' : -1074 ≤ e' := h'.least
  have hm := h.lt
  have hm' := h'.lt
  rcases lt_trichotomy e e' with hless | rfl | hless
  · have hnext : ((e + 1074).toNat + 1) * leadingBit ≤ (e' + 1074).toNat * leadingBit := Nat.mul_le_mul_right _ (by omega)
    have hnormal := h'.le (hleast.trans_lt hless)
    rw [Nat.add_mul] at hnext
    omega
  · exact ⟨by omega, rfl⟩
  · have hnext : ((e' + 1074).toNat + 1) * leadingBit ≤ (e + 1074).toNat * leadingBit := Nat.mul_le_mul_right _ (by omega)
    have hnormal := h.le (hleast'.trans_lt hless)
    rw [Nat.add_mul] at hnext
    omega

theorem standsFor_of_bits_eq {m : Nat} {e : Int} (h : IsNormal m e) (hbits : bits x = bitsOf m e)
    (hlt : bits x < infinityBits) : StandsFor x (m * 2 ^ e) := by
  obtain ⟨m', e', hx⟩ := value_of_bits_lt hlt
  obtain ⟨hnormal, hbits', -⟩ := isNormal_of_value hx
  obtain ⟨rfl, rfl⟩ := bitsOf_injOn h hnormal (hbits ▸ hlt) (hbits.symm.trans hbits')
  exact ⟨m, e, hx, rfl⟩

theorem nearestBits_natCast_mono {k l : Nat} (h : k ≤ l) : nearestBits k 1 ≤ nearestBits l 1 :=
  nearestBits_le_of_div_le Nat.one_pos Nat.one_pos (div_le_div_of_nonneg_right (Nat.cast_le.2 h) (Nat.cast_nonneg 1))

theorem isNormal_natCast {k : Nat} (hk : k ≤ 2 ^ 53) : ∃ m e, IsNormal m e ∧ (k : ℚ) = m * 2 ^ e := by
  obtain rfl | hpos := k.eq_zero_or_pos
  · exact ⟨0, leastExponent, ⟨le_rfl, by decide, fun h => absurd h (lt_irrefl _)⟩, by simp⟩
  rcases hk.eq_or_lt with rfl | hlt
  · refine ⟨leadingBit, 1, ⟨by decide, by decide, fun _ => le_rfl⟩, ?_⟩
    norm_num [leadingBit]
  · have hlog : k.log2 < 53 := (Nat.log2_lt hpos.ne').2 hlt
    obtain ⟨j, hj⟩ : ∃ j, j + k.log2 = 52 := ⟨52 - k.log2, by omega⟩
    have hpow : ∀ i, 2 ^ i * 2 ^ j = 2 ^ (i + j) := fun i => (pow_add 2 i j).symm
    have hlower : 2 ^ k.log2 * 2 ^ j ≤ k * 2 ^ j := Nat.mul_le_mul_right _ (Nat.log2_self_le hpos.ne')
    have hupper : k * 2 ^ j < 2 ^ (k.log2 + 1) * 2 ^ j := Nat.mul_lt_mul_of_pos_right Nat.lt_log2_self (Nat.two_pow_pos j)
    rw [hpow, Nat.add_comm, hj] at hlower
    rw [hpow, Nat.add_right_comm, Nat.add_comm k.log2, hj] at hupper
    refine ⟨k * 2 ^ j, -j, ⟨by unfold leastExponent; omega, hupper, fun _ => hlower⟩, ?_⟩
    rw [Nat.cast_mul, Nat.cast_pow, Nat.cast_ofNat, mul_assoc, ← zpow_natCast, ← zpow_add₀ two_ne_zero, add_neg_cancel,
      zpow_zero, mul_one]

/-- Counts of at most 53 bits are doubles. -/
theorem standsFor_natCast {k : Nat} (hk : k ≤ 2 ^ 53) : StandsFor (k : Float) k := by
  have hlt : bits (k : Float) < infinityBits := by
    rw [bits_natCast]
    exact (nearestBits_natCast_mono hk).trans_lt nearestBits_two_pow_lt
  obtain ⟨m, e, hnormal, hvalue⟩ := isNormal_natCast hk
  have hbits : bits (k : Float) = bitsOf m e := by
    rw [bits_natCast, nearestBits_of_div_eq Nat.one_pos hnormal (by rw [← hvalue, Nat.cast_one, div_one])]
  exact hvalue ▸ standsFor_of_bits_eq hnormal hbits hlt

theorem StandsFor.le_natCast {k : Nat} (h : StandsFor x p) (hk : k ≤ 2 ^ 53) (hle : bits x ≤ nearestBits k 1) : p ≤ k :=
  h.le_of_bits_le (standsFor_natCast hk) (by rwa [bits_natCast])

/-! ## Fractions -/

/-- A double from zero to one. -/
def IsFraction (x : Float) : Prop := bits x ≤ nearestBits 1 1

theorem one_bits_lt : nearestBits 1 1 < infinityBits := by decide

theorem IsFraction.standsFor (h : IsFraction x) : ∃ q, StandsFor x q ∧ q ≤ 1 := by
  obtain ⟨q, hq⟩ := standsFor_of_bits_lt (h.trans_lt one_bits_lt)
  exact ⟨q, hq, by simpa using hq.le_natCast (k := 1) (by decide) h⟩

theorem isFraction_zero : IsFraction 0 := Nat.zero_le _

theorem isFraction_one : IsFraction 1 := le_of_eq rfl

theorem nearestBits_le_one (hb : 0 < b) (h : a ≤ b) : nearestBits a b ≤ nearestBits 1 1 :=
  nearestBits_le_of_div_le hb Nat.one_pos ((div_le_div_iff_mul_le hb Nat.one_pos).2 (by omega))

/-- A quotient of numbers in order is at most one. -/
theorem isFraction_div (hx : StandsFor x p) (hy : StandsFor y q) (hq : 0 < q) (h : p ≤ q) : IsFraction (x / y) := by
  have hvalue := eq_num_div_den (div_nonneg hx.nonneg hq.le)
  have hone := (div_le_one hq).2 h
  unfold IsFraction
  rw [bits_div hx hy hq (p / q).pos hvalue]
  refine nearestBits_le_of_div_le (p / q).pos Nat.one_pos ?_
  rwa [← hvalue, Nat.cast_one, div_one]

theorem isFraction_div_infinity (hx : StandsFor x p) (hy : bits y = infinityBits) : IsFraction (x / y) := by
  have hbits : bits (x / y) = 0 := by
    change (Float.Model.pack (UnpackedFloat.div Format.binary64 x.toModel.unpack y.toModel.unpack)).toBits.toNat = _
    rw [unpack_of_bits_eq_infinityBits hy]
    rcases hx.unpack_cases with ⟨hu, -⟩ | ⟨m, e, hm, hu, -⟩ <;> rw [hu] <;> rfl
  exact hbits.trans_le (Nat.zero_le _)

/-- A finite double over a count that is not smaller. -/
theorem isFraction_div_natCast {k : Nat} (hx : StandsFor x p) (hk : 0 < k) (h : bits x ≤ bits (k : Float)) :
    IsFraction (x / (k : Float)) := by
  have hle : bits (k : Float) ≤ infinityBits := (bits_natCast k).trans_le (nearestBits_le_infinityBits _ _)
  rcases hle.lt_or_eq with hlt | heq
  · obtain ⟨q, hq⟩ := standsFor_of_bits_lt hlt
    have hone : (1 : ℚ) ≤ q := by
      have hbits : bits ((1 : Nat) : Float) ≤ bits (k : Float) := by
        rw [bits_natCast, bits_natCast]
        exact nearestBits_natCast_mono hk
      simpa using (standsFor_natCast (k := 1) (by decide)).le_of_bits_le hq hbits
    exact isFraction_div hx hq (one_pos.trans_le hone) (hx.le_of_bits_le hq h)
  · exact isFraction_div_infinity hx heq

/-- A count over one that is not smaller, as long as it is finite. -/
theorem isFraction_share {c t : Nat} (ht : 0 < t) (hle : c ≤ t) (hfinite : bits (c : Float) < infinityBits) :
    IsFraction ((c : Float) / (t : Float)) := by
  obtain ⟨p, hp⟩ := standsFor_of_bits_lt hfinite
  refine isFraction_div_natCast hp ht ?_
  rw [bits_natCast, bits_natCast]
  exact nearestBits_natCast_mono hle

/-! ## Means -/

/-- The bits of the greatest sum of so many fractions. -/
def sumBits (k : Nat) : Nat := nearestBits (min k (2 ^ 53)) 1

/-- At `2 ^ 53` one more is half of a unit, and is rounded off. -/
theorem sumBits_succ (k : Nat) : nearestBits (min k (2 ^ 53) + 1) 1 = sumBits (k + 1) := by
  unfold sumBits
  rcases Nat.lt_or_ge k (2 ^ 53) with h | h
  · rw [Nat.min_eq_left h.le, Nat.min_eq_left h]
  · rw [Nat.min_eq_right h, Nat.min_eq_right (h.trans (Nat.le_succ k))]
    decide

theorem bits_add_le {k : Nat} (hx : bits x ≤ sumBits k) (hy : IsFraction y) : bits (x + y) ≤ sumBits (k + 1) := by
  have hmin : min k (2 ^ 53) ≤ 2 ^ 53 := Nat.min_le_right _ _
  have hfinite : sumBits k < infinityBits := (nearestBits_natCast_mono hmin).trans_lt nearestBits_two_pow_lt
  obtain ⟨p, hp⟩ := standsFor_of_bits_lt (hx.trans_lt hfinite)
  obtain ⟨q, hq, hq1⟩ := hy.standsFor
  have hsum : p + q ≤ (min k (2 ^ 53) + 1 : Nat) := by
    rw [Nat.cast_add, Nat.cast_one]
    exact add_le_add (hp.le_natCast hmin hx) hq1
  have hvalue := eq_num_div_den (add_nonneg hp.nonneg hq.nonneg)
  rw [bits_add hp hq (p + q).pos hvalue, ← sumBits_succ]
  refine nearestBits_le_of_div_le (p + q).pos Nat.one_pos ?_
  rwa [← hvalue, Nat.cast_one, div_one]

theorem bits_foldl_add_le {values : List Float} (h : ∀ v ∈ values, IsFraction v) {k : Nat} (hx : bits x ≤ sumBits k) :
    bits (values.foldl (· + ·) x) ≤ sumBits (k + values.length) := by
  induction values generalizing x k with
  | nil => exact hx
  | cons v rest ih =>
    have hrest := ih (fun w hw => h w (List.mem_cons_of_mem v hw)) (bits_add_le hx (h v List.mem_cons_self))
    rwa [List.length_cons, Nat.add_comm rest.length, ← Nat.add_assoc]

theorem isFraction_mean {values : List Float} (h : ∀ v ∈ values, IsFraction v) : IsFraction (mean values) := by
  unfold mean
  split
  · exact isFraction_zero
  · next hne =>
    have hlength : 0 < values.length := List.length_pos_of_ne_nil fun hnil => hne (by rw [hnil]; rfl)
    have hsum : bits (values.foldl (· + ·) 0) ≤ sumBits values.length := by
      have hfold := bits_foldl_add_le h (x := 0) (k := 0) (Nat.zero_le _)
      rwa [Nat.zero_add] at hfold
    have hmin : sumBits values.length ≤ nearestBits values.length 1 := nearestBits_natCast_mono (Nat.min_le_left _ _)
    have hfinite : sumBits values.length < infinityBits :=
      (nearestBits_natCast_mono (Nat.min_le_right _ _)).trans_lt nearestBits_two_pow_lt
    obtain ⟨p, hp⟩ := standsFor_of_bits_lt (hsum.trans_lt hfinite)
    exact isFraction_div_natCast hp hlength (hsum.trans (hmin.trans_eq (bits_natCast _).symm))

/-! ## Distances -/

theorem not_one_sub_lt_zero (h : IsFraction x) : ¬ 1 - x < 0 := by
  obtain ⟨q, hq, hq1⟩ := h.standsFor
  have hone : StandsFor 1 1 := by
    have h := standsFor_natCast (k := 1) (by decide)
    rwa [Nat.cast_one] at h
  refine not_lt_zero ?_
  rw [bits_sub hone hq hq1 (1 - q).pos (eq_num_div_den (sub_nonneg.2 hq1))]
  exact nearestBits_le_infinityBits _ _

/-! ## Nearest doubles -/

theorem exists_bitsOf {n : Nat} (h : n < infinityBits) : ∃ m e, IsNormal m e ∧ n = bitsOf m e := by
  have hmod := Nat.mod_lt n (show 0 < leadingBit by decide)
  have hdiv := Nat.div_add_mod n leadingBit
  have hquotient : n / leadingBit < 2047 := Nat.div_lt_of_lt_mul (by rwa [Nat.mul_comm])
  rcases (n / leadingBit).eq_zero_or_pos with hzero | hpos
  · refine ⟨n % leadingBit, leastExponent, ⟨le_rfl, by omega, fun hgt => absurd hgt (lt_irrefl _)⟩, ?_⟩
    have hexponent : (leastExponent + 1074).toNat = 0 := rfl
    unfold bitsOf
    rw [hzero] at hdiv
    rw [hexponent]
    omega
  · obtain ⟨j, hj⟩ : ∃ j, n / leadingBit = j + 1 := ⟨n / leadingBit - 1, by omega⟩
    refine ⟨leadingBit + n % leadingBit, (j : Int) - 1074,
      ⟨by unfold leastExponent; omega, by omega, fun _ => Nat.le_add_right _ _⟩, ?_⟩
    have hexponent : ((j : Int) - 1074 + 1074).toNat = j := by omega
    unfold bitsOf
    rw [hj, Nat.mul_add, Nat.mul_comm] at hdiv
    rw [hexponent]
    omega

theorem bits_ofBits {n : Nat} (h : n < infinityBits) : bits (Float.ofBits (UInt64.ofNat n)) = n := by
  obtain ⟨m, e, hnormal, hbits⟩ := exists_bitsOf h
  have hmod : (UInt64.ofNat n).toBitVec.toNat = n := Nat.mod_eq_of_lt (h.trans (by decide))
  change (Float.Model.pack (UnpackedFloat.unpack Format.binary64 (UInt64.ofNat n).toBitVec)).toBits.toNat = n
  rw [unpack_eq hnormal (hmod.trans hbits) (hmod.trans_lt h)]
  exact (bits_pack hnormal).trans hbits.symm

theorem bits_nearest (h : nearestBits a b < infinityBits) : bits (nearest false a b) = nearestBits a b := bits_ofBits h

theorem isFraction_nearest (hb : 0 < b) (h : a ≤ b) : IsFraction (nearest false a b) := by
  have hone := nearestBits_le_one hb h
  exact (bits_nearest (hone.trans_lt one_bits_lt)).trans_le hone

theorem tenTo_pos (n : Nat) : 0 < tenTo n := Nat.pow_pos (by decide)

theorem isFraction_toPlaces (h : IsFraction x) (places : Nat) : IsFraction (toPlaces places x) := by
  obtain ⟨q, ⟨m, e, hx, hq⟩, hone⟩ := h.standsFor
  unfold toPlaces
  rw [hx]
  refine isFraction_nearest (tenTo_pos places) (roundDiv_le_of_div_le_natCast (quotient_pos m e) ?_)
  have hvalue := (div_quotient m e).trans hq.symm
  change (((quotient m e).1 * tenTo places : Nat) : ℚ) / (quotient m e).2 ≤ _
  rw [Nat.cast_mul, mul_div_right_comm, hvalue]
  exact mul_le_of_le_one_left (Nat.cast_nonneg _) hone

/-- A quotient of integers from zero to one is a double. -/
theorem ratio?_isFraction {n d : Int} (hn : 0 ≤ n) (hle : n ≤ d) (hd : d ≠ 0) :
    ∃ q, ratio? n d = some q ∧ IsFraction q := by
  have hdpos : 0 < d.natAbs := Int.natAbs_pos.2 hd
  have habs : n.natAbs ≤ d.natAbs := by omega
  have hone := nearestBits_le_one hdpos habs
  have hsign : (decide (n < 0) != decide (d < 0)) = false := by
    rw [decide_eq_false (not_lt.2 hn), decide_eq_false (not_lt.2 (hn.trans hle))]
    rfl
  refine ⟨nearest false n.natAbs d.natAbs, ?_, isFraction_nearest hdpos habs⟩
  unfold ratio?
  rw [hsign]
  exact if_pos (hone.trans_lt one_bits_lt)

theorem IsFraction.finite (h : IsFraction x) : Binary64.isFinite x = true := by
  obtain ⟨q, ⟨m, e, hx, -⟩, -⟩ := h.standsFor
  unfold Binary64.isFinite toRat?
  rw [hx]
  rfl

end CouplingTree.Doubles
