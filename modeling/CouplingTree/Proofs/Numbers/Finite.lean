import CouplingTree.Proofs.Numbers.Accuracy

/-!
# Means that are numbers

Sums of finite doubles may be infinite, but what is added to an infinity is finite, so that no step of a sum leads to what is
no number. Nor does the quotient of a sum by a count, unless the count itself is too large for a double.

* `Doubles.isNumber_iff` : a double is comparable to itself unless it stands for no number.
* `Doubles.isNumber_pack` : what is packed is a number if it was one before.
* `Doubles.isNumber_add`, `Doubles.isNumber_div_natCast` : sums and quotients.
* `Doubles.isNumber_mean` : hence means of finite doubles are numbers.
-/

namespace CouplingTree

/-- The greatest power of two that is a double. -/
def countBound : Nat := twoTo 1023

theorem countBound_lt : countBound < Binary64.overflowBound := by
  rw [countBound, twoTo_add 53 970]
  exact Nat.mul_lt_mul_of_pos_right (by decide) (twoTo_pos 970)

namespace Doubles

open Float.Model UnpackedFloat Binary64 Scalar

variable {x y : Float} {a b : UnpackedFloat}

theorem rankOf?_eq_none : rankOf? a = none ↔ a = .notANumber := by
  cases a with
  | notANumber => exact iff_of_true rfl rfl
  | infinity s => cases s <;> exact iff_of_false (fun h => by cases h) (fun h => by cases h)
  | zero s => exact iff_of_false (fun h => by cases h) (fun h => by cases h)
  | finite s m e hm => cases s <;> exact iff_of_false (fun h => by cases h) (fun h => by cases h)

theorem isNumber_iff : IsNumber x ↔ x.toModel.unpack ≠ .notANumber := by
  unfold IsNumber
  rw [le_iff, Ne, ← rankOf?_eq_none, ← Ne, Option.ne_none_iff_exists']
  exact ⟨fun ⟨r, _, hr, _⟩ => ⟨r, hr⟩, fun ⟨r, hr⟩ => ⟨r, r, hr, hr, le_refl r⟩⟩

/-! ## Packing -/

theorem unpackExponent_of_unpack {b : BitVec Format.binary64.numBits}
    (h : UnpackedFloat.unpack Format.binary64 b = .notANumber) : unpackExponent b = -1#_ ∧ unpackMantissa b ≠ 0#_ := by
  unfold UnpackedFloat.unpack at h
  rcases ite_eq_iff.1 h with ⟨hexponent, h⟩ | ⟨-, h⟩
  · rcases ite_eq_iff.1 h with ⟨-, h⟩ | ⟨hmantissa, -⟩
    · cases h
    · exact ⟨hexponent, hmantissa⟩
  · rcases ite_eq_iff.1 h with ⟨-, h⟩ | ⟨-, h⟩
    · rcases dite_eq_iff.1 h with ⟨_, h⟩ | ⟨_, h⟩ <;> cases h
    · cases h

/-- What is packed is no number only if it was none before. -/
theorem isNumber_pack (h : a ≠ .notANumber) : IsNumber (⟨Float.Model.pack a⟩ : Float) := by
  rw [isNumber_iff]
  intro hpack
  have hbits : UnpackedFloat.unpack Format.binary64 (UnpackedFloat.pack Format.binary64 a) = .notANumber := hpack
  obtain ⟨hexponent, hmantissa⟩ := unpackExponent_of_unpack hbits
  unfold UnpackedFloat.pack at hexponent hmantissa
  cases a with
  | notANumber => exact h rfl
  | infinity s => exact hmantissa unpackMantissa_packComponents
  | zero s => exact hmantissa unpackMantissa_packComponents
  | finite s m e hm =>
    dsimp only at hexponent hmantissa
    split at hexponent
    · next hlarge =>
      rw [if_pos hlarge] at hmantissa
      exact hmantissa unpackMantissa_packComponents
    · next hlarge =>
      -- the field of the exponent is less than the greatest one
      split at hexponent
      · rw [unpackExponent_packComponents] at hexponent
        have hfield := congrArg BitVec.toNat hexponent
        have hgreatest : (-1#_ : BitVec Format.binary64.exponentBits).toNat = 2 ^ Format.binary64.exponentBits - 1 := rfl
        rw [BitVec.toNat_ofNat, Nat.mod_eq_of_lt (by omega), hgreatest] at hfield
        exact hlarge (by rw [hfield]; decide)
      · rw [unpackExponent_packComponents] at hexponent
        exact absurd hexponent (by decide)

/-! ## Arithmetic -/

theorem roundWithAccuracy_ne (s : Sign) (m : Nat) (e : Int) (acc : Accuracy) :
    roundWithAccuracy Format.binary64 s m e acc ≠ .notANumber := by
  unfold roundWithAccuracy
  intro h
  rcases dite_eq_iff.1 h with ⟨_, h⟩ | ⟨_, h⟩ <;> cases h

theorem normalize_ne (m e : Int) (s : Sign) : UnpackedFloat.normalize Format.binary64 m e s ≠ .notANumber := by
  unfold UnpackedFloat.normalize
  split
  · exact roundWithAccuracy_ne _ _ _ _
  · exact nofun
  · exact roundWithAccuracy_ne _ _ _ _

theorem add_ne (ha : a ≠ .notANumber) (hb : b ≠ .notANumber) (hfinite : ∀ s, b ≠ .infinity s) :
    UnpackedFloat.add Format.binary64 a b ≠ .notANumber := by
  cases b with
  | notANumber => exact absurd rfl hb
  | infinity t => exact absurd rfl (hfinite t)
  | zero t =>
    cases a with
    | notANumber => exact absurd rfl ha
    | infinity s => exact nofun
    | zero s => cases s <;> cases t <;> exact nofun
    | finite s m e hm => exact nofun
  | finite t m' e' hm' =>
    cases a with
    | notANumber => exact absurd rfl ha
    | infinity s => exact nofun
    | zero s => exact nofun
    | finite s m e hm => exact normalize_ne _ _ _

theorem div_ne {s : Sign} {m : Nat} {e : Int} {hm : 0 < m} (ha : a ≠ .notANumber) :
    UnpackedFloat.div Format.binary64 a (.finite s m e hm) ≠ .notANumber := by
  cases a with
  | notANumber => exact absurd rfl ha
  | infinity t => exact nofun
  | zero t => exact nofun
  | finite t m' e' hm' => exact roundWithAccuracy_ne _ _ _ _

theorem unpack_of_isFinite (h : Binary64.isFinite x = true) :
    x.toModel.unpack ≠ .notANumber ∧ ∀ s, x.toModel.unpack ≠ .infinity s := by
  have hfield : @unpackExponent Format.binary64 x.toBits.toBitVec ≠ -1#_ := by
    intro hexponent
    have hnat := congrArg BitVec.toNat hexponent
    rw [toNat_unpackExponent] at hnat
    have hgreatest : bits x / leadingBit % 2048 = 2047 := hnat
    unfold Binary64.isFinite toRat? at h
    rw [value_eq, if_pos hgreatest] at h
    split at h
    · next heq => split at heq <;> cases heq
    · exact Bool.false_ne_true h
  have hunpack : x.toModel.unpack = UnpackedFloat.unpack Format.binary64 x.toBits.toBitVec := rfl
  rw [hunpack]
  -- with another exponent a double is zero, below the normal ones or normal
  have hcases : ∀ u, UnpackedFloat.unpack Format.binary64 x.toBits.toBitVec = u → u ≠ .notANumber ∧ ∀ s, u ≠ .infinity s := by
    intro u hu
    unfold UnpackedFloat.unpack at hu
    rcases ite_eq_iff.1 hu with ⟨hexponent, -⟩ | ⟨-, hu⟩
    · exact absurd hexponent hfield
    · rcases ite_eq_iff.1 hu with ⟨-, hu⟩ | ⟨-, hu⟩
      · rcases dite_eq_iff.1 hu with ⟨_, rfl⟩ | ⟨_, rfl⟩ <;> exact ⟨nofun, nofun⟩
      · exact hu ▸ ⟨nofun, nofun⟩
  exact hcases _ rfl

theorem isNumber_add (hx : IsNumber x) (hy : Binary64.isFinite y = true) : IsNumber (x + y) := by
  obtain ⟨hnumber, hfinite⟩ := unpack_of_isFinite hy
  exact isNumber_pack (add_ne (isNumber_iff.1 hx) hnumber hfinite)

theorem bits_natCast_lt {k : Nat} (hk : k ≤ countBound) : bits (k : Float) < infinityBits := by
  rw [bits_natCast, nearestBits_lt_infinityBits_iff _ Nat.one_pos, Nat.mul_one]
  exact hk.trans_lt countBound_lt

/-- A count is not zero, and finite if it is not too large. -/
theorem unpack_natCast {k : Nat} (hpos : 0 < k) (hk : k ≤ countBound) :
    ∃ m e, ∃ hm : 0 < m, (k : Float).toModel.unpack = .finite .positive m e hm := by
  obtain ⟨q, hq⟩ := standsFor_of_bits_lt (bits_natCast_lt hk)
  have hone : (1 : ℚ) ≤ q := by
    have hbits : bits ((1 : Nat) : Float) ≤ bits (k : Float) := by
      rw [bits_natCast, bits_natCast]
      exact nearestBits_natCast_mono hpos
    simpa using (standsFor_natCast (k := 1) (by decide)).le_of_bits_le hq hbits
  rcases hq.unpack_cases with ⟨-, rfl⟩ | ⟨m, e, hm, hu, -⟩
  · exact absurd hone (by norm_num)
  · exact ⟨m, e, hm, hu⟩

theorem isNumber_div_natCast {k : Nat} (hx : IsNumber x) (hpos : 0 < k) (hk : k ≤ countBound) :
    IsNumber (x / (k : Float)) := by
  obtain ⟨m, e, hm, hu⟩ := unpack_natCast hpos hk
  have hdiv : UnpackedFloat.div Format.binary64 x.toModel.unpack (k : Float).toModel.unpack ≠ .notANumber := by
    rw [hu]
    exact div_ne (isNumber_iff.1 hx)
  exact isNumber_pack hdiv

/-! ## Means -/

theorem isNumber_zero : IsNumber (0 : Float) := isNumber_iff.2 nofun

theorem isNumber_sum {values : List Float} (h : ∀ v ∈ values, Binary64.isFinite v = true) (hx : IsNumber x) :
    IsNumber (values.foldl (· + ·) x) := by
  induction values generalizing x with
  | nil => exact hx
  | cons v values ih =>
    obtain ⟨hv, h⟩ := List.forall_mem_cons.1 h
    exact ih h (isNumber_add hx hv)

theorem isNumber_mean {values : List Float} (h : ∀ v ∈ values, Binary64.isFinite v = true)
    (hlength : values.length ≤ countBound) : IsNumber (mean values) := by
  unfold mean
  split
  · exact isNumber_zero
  · next hne =>
    have hpos : 0 < values.length := List.length_pos_of_ne_nil fun hnil => hne (by rw [hnil]; rfl)
    exact isNumber_div_natCast (isNumber_sum h isNumber_zero) hpos hlength

end Doubles

end CouplingTree
