import Mathlib.Algebra.Order.Group.Int
import Mathlib.Data.Prod.Lex
import CouplingTree.Proofs.Numbers.Comparison

/-!
# Comparing doubles

A double that is a number has a rank, and doubles compare as their ranks do. Both zeros have the same rank, and what is
not a number has none.

* `Doubles.compare_eq` : a comparison is one of ranks; hence `Doubles.le_iff` and `Doubles.lt_iff`.
* `Doubles.isZero_iff` : the two zeros are the zeros.
* `lawfulScalarFloat` : so doubles are lawful.
-/

namespace CouplingTree
namespace Doubles
open Float.Model

/-! ## Ranks -/

/-- Sign and kind first, then exponent and mantissa, which count downwards below zero. -/
abbrev Rank := Int ×ₗ Int ×ₗ Int

def Rank.of (kind exponent mantissa : Int) : Rank := toLex (kind, toLex (exponent, mantissa))

def rankOf? : UnpackedFloat → Option Rank
  | .notANumber => none
  | .infinity .negative => some (.of (-2) 0 0)
  | .finite .negative m e _ => some (.of (-1) (-e) (-m))
  | .zero _ => some (.of 0 0 0)
  | .finite .positive m e _ => some (.of 1 e m)
  | .infinity .positive => some (.of 2 0 0)

def rank? (x : Float) : Option Rank := rankOf? x.toModel.unpack

theorem Rank.compare_of (k e m k' e' m' : Int) :
    compare (Rank.of k e m) (Rank.of k' e' m') = (compare k k').then ((compare e e').then (compare m m')) := rfl

theorem compare_neg (a b : Int) : compare (-a) (-b) = (compare a b).swap := by
  rw [Int.compare_swap]
  simp only [compare, compareOfLessAndEq, Int.neg_lt_neg_iff, Int.neg_inj, eq_comm]

theorem compare_natCast (m n : Nat) : compare (m : Int) (n : Int) = compare m n := by
  simp only [compare, compareOfLessAndEq, Int.ofNat_lt, Int.natCast_inj]

/-- Numbers of the same sign compare by exponent and mantissa, all others by their kind. -/
theorem compare_eq (a b : UnpackedFloat) :
    a.compare b = (rankOf? a).bind fun r => (rankOf? b).map fun s => compare r s := by
  cases a with
  | notANumber => rfl
  | infinity s =>
    cases b with
    | notANumber => cases s <;> rfl
    | infinity t => cases s <;> cases t <;> rfl
    | zero t => cases s <;> rfl
    | finite t m e hm => cases s <;> cases t <;> rfl
  | zero s =>
    cases b with
    | notANumber => rfl
    | infinity t => cases t <;> rfl
    | zero t => rfl
    | finite t m e hm => cases t <;> rfl
  | finite s m e hm =>
    cases b with
    | notANumber => cases s <;> rfl
    | infinity t => cases s <;> cases t <;> rfl
    | zero t => cases s <;> rfl
    | finite t m' e' hm' =>
      cases s <;> cases t
      case negative.positive => rfl
      case positive.negative => rfl
      case negative.negative =>
        have hranks : compare (Rank.of (-1) (-e) (-m)) (Rank.of (-1) (-e') (-m')) =
            ((compare e e').then (compare m m')).swap := by
          rw [Rank.compare_of, compare_neg e, compare_neg (m : Int), compare_natCast, Ordering.swap_then]
          rfl
        exact congrArg some hranks.symm
      case positive.positive =>
        have hranks : compare (Rank.of 1 e m) (Rank.of 1 e' m') = (compare e e').then (compare m m') := by
          rw [Rank.compare_of, compare_natCast]
          rfl
        exact congrArg some hranks.symm

/-! ## Comparisons -/

variable {x y : Float}

theorem le_iff : x ≤ y ↔ ∃ r s, rank? x = some r ∧ rank? y = some s ∧ r ≤ s := by
  have hle : x ≤ y ↔ x.toModel.unpack.le y.toModel.unpack = true := decide_eq_true_iff
  rw [hle, UnpackedFloat.le, compare_eq, rank?, rank?]
  cases rankOf? x.toModel.unpack <;> cases rankOf? y.toModel.unpack <;>
    simp [← Ordering.ne_gt_iff_isLE, compare_le_iff_le]

theorem lt_iff : x < y ↔ ∃ r s, rank? x = some r ∧ rank? y = some s ∧ r < s := by
  have hlt : x < y ↔ x.toModel.unpack.lt y.toModel.unpack = true := decide_eq_true_iff
  rw [hlt, UnpackedFloat.lt, compare_eq, rank?, rank?]
  cases rankOf? x.toModel.unpack <;> cases rankOf? y.toModel.unpack <;> simp [compare_lt_iff_lt]

/-! ## Zeros -/

theorem rankOf?_eq_zero {a : UnpackedFloat} : rankOf? a = some (.of 0 0 0) ↔ ∃ s, a = .zero s := by
  have hkind : ∀ {k e m : Int}, k ≠ 0 → some (Rank.of k e m) ≠ some (.of 0 0 0) := fun hk h =>
    hk (congrArg (fun r => (ofLex r).1) (Option.some.inj h))
  constructor
  · intro h
    cases a with
    | notANumber => cases h
    | zero s => exact ⟨s, rfl⟩
    | infinity s => cases s <;> exact absurd h (hkind (by decide))
    | finite s m e hm => cases s <;> exact absurd h (hkind (by decide))
  · rintro ⟨s, rfl⟩
    rfl

theorem unpack_pack_zero (s : UnpackedFloat.Sign) : (Float.Model.pack (.zero s)).unpack = .zero s := by
  cases s <;> rfl

theorem unpack_pack_notANumber : (Float.Model.pack .notANumber).unpack = .notANumber := rfl

theorem rank?_zero : rank? 0 = some (.of 0 0 0) := rfl

theorem isZero_iff : Scalar.IsZero x ↔ ∃ s, x.toModel.unpack = .zero s := by
  rw [← rankOf?_eq_zero]
  constructor
  · rintro ⟨hle, hge⟩
    obtain ⟨r, s, hr, hs, hrs⟩ := le_iff.1 hle
    obtain ⟨s', r', hs', hr', hsr⟩ := le_iff.1 hge
    cases rank?_zero.symm.trans hs
    cases rank?_zero.symm.trans hs'
    cases hr.symm.trans hr'
    rw [le_antisymm hsr hrs]
    exact hr
  · intro h
    exact ⟨le_iff.2 ⟨_, _, h, rank?_zero, le_refl _⟩, le_iff.2 ⟨_, _, rank?_zero, h, le_refl _⟩⟩

theorem add_isZero (hx : Scalar.IsZero x) (hy : Scalar.IsZero y) : Scalar.IsZero (x + y) := by
  obtain ⟨s, hs⟩ := isZero_iff.1 hx
  obtain ⟨t, ht⟩ := isZero_iff.1 hy
  have hadd : ∃ u, UnpackedFloat.add Format.binary64 (.zero s) (.zero t) = .zero u := by
    cases s <;> cases t <;> exact ⟨_, rfl⟩
  obtain ⟨u, hu⟩ := hadd
  refine isZero_iff.2 ⟨u, ?_⟩
  change (Float.Model.pack (UnpackedFloat.add Format.binary64 x.toModel.unpack y.toModel.unpack)).unpack = _
  rw [hs, ht, hu, unpack_pack_zero]

/-- Divided by zero or by what is not a number, a zero gives no number, and otherwise a zero. -/
theorem zero_div_cases (s : UnpackedFloat.Sign) (b : UnpackedFloat) :
    UnpackedFloat.div Format.binary64 (.zero s) b = .notANumber ∨
      ∃ t, UnpackedFloat.div Format.binary64 (.zero s) b = .zero t := by
  cases b with
  | notANumber => exact Or.inl rfl
  | zero t => exact Or.inl rfl
  | infinity t => exact Or.inr ⟨_, rfl⟩
  | finite t m e hm => exact Or.inr ⟨_, rfl⟩

theorem rank?_div (hx : Scalar.IsZero x) (y : Float) : rank? (x / y) = none ∨ rank? (x / y) = some (.of 0 0 0) := by
  obtain ⟨s, hs⟩ := isZero_iff.1 hx
  have hdiv : rank? (x / y) =
      rankOf? (Float.Model.pack (UnpackedFloat.div Format.binary64 (.zero s) y.toModel.unpack)).unpack := by
    rw [← hs]
    rfl
  rw [hdiv]
  rcases zero_div_cases s y.toModel.unpack with h | ⟨t, h⟩
  · rw [h, unpack_pack_notANumber]
    exact Or.inl rfl
  · rw [h, unpack_pack_zero]
    exact Or.inr rfl

theorem div_isZero (hx : Scalar.IsZero x) (y : Float) : ¬ 0 < x / y := by
  intro h
  obtain ⟨r, s, hr, hs, hlt⟩ := lt_iff.1 h
  cases rank?_zero.symm.trans hr
  rcases rank?_div hx y with hnone | hzero
  · cases hnone.symm.trans hs
  · cases hzero.symm.trans hs
    exact lt_irrefl _ hlt

end Doubles

/-! ## Laws -/

open Doubles in
instance lawfulScalarFloat : LawfulScalar Float where
  lt_iff x y := by
    rw [Doubles.lt_iff, Doubles.le_iff, Doubles.le_iff]
    constructor
    · rintro ⟨r, s, hr, hs, hlt⟩
      refine ⟨⟨r, s, hr, hs, hlt.le⟩, ?_⟩
      rintro ⟨s', r', hs', hr', hle⟩
      cases hr.symm.trans hr'
      cases hs.symm.trans hs'
      exact absurd hle hlt.not_ge
    · rintro ⟨⟨r, s, hr, hs, hle⟩, hnot⟩
      exact ⟨r, s, hr, hs, lt_of_le_not_ge hle fun hge => hnot ⟨s, r, hs, hr, hge⟩⟩
  trans x y z hxy hyz := by
    obtain ⟨r, s, hr, hs, hrs⟩ := Doubles.le_iff.1 hxy
    obtain ⟨s', t, hs', ht, hst⟩ := Doubles.le_iff.1 hyz
    cases hs.symm.trans hs'
    exact Doubles.le_iff.2 ⟨r, t, hr, ht, hrs.trans hst⟩
  comparable x y hxy := by
    obtain ⟨r, s, hr, hs, -⟩ := Doubles.le_iff.1 hxy
    exact ⟨Doubles.le_iff.2 ⟨r, r, hr, hr, le_refl r⟩, Doubles.le_iff.2 ⟨s, s, hs, hs, le_refl s⟩⟩
  total x y hx hy := by
    obtain ⟨r, -, hr, -⟩ := Doubles.le_iff.1 hx
    obtain ⟨s, -, hs, -⟩ := Doubles.le_iff.1 hy
    rcases le_total r s with hrs | hsr
    · exact Or.inl (Doubles.le_iff.2 ⟨r, s, hr, hs, hrs⟩)
    · exact Or.inr (Doubles.le_iff.2 ⟨s, r, hs, hr, hsr⟩)
  zero_isZero := isZero_iff.2 ⟨.positive, rfl⟩
  add_isZero _ _ := add_isZero
  div_isZero _ y hx := div_isZero hx y

end CouplingTree
