import Mathlib.Algebra.Order.Field.Rat
import CouplingTree.Numbers.Scalar

/-!
# Comparing numbers

What the clustering relies on when it compares couplings, for numbers some of which may not be comparable, not even to
themselves.

* `LawfulScalar` : the numbers that are comparable to themselves are ordered, and zeros stay zeros in sums and quotients.
* `lawfulScalarRat` : the rational numbers are lawful.
* `Scalar.IsNumber` : a number that is comparable to itself.
* `Scalar.not_lt_iff` : of two comparable numbers, one is not less exactly when the other is at most it.
* `Scalar.mean_isZero` : a mean of zeros is not above zero.
-/

namespace CouplingTree

/-- Neither below zero nor above it; there may be several such numbers. -/
def Scalar.IsZero {α : Type} [Scalar α] (a : α) : Prop := a ≤ 0 ∧ 0 ≤ a

/-- Comparable to itself, as a double is unless it stands for no number. -/
def Scalar.IsNumber {α : Type} [Scalar α] (a : α) : Prop := a ≤ a

instance Scalar.decidableIsNumber {α : Type} [Scalar α] (a : α) : Decidable (Scalar.IsNumber a) :=
  inferInstanceAs (Decidable (a ≤ a))

/-- A number is comparable to others if it is comparable to itself. -/
class LawfulScalar (α : Type) [Scalar α] : Prop where
  lt_iff : ∀ a b : α, a < b ↔ a ≤ b ∧ ¬ b ≤ a
  trans : ∀ a b c : α, a ≤ b → b ≤ c → a ≤ c
  comparable : ∀ a b : α, a ≤ b → a ≤ a ∧ b ≤ b
  total : ∀ a b : α, a ≤ a → b ≤ b → a ≤ b ∨ b ≤ a
  zero_isZero : Scalar.IsZero (0 : α)
  add_isZero : ∀ a b : α, Scalar.IsZero a → Scalar.IsZero b → Scalar.IsZero (a + b)
  div_isZero : ∀ a b : α, Scalar.IsZero a → ¬ 0 < a / b

namespace Scalar

variable {α : Type} [Scalar α] [LawfulScalar α] {a b c : α}

/-! ## Order -/

protected theorem not_ge_of_lt (h : a < b) : ¬ b ≤ a := ((LawfulScalar.lt_iff a b).1 h).2

protected theorem le_of_lt (h : a < b) : a ≤ b := ((LawfulScalar.lt_iff a b).1 h).1

protected theorem lt_of_lt_of_le (h : a < b) (h' : b ≤ c) : a < c :=
  (LawfulScalar.lt_iff a c).2 ⟨LawfulScalar.trans a b c (Scalar.le_of_lt h) h',
    fun hca => Scalar.not_ge_of_lt h (LawfulScalar.trans b c a h' hca)⟩

protected theorem lt_of_le_of_lt (h : a ≤ b) (h' : b < c) : a < c :=
  (LawfulScalar.lt_iff a c).2 ⟨LawfulScalar.trans a b c h (Scalar.le_of_lt h'),
    fun hca => Scalar.not_ge_of_lt h' (LawfulScalar.trans c a b hca h)⟩

protected theorem not_lt_of_lt (h : a < b) : ¬ b < a := fun h' => Scalar.not_ge_of_lt h (Scalar.le_of_lt h')

/-- What is above something is comparable. -/
theorem comparable_of_lt (h : a < b) : b ≤ b := (LawfulScalar.comparable a b (Scalar.le_of_lt h)).2

protected theorem not_lt_iff (ha : a ≤ a) (hb : b ≤ b) : ¬ a < b ↔ b ≤ a := by
  rw [LawfulScalar.lt_iff, not_and, not_not]
  refine ⟨fun h => ?_, fun h _ => h⟩
  rcases LawfulScalar.total a b ha hb with hab | hba
  · exact h hab
  · exact hba

theorem lt_of_not_le (ha : IsNumber a) (hb : IsNumber b) (h : ¬ a ≤ b) : b < a :=
  (LawfulScalar.lt_iff b a).2 ⟨(LawfulScalar.total a b ha hb).resolve_left h, h⟩

/-! ## Zeros -/

theorem foldl_isZero : ∀ {values : List α} {a : α}, IsZero a → (∀ v ∈ values, IsZero v) →
    IsZero (values.foldl (· + ·) a)
  | [], _, ha, _ => ha
  | v :: values, a, ha, h => by
    obtain ⟨hv, h⟩ := List.forall_mem_cons.1 h
    rw [List.foldl_cons]
    exact foldl_isZero (LawfulScalar.add_isZero a v ha hv) h

theorem mean_isZero {values : List α} (h : ∀ v ∈ values, IsZero v) : ¬ 0 < mean values := by
  unfold mean
  split
  · exact fun hlt => Scalar.not_lt_of_lt hlt hlt
  · exact LawfulScalar.div_isZero _ _ (foldl_isZero LawfulScalar.zero_isZero h)

end Scalar

/-! ## Rational numbers -/

theorem Scalar.isZero_rat {q : Rat} : Scalar.IsZero q ↔ q = 0 := le_antisymm_iff.symm

instance lawfulScalarRat : LawfulScalar Rat where
  lt_iff _ _ := lt_iff_le_not_ge
  trans _ _ _ := le_trans
  comparable a b _ := ⟨le_refl a, le_refl b⟩
  total a b _ _ := le_total a b
  zero_isZero := Scalar.isZero_rat.2 rfl
  add_isZero a b ha hb := by
    rw [Scalar.isZero_rat] at ha hb ⊢
    rw [ha, hb]
    exact add_zero 0
  div_isZero a b ha := by
    rw [Scalar.isZero_rat.1 ha]
    exact (zero_div b).le.not_gt

end CouplingTree
