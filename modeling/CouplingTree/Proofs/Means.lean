import Mathlib.Data.List.Nodup
import Mathlib.Data.List.Perm.Basic
import Mathlib.Data.List.ProdSigma
import Mathlib.Algebra.BigOperators.Group.List.Basic
import Mathlib.Algebra.Order.BigOperators.Group.List
import Mathlib.Algebra.Order.Field.Rat
import Mathlib.Algebra.Order.Field.Basic
import Mathlib.Tactic.Linarith
import CouplingTree.CouplingMap
import CouplingTree.Proofs.Names
import CouplingTree.Numbers.Scalar

/-!
# Means over pairs

Means of rational numbers, and what they are bounded by.

* `mean_eq` : the mean is the sum over the number of values, and zero when there are none.
* `mean_le_iff`, `le_mean_iff` : bounds of a mean are bounds of the sum.
* `mean_pos` : a mean is positive if one value is and none is negative.
* `mean_append_le` : a mean over two lists is at most what both means are at most.

The pairs that a mean is taken over, up to their order.

* `crossPairs_perm` : both products of two sets; hence `crossPairs_comm` and `crossPairs_union`.
* `mem_crossPairs` : a pair across two sets has an end in either; `length_crossPairs`, `nodup_crossPairs` : how many there are.
* `mem_distinctPairs`, `length_innerPairs`, `nodup_innerPairs` : likewise for the pairs of distinct names.
* `innerPairs_union` : inside a disjoint union are the pairs inside either set and those across the two.

The means of the clustering as functions of the sets they are taken over, for rational values.

* `between_comm` : both directions are pooled, so the order of the two sets does not matter.
* `between_le` : a mean of recorded values is at most what they are all at most.
* `between_union_le` : a union couples with a third set at most as much as the more coupled of its two parts.
* `inner_union_perm` : inside a disjoint union are recorded the values inside both parts and those across them.
-/

namespace CouplingTree

variable {v : Rat} {values xs ys : List Rat}

theorem mean_eq (values : List Rat) : mean values = values.sum / values.length := by
  unfold mean
  split
  · next h => rw [List.isEmpty_iff.1 h, List.sum_nil, zero_div]
  · rw [List.sum_eq_foldl]

theorem mean_perm (h : xs.Perm ys) : mean xs = mean ys := by
  rw [mean_eq, mean_eq, h.sum_eq, h.length_eq]

theorem length_pos_of_ne_nil (h : values ≠ []) : (0 : Rat) < values.length := by
  exact_mod_cast List.length_pos_of_ne_nil h

/-- The mean of no values is zero, so the bound must not be negative. -/
theorem mean_le_iff (hv : 0 ≤ v) : mean values ≤ v ↔ values.sum ≤ v * values.length := by
  rw [mean_eq]
  by_cases h : values = []
  · simp [h, hv]
  · exact div_le_iff₀ (length_pos_of_ne_nil h)

theorem mean_le (hv : 0 ≤ v) (h : ∀ x ∈ values, x ≤ v) : mean values ≤ v := by
  rw [mean_le_iff hv, mul_comm, ← nsmul_eq_mul]
  exact List.sum_le_card_nsmul values v h

theorem le_mean_iff (h : values ≠ []) : v ≤ mean values ↔ v * values.length ≤ values.sum := by
  rw [mean_eq]
  exact le_div_iff₀ (length_pos_of_ne_nil h)

theorem sum_eq_mean_mul (values : List Rat) : values.sum = mean values * values.length := by
  rw [mean_eq]
  by_cases h : values = []
  · simp [h]
  · exact (div_mul_cancel₀ _ (length_pos_of_ne_nil h).ne').symm

theorem ne_nil_of_mean_pos (h : 0 < mean values) : values ≠ [] := by
  rintro rfl
  rw [mean_eq, List.sum_nil, zero_div] at h
  exact lt_irrefl _ h

theorem mean_pos (h : ∀ x ∈ values, 0 ≤ x) (hv : v ∈ values) (hpos : 0 < v) : 0 < mean values := by
  rw [mean_eq]
  exact div_pos (hpos.trans_le (List.single_le_sum h v hv)) (length_pos_of_ne_nil (List.ne_nil_of_mem hv))

theorem mean_append_le (hv : 0 ≤ v) (hx : mean xs ≤ v) (hy : mean ys ≤ v) : mean (xs ++ ys) ≤ v := by
  rw [mean_le_iff hv] at hx hy ⊢
  rw [List.sum_append, List.length_append, Nat.cast_add, mul_add]
  exact add_le_add hx hy

/-- Values that make up at least `v` each on average. -/
def AtLeast (v : Rat) (values : List Rat) : Prop := v * values.length ≤ values.sum

theorem atLeast_nil (v : Rat) : AtLeast v [] := by simp [AtLeast]

theorem atLeast_mean (values : List Rat) : AtLeast (mean values) values := (sum_eq_mean_mul values).ge

theorem AtLeast.append (hx : AtLeast v xs) (hy : AtLeast v ys) : AtLeast v (xs ++ ys) := by
  unfold AtLeast at *
  rw [List.sum_append, List.length_append, Nat.cast_add, mul_add]
  exact add_le_add hx hy

theorem AtLeast.mono {w : Rat} (h : AtLeast v values) (hw : w ≤ v) : AtLeast w values :=
  (mul_le_mul_of_nonneg_right hw (Nat.cast_nonneg _)).trans h

theorem AtLeast.perm (h : AtLeast v xs) (hp : xs.Perm ys) : AtLeast v ys := by
  unfold AtLeast at *
  rwa [← hp.sum_eq, ← hp.length_eq]

end CouplingTree

namespace CouplingTree.Lookup
open scoped List

variable {s t u : NameSet}

/-! ## Products -/

section Products

variable {β γ δ : Type}

theorem product_append_left (xs ys : List β) (zs : List γ) :
    (xs ++ ys).product zs = xs.product zs ++ ys.product zs := List.flatMap_append

theorem product_append_right (xs : List β) (ys zs : List γ) :
    (xs.product (ys ++ zs)).Perm (xs.product ys ++ xs.product zs) := by
  unfold List.product
  simp only [List.map_append]
  exact (List.flatMap_append_perm xs _ _).symm

theorem flatMap_comm (xs : List β) (ys : List γ) (f : β → γ → δ) :
    (xs.flatMap fun a => ys.map fun b => f a b).Perm (ys.flatMap fun b => xs.map fun a => f a b) := by
  induction xs with
  | nil => simp
  | cons x xs ih =>
    simp only [List.flatMap_cons, List.map_cons]
    exact (ih.append_left _).trans (List.map_append_flatMap_perm ys (f x) _)

end Products

/-! ## Across two sets -/

theorem crossPairs_perm (s t : NameSet) :
    (crossPairs s t).Perm (s.toList.product t.toList ++ t.toList.product s.toList) := by
  have hsplit : (crossPairs s t).Perm
      (s.toList.product t.toList ++ s.toList.flatMap fun a => t.toList.map fun b => (b, a)) := by
    refine List.Perm.trans (List.Perm.flatMap_left _ fun a _ => ?_) (List.flatMap_append_perm s.toList _ _).symm
    have hpair := List.map_append_flatMap_perm t.toList (fun b => (a, b)) fun b => [(b, a)]
    rw [← List.map_eq_flatMap] at hpair
    exact hpair.symm
  exact hsplit.trans ((flatMap_comm s.toList t.toList fun a b => (b, a)).append_left _)

theorem crossPairs_comm (s t : NameSet) : (crossPairs s t).Perm (crossPairs t s) :=
  (crossPairs_perm s t).trans (List.perm_append_comm.trans (crossPairs_perm t s).symm)

theorem mem_crossPairs {p : String × String} : p ∈ crossPairs s t ↔ p.1 ∈ s ∧ p.2 ∈ t ∨ p.1 ∈ t ∧ p.2 ∈ s := by
  rw [(crossPairs_perm s t).mem_iff, List.mem_append]
  exact or_congr List.mem_product List.mem_product

theorem length_crossPairs (s t : NameSet) : (crossPairs s t).length = 2 * (s.size * t.size) := by
  have hst : (s.toList.product t.toList).length = s.size * t.size := List.length_product ..
  have hts : (t.toList.product s.toList).length = t.size * s.size := List.length_product ..
  rw [(crossPairs_perm s t).length_eq, List.length_append, hst, hts, Nat.mul_comm t.size, Nat.two_mul]

/-- The two directions are different pairs, as the sets share no name. -/
theorem nodup_crossPairs (h : s.Apart t) : (crossPairs s t).Nodup := by
  rw [(crossPairs_perm s t).nodup_iff]
  refine List.nodup_append.2 ⟨List.Nodup.product s.nodup t.nodup, List.Nodup.product t.nodup s.nodup, fun p hp q hq heq => ?_⟩
  obtain ⟨hs, -⟩ := List.mem_product.1 hp
  obtain ⟨ht, -⟩ := List.mem_product.1 (heq ▸ hq)
  exact h p.1 hs ht

theorem crossPairs_union (s : NameSet) (h : t.Apart u) :
    (crossPairs s (t.union u)).Perm (crossPairs s t ++ crossPairs s u) := by
  have hu := NameSet.union_perm h
  calc crossPairs s (t.union u)
      _ ~ s.toList.product (t.union u).toList ++ (t.union u).toList.product s.toList := crossPairs_perm _ _
      _ ~ s.toList.product (t.toList ++ u.toList) ++ (t.toList ++ u.toList).product s.toList :=
        (hu.product_left _).append (hu.product_right _)
      _ ~ s.toList.product t.toList ++ s.toList.product u.toList ++
          (t.toList.product s.toList ++ u.toList.product s.toList) := by
        rw [product_append_left]
        exact (product_append_right _ _ _).append_right _
      _ ~ s.toList.product t.toList ++ t.toList.product s.toList ++
          (s.toList.product u.toList ++ u.toList.product s.toList) := by
        simp only [List.append_assoc]
        exact (List.perm_append_comm_assoc _ _ _).append_left _
      _ ~ crossPairs s t ++ crossPairs s u := ((crossPairs_perm s t).append (crossPairs_perm s u)).symm

/-! ## Inside a set -/

/-- The pairs of a name and a different one. -/
def distinctPairs (xs ys : List String) : List (String × String) :=
  xs.flatMap fun a => (ys.filter fun b => decide (a ≠ b)).map fun b => (a, b)

theorem mem_distinctPairs {xs ys : List String} {a b : String} :
    (a, b) ∈ distinctPairs xs ys ↔ a ∈ xs ∧ b ∈ ys ∧ a ≠ b := by
  simp [distinctPairs]

theorem nodup_distinctPairs {xs ys : List String} (hx : xs.Nodup) (hy : ys.Nodup) : (distinctPairs xs ys).Nodup := by
  refine List.nodup_flatMap.2 ⟨fun a _ => ?_, hx.imp fun {a b} hne => ?_⟩
  · exact (hy.filter _).map fun b b' e => (Prod.mk.inj e).2
  · intro p ha hb
    obtain ⟨_, _, rfl⟩ := List.mem_map.1 ha
    obtain ⟨_, _, e⟩ := List.mem_map.1 hb
    exact hne (Prod.mk.inj e).1.symm

/-- Each name stands with all names but itself. -/
theorem length_distinctPairs_self {xs : List String} (h : xs.Nodup) :
    (distinctPairs xs xs).length = xs.length * (xs.length - 1) := by
  have hrow : ∀ a ∈ xs, ((xs.filter fun b => decide (a ≠ b)).map fun b => (a, b)).length = xs.length - 1 := by
    intro a ha
    have hfilter : (xs.filter fun b => decide (a ≠ b)) = xs.erase a := by
      rw [h.erase_eq_filter]
      refine List.filter_congr fun b _ => ?_
      rw [bne_comm, Bool.eq_iff_iff, decide_eq_true_iff, bne_iff_ne]
    rw [List.length_map, hfilter, List.length_erase_of_mem ha]
  rw [distinctPairs, List.length_flatMap, List.map_congr_left hrow, List.map_const', List.sum_replicate_nat]

theorem distinctPairs_append_left (xs ys zs : List String) :
    distinctPairs (xs ++ ys) zs = distinctPairs xs zs ++ distinctPairs ys zs := List.flatMap_append

theorem distinctPairs_append_right (xs ys zs : List String) :
    (distinctPairs xs (ys ++ zs)).Perm (distinctPairs xs ys ++ distinctPairs xs zs) := by
  unfold distinctPairs
  simp only [List.filter_append, List.map_append]
  exact (List.flatMap_append_perm xs _ _).symm

theorem distinctPairs_perm {xs xs' ys ys' : List String} (hx : xs.Perm xs') (hy : ys.Perm ys') :
    (distinctPairs xs ys).Perm (distinctPairs xs' ys') :=
  hx.flatMap fun _ _ => (hy.filter _).map _

/-- No name of one list is in the other, so no pair is left out. -/
theorem distinctPairs_of_apart (h : s.Apart t) : distinctPairs s.toList t.toList = s.toList.product t.toList := by
  refine List.flatMap_congr fun a ha => ?_
  have hall : ∀ b ∈ t.toList, decide (a ≠ b) = true := fun b hb => decide_eq_true fun e => h a ha (e ▸ hb)
  rw [List.filter_eq_self.2 hall]

theorem nodup_innerPairs (s : NameSet) : (innerPairs s).Nodup := nodup_distinctPairs s.nodup s.nodup

theorem length_innerPairs (s : NameSet) : (innerPairs s).length = s.size * (s.size - 1) := length_distinctPairs_self s.nodup

theorem innerPairs_union (h : s.Apart t) :
    (innerPairs (s.union t)).Perm (innerPairs s ++ innerPairs t ++ crossPairs s t) := by
  have hu := NameSet.union_perm h
  calc innerPairs (s.union t)
      _ ~ distinctPairs (s.toList ++ t.toList) (s.toList ++ t.toList) := distinctPairs_perm hu hu
      _ ~ innerPairs s ++ s.toList.product t.toList ++ (t.toList.product s.toList ++ innerPairs t) := by
        rw [distinctPairs_append_left, ← distinctPairs_of_apart h, ← distinctPairs_of_apart h.symm]
        exact (distinctPairs_append_right _ _ _).append (distinctPairs_append_right _ _ _)
      _ ~ innerPairs s ++ innerPairs t ++ (s.toList.product t.toList ++ t.toList.product s.toList) := by
        simp only [List.append_assoc]
        refine List.Perm.append_left _ ?_
        rw [← List.append_assoc]
        exact List.perm_append_comm
      _ ~ innerPairs s ++ innerPairs t ++ crossPairs s t := (crossPairs_perm s t).symm.append_left _

theorem innerPairs_singleton (x : String) : innerPairs (.singleton x) = [] := by
  simp [innerPairs, NameSet.singleton]

/-! ## Recorded values -/

/-- The values recorded across two sets. -/
def cross {α : Type} (value? : Lookup α) (s t : NameSet) : List α := (crossPairs s t).filterMap value?

/-- The values recorded inside a set. -/
def inner {α : Type} (value? : Lookup α) (s : NameSet) : List α := (innerPairs s).filterMap value?

theorem inner_union_perm {α : Type} (value? : Lookup α) (h : s.Apart t) :
    (value?.inner (s.union t)).Perm (value?.inner s ++ value?.inner t ++ value?.cross s t) := by
  have hperm := (innerPairs_union h).filterMap value?
  rwa [List.filterMap_append, List.filterMap_append] at hperm

theorem inner_singleton {α : Type} (value? : Lookup α) (x : String) : value?.inner (.singleton x) = [] := by
  rw [inner, innerPairs_singleton]
  rfl

/-- The mean across two sets depends on the pairs across them only. -/
theorem between_congr {α : Type} [Scalar α] {value? value'? : Lookup α} (h : ∀ p ∈ crossPairs s t, value? p = value'? p) :
    value?.between s t = value'?.between s t := by
  rw [between, between, List.filterMap_congr h]

/-! ## Means -/

variable (value? : Lookup Rat)

theorem between_eq (s t : NameSet) : value?.between s t = mean (value?.cross s t) := rfl

theorem within_eq (s : NameSet) : value?.within s = mean (value?.inner s) := rfl

theorem between_comm (s t : NameSet) : value?.between s t = value?.between t s := by
  rw [between_eq, between_eq]
  exact mean_perm ((crossPairs_comm s t).filterMap value?)

theorem between_union (h : t.Apart u) :
    value?.between s (t.union u) = mean (value?.cross s t ++ value?.cross s u) := by
  rw [between_eq]
  refine mean_perm ?_
  have hperm := (crossPairs_union s h).filterMap value?
  rwa [List.filterMap_append] at hperm

variable {value?} {v : Rat}

theorem between_le (hv : 0 ≤ v) (h : ∀ p x, value? p = some x → x ≤ v) : value?.between s t ≤ v := by
  refine mean_le hv fun x hx => ?_
  obtain ⟨p, -, hp⟩ := List.mem_filterMap.1 hx
  exact h p x hp

theorem between_union_le (h : t.Apart u) (hv : 0 ≤ v) (ht : value?.between s t ≤ v)
    (hu : value?.between s u ≤ v) : value?.between s (t.union u) ≤ v := by
  rw [between_union value? h]
  exact mean_append_le hv ht hu

end CouplingTree.Lookup
