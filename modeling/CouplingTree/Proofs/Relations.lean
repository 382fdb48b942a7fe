import Mathlib.Algebra.BigOperators.Ring.Finset
import CouplingTree.Proofs.Means

/-!
# Shares of the relations, and the classes that have them

* `CallGraph.totalRelations_eq` : the relations of all ordered pairs of distinct classes, each pair counted once.
* `CallGraph.entries_normalizedCoupling` : each such pair has its share of them.
* `CallGraph.share_le_one` : with rational numbers no share is more than one.
* `CouplingMap.classes_eq` : the classes of a coupling map stand in the order in which the keys first name them.
* `CallGraph.mem_classes_normalizedCoupling` : a class is named by the coupling exactly when there is another one.
* `CallGraph.classes_normalizedCoupling_perm`, `CallGraph.classes_normalizedCoupling_eq_nil` : so the classes of the
  coupling are those of the call graph, unless there is only one, which no pair names.

With rational numbers the shares of a call graph add up to one, or all are zero. A mean over some pairs is therefore at most
one over their number.

* `CallGraph.normalized_normalizedCoupling` : what is known of the coupling of a call graph.
* `CallGraph.mean_shares_le` : the bound of a mean over different pairs.
* `CallGraph.between_normalizedCoupling_le`, `CallGraph.cohesion_normalizedCoupling_le` : hence bounds of the coupling of two
  sets of classes and of the cohesion of one.
-/

namespace CouplingTree

namespace CallGraph

/-- The ordered pairs of distinct classes. -/
def pairs (g : CallGraph) : List (String × String) := g.names.flatMap fun a => (g.others a).map fun b => (a, b)

/-- The share of a pair in all relations. -/
def share {α : Type} [Scalar α] (g : CallGraph) (p : String × String) : α :=
  if 0 < g.totalRelations then ((g.relationCount p.1 p.2 : Nat) : α) / ((g.totalRelations : Nat) : α) else 0

variable (g : CallGraph)

/-! ## Pairs -/

theorem nodup_names : g.names.Nodup := g.classes.nodup

theorem length_names : g.names.length = g.size := List.length_map _

theorem mem_pairs {a b : String} : (a, b) ∈ g.pairs ↔ a ∈ g.names ∧ b ∈ g.names ∧ a ≠ b := Lookup.mem_distinctPairs

theorem nodup_pairs : g.pairs.Nodup := Lookup.nodup_distinctPairs g.nodup_names g.nodup_names

/-! ## Counts and shares -/

theorem totalRelations_eq : g.totalRelations = (g.pairs.map fun p => g.relationCount p.1 p.2).sum := by
  have hrow : ∀ a, (g.others a).foldr (fun b m => g.relationCount a b + m) 0 =
      ((g.others a).map fun b => g.relationCount a b).sum := fun a => by
    rw [List.sum_eq_foldr, List.foldr_map]
  rw [pairs, List.map_flatMap, List.flatMap_def, List.sum_flatten, List.map_map, List.sum_eq_foldr, List.foldr_map]
  simp only [totalRelations, hrow, Function.comp_apply, List.map_map]
  rfl

theorem relationCount_le_totalRelations {p : String × String} (hp : p ∈ g.pairs) :
    g.relationCount p.1 p.2 ≤ g.totalRelations := by
  rw [totalRelations_eq]
  exact List.le_sum_of_mem (List.mem_map_of_mem hp)

variable {α : Type} [Scalar α]

theorem entries_normalizedCoupling :
    (g.normalizedCoupling : CouplingMap α).entries = g.pairs.map fun p => (p, g.share p) := by
  have hentries : (g.normalizedCoupling : CouplingMap α) = .ofList (g.pairs.map fun p => (p, g.share p)) := by
    rw [pairs, List.map_flatMap]
    simp only [List.map_map]
    rfl
  rw [hentries, OrderedMap.entries_ofList]
  rw [List.map_map]
  exact g.nodup_pairs.map fun _ _ e => e

theorem keys_normalizedCoupling : (g.normalizedCoupling : CouplingMap α).keys = g.pairs := by
  rw [OrderedMap.keys, entries_normalizedCoupling, List.map_map]
  exact List.map_id _

theorem share_le_one {p : String × String} (hp : p ∈ g.pairs) : (g.share p : Rat) ≤ 1 := by
  unfold share
  split
  · have hle : ((g.relationCount p.1 p.2 : Nat) : Rat) ≤ ((g.totalRelations : Nat) : Rat) :=
      Nat.cast_le.2 (g.relationCount_le_totalRelations hp)
    exact div_le_one_of_le₀ hle (Nat.cast_nonneg _)
  · exact zero_le_one

end CallGraph

/-! ## Classes -/

variable {α : Type}

namespace CouplingMap

/-- The names of classes, one after the other, as the keys of a coupling map give them. -/
def mentions (coupling : CouplingMap α) : List String := coupling.keys.flatMap fun k => [k.1, k.2]

variable {coupling : CouplingMap α}

theorem classes_eq (coupling : CouplingMap α) : coupling.classes = coupling.mentions.eraseDups := by
  rw [classes, OrderedMap.keys_ofList, List.map_flatMap]
  rfl

theorem mem_classes {x : String} : x ∈ coupling.classes ↔ ∃ k ∈ coupling.keys, x = k.1 ∨ x = k.2 := by
  simp [classes_eq, mentions]

theorem nodup_classes (coupling : CouplingMap α) : coupling.classes.Nodup := OrderedMap.nodup _

end CouplingMap

namespace CallGraph

variable [Scalar α] (g : CallGraph)

theorem mem_classes_normalizedCoupling {x : String} :
    x ∈ (g.normalizedCoupling : CouplingMap α).classes ↔ x ∈ g.names ∧ ∃ y ∈ g.names, y ≠ x := by
  rw [CouplingMap.mem_classes, keys_normalizedCoupling]
  constructor
  · rintro ⟨⟨a, b⟩, hk, rfl | rfl⟩
    · obtain ⟨ha, hb, hne⟩ := g.mem_pairs.1 hk
      exact ⟨ha, b, hb, hne.symm⟩
    · obtain ⟨ha, hb, hne⟩ := g.mem_pairs.1 hk
      exact ⟨hb, a, ha, hne⟩
  · rintro ⟨hx, y, hy, hne⟩
    exact ⟨(x, y), g.mem_pairs.2 ⟨hx, hy, hne.symm⟩, Or.inl rfl⟩

theorem length_classes_normalizedCoupling_le : (g.normalizedCoupling : CouplingMap α).classes.length ≤ g.size := by
  rw [← length_names]
  refine (List.subperm_of_subset (CouplingMap.nodup_classes _) fun x hx => ?_).length_le
  exact ((mem_classes_normalizedCoupling g).1 hx).1

theorem classes_normalizedCoupling_perm (h : g.size ≠ 1) :
    (g.normalizedCoupling : CouplingMap α).classes.Perm g.names := by
  rw [List.perm_ext_iff_of_nodup (CouplingMap.nodup_classes _) g.nodup_names]
  intro x
  rw [mem_classes_normalizedCoupling]
  refine and_iff_left_of_imp fun hx => ?_
  by_contra hall
  push Not at hall
  -- all classes are `x`, and none is listed twice
  have hnames : g.names = [x] := by
    refine List.Perm.eq_singleton ?_
    rw [List.perm_ext_iff_of_nodup g.nodup_names (List.nodup_singleton x)]
    exact fun y => ⟨fun hy => List.mem_singleton.2 (hall y hy), fun hy => List.mem_singleton.1 hy ▸ hx⟩
  exact h (by rw [← length_names, hnames, List.length_singleton])

theorem classes_normalizedCoupling_eq_nil (h : g.size = 1) : (g.normalizedCoupling : CouplingMap α).classes = [] := by
  rw [← length_names, List.length_eq_one_iff] at h
  obtain ⟨x, hx⟩ := h
  refine List.eq_nil_iff_forall_not_mem.2 fun y hy => ?_
  rw [mem_classes_normalizedCoupling, hx] at hy
  obtain ⟨hy, z, hz, hne⟩ := hy
  exact hne ((List.mem_singleton.1 hz).trans (List.mem_singleton.1 hy).symm)

end CallGraph

end CouplingTree

namespace CouplingTree

/-- Each ordered pair of distinct names has one value, and the values are shares of a total. -/
structure CouplingMap.Normalized (coupling : CouplingMap Rat) (names : List String) (total : Nat) : Prop where
  count_keys : ∀ a b, coupling.keys.count (a, b) = if a ∈ names ∧ b ∈ names ∧ a ≠ b then 1 else 0
  nonneg : ∀ v ∈ coupling.values, 0 ≤ v
  le_one : ∀ v ∈ coupling.values, v ≤ 1
  sum_eq_one : 0 < total → coupling.values.sum = 1
  eq_zero : total = 0 → ∀ v ∈ coupling.values, v = 0

namespace CallGraph

variable (g : CallGraph)

/-! ## Shares -/

theorem share_nonneg (p : String × String) : (0 : Rat) ≤ g.share p := by
  unfold share
  split
  · exact div_nonneg (Nat.cast_nonneg _) (Nat.cast_nonneg _)
  · exact le_rfl

theorem share_eq_zero (h : g.totalRelations = 0) (p : String × String) : (g.share p : Rat) = 0 :=
  if_neg (Nat.not_lt.2 (Nat.le_of_eq h))

/-- A share is the number of relations over that of all; where there are none, both are zero. -/
theorem share_mul_totalRelations {p : String × String} (hp : p ∈ g.pairs) :
    (g.share p : Rat) * ((g.totalRelations : Nat) : Rat) = ((g.relationCount p.1 p.2 : Nat) : Rat) := by
  have hle := g.relationCount_le_totalRelations hp
  unfold share
  split
  · next hpos => exact div_mul_cancel₀ _ (Nat.cast_ne_zero.2 (Nat.ne_of_gt hpos))
  · next hzero =>
    rw [Nat.eq_zero_of_not_pos hzero] at hle ⊢
    rw [Nat.le_zero.1 hle]
    exact mul_zero _

theorem share_pos_iff {p : String × String} (hp : p ∈ g.pairs) : (0 : Rat) < g.share p ↔ 0 < g.relationCount p.1 p.2 := by
  rcases Nat.eq_zero_or_pos g.totalRelations with h | h
  · have hle := g.relationCount_le_totalRelations hp
    rw [g.share_eq_zero h]
    exact iff_of_false (lt_irrefl _) (by omega)
  · rw [← Nat.cast_pos (α := Rat), ← g.share_mul_totalRelations hp]
    exact (mul_pos_iff_of_pos_right (Nat.cast_pos.2 h)).symm

theorem sum_shares (h : 0 < g.totalRelations) : (g.pairs.map fun p => (g.share p : Rat)).sum = 1 := by
  have htotal : ((g.totalRelations : Nat) : Rat) ≠ 0 := Nat.cast_ne_zero.2 (Nat.ne_of_gt h)
  refine mul_right_cancel₀ htotal ?_
  rw [← List.sum_map_mul_right, List.map_congr_left fun p hp => g.share_mul_totalRelations hp, one_mul, totalRelations_eq,
    Nat.cast_list_sum, List.map_map]
  rfl

theorem sum_shares_le_one : (g.pairs.map fun p => (g.share p : Rat)).sum ≤ 1 := by
  rcases Nat.eq_zero_or_pos g.totalRelations with h | h
  · rw [List.map_congr_left fun p _ => g.share_eq_zero h p, List.sum_map_zero]
    exact zero_le_one
  · exact (g.sum_shares h).le

theorem values_normalizedCoupling : (g.normalizedCoupling : CouplingMap Rat).values = g.pairs.map fun p => (g.share p : Rat) := by
  rw [OrderedMap.values, entries_normalizedCoupling, List.map_map]
  rfl

/-- The coupling of a call graph holds the shares of its pairs in all relations. -/
theorem normalized_normalizedCoupling : (g.normalizedCoupling : CouplingMap Rat).Normalized g.names g.totalRelations where
  count_keys a b := by
    rw [keys_normalizedCoupling, g.nodup_pairs.count]
    exact if_congr g.mem_pairs rfl rfl
  nonneg := by
    rw [values_normalizedCoupling]
    exact List.forall_mem_map.2 fun p _ => g.share_nonneg p
  le_one := by
    rw [values_normalizedCoupling]
    exact List.forall_mem_map.2 fun p hp => g.share_le_one hp
  sum_eq_one h := by
    rw [values_normalizedCoupling]
    exact g.sum_shares h
  eq_zero h := by
    rw [values_normalizedCoupling]
    exact List.forall_mem_map.2 fun p _ => g.share_eq_zero h p

/-! ## Means of shares -/

theorem find?_normalizedCoupling_eq_some_iff {α : Type} [Scalar α] {p : String × String} {v : α} :
    (g.normalizedCoupling : CouplingMap α).find? p = some v ↔ p ∈ g.pairs ∧ g.share p = v := by
  rw [OrderedMap.find?_eq_some_iff, entries_normalizedCoupling, List.mem_map]
  constructor
  · rintro ⟨q, hq, e⟩
    cases e
    exact ⟨hq, rfl⟩
  · rintro ⟨hp, rfl⟩
    exact ⟨p, hp, rfl⟩

/-- The values of different pairs are among those that make up the whole. -/
theorem mean_shares_le {ps : List (String × String)} (hn : ps.Nodup) (hsub : ∀ p ∈ ps, p ∈ g.pairs) :
    mean (ps.filterMap (g.normalizedCoupling : CouplingMap Rat).find?) ≤ 1 / ps.length := by
  have hvalues : ps.filterMap (g.normalizedCoupling : CouplingMap Rat).find? = ps.map fun p => (g.share p : Rat) := by
    rw [← List.filterMap_eq_map]
    exact List.filterMap_congr fun p hp => g.find?_normalizedCoupling_eq_some_iff.2 ⟨hsub p hp, rfl⟩
  have hsum : (ps.map fun p => (g.share p : Rat)).sum ≤ 1 := by
    obtain ⟨kept, hkept, hsublist⟩ := List.subperm_of_subset hn hsub
    obtain ⟨rest, hperm⟩ := hsublist.exists_perm_append
    have hwhole := g.sum_shares_le_one
    rw [(hperm.map _).sum_eq, List.map_append, List.sum_append, (hkept.map _).sum_eq] at hwhole
    have hrest : 0 ≤ (rest.map fun p => (g.share p : Rat)).sum :=
      List.sum_nonneg (List.forall_mem_map.2 fun p _ => g.share_nonneg p)
    linarith
  rw [hvalues, mean_eq, List.length_map]
  exact div_le_div_of_nonneg_right hsum (Nat.cast_nonneg _)

variable {g} {s t : NameSet}

theorem between_normalizedCoupling_le (hapart : s.Apart t) (hs : ∀ x ∈ s, x ∈ g.names) (ht : ∀ x ∈ t, x ∈ g.names) :
    (g.normalizedCoupling : CouplingMap Rat).between s t ≤ 1 / (2 * s.size * t.size) := by
  have hle := g.mean_shares_le (Lookup.nodup_crossPairs hapart) fun (a, b) hp => by
    rw [mem_pairs]
    rcases Lookup.mem_crossPairs.1 hp with ⟨ha, hb⟩ | ⟨ha, hb⟩
    · exact ⟨hs a ha, ht b hb, fun e => hapart a ha (e ▸ hb)⟩
    · exact ⟨ht a ha, hs b hb, fun e => hapart b hb (e ▸ ha)⟩
  rw [Lookup.length_crossPairs, Nat.cast_mul, Nat.cast_mul, ← mul_assoc] at hle
  exact hle

theorem cohesion_normalizedCoupling_le (hs : ∀ x ∈ s, x ∈ g.names) (htwo : 2 ≤ s.size) :
    (g.normalizedCoupling : CouplingMap Rat).cohesion s ≤ 1 / (s.size * (s.size - 1)) := by
  have hle := g.mean_shares_le (Lookup.nodup_innerPairs s) fun (a, b) hp => by
    obtain ⟨ha, hb, hne⟩ := Lookup.mem_distinctPairs.1 hp
    exact g.mem_pairs.2 ⟨hs a ha, hs b hb, hne⟩
  rw [Lookup.length_innerPairs, Nat.cast_mul, Nat.cast_sub (by omega), Nat.cast_one] at hle
  rw [CouplingMap.cohesion, if_neg (by omega)]
  exact hle

end CallGraph

end CouplingTree
