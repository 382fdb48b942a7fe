import CouplingTree.Modules
import CouplingTree.Proofs.Clustering.Descent

/-!
# Merged clusters cohere

With rational numbers a merged cluster coheres at least as much as its parts coupled. Inside it are recorded the values
inside either part, which coupled no less when they were merged themselves, and the values across the two.

* `Cohering.apply` : a merge keeps the mean inside each merged cluster at least its coupling.
* `Cohering.le_cohesion` : so a merged cluster coheres at least as much as its parts coupled, and single classes fully.
* `run_cohesion` : hence every cluster at top level is a module, whenever the threshold is not above the least coupling
  of a merge.
-/

namespace CouplingTree.Clustering

variable {coupling : CouplingMap Rat} {rule : StopRule Rat} {c : Clustering Rat} {m : Merge Rat} {k : Cluster Rat}

/-- Falling couplings, where the values inside each merged cluster are at least its coupling on average. -/
structure Cohering (rule : StopRule Rat) (coupling : CouplingMap Rat) (c : Clustering Rat) : Prop where
  descending : Descending rule coupling c
  recorded : ∀ m ∈ c.history, Lookup.inner coupling.find? m.result.members ≠ []
  atLeast : ∀ m ∈ c.history, AtLeast m.coupling (Lookup.inner coupling.find? m.result.members)

theorem cohering_initial (rule : StopRule Rat) (coupling : CouplingMap Rat) :
    Cohering rule coupling (initial coupling) where
  descending := descending_initial rule coupling
  recorded := fun _ hm => absurd hm (List.not_mem_nil)
  atLeast := fun _ hm => absurd hm (List.not_mem_nil)

/-! ## A merge -/

/-- Nothing is recorded inside a single class, and what was merged before coupled no less. -/
theorem Cohering.atLeast_of_picks (h : Cohering rule coupling c) (hm : Picks coupling.find? rule c m)
    (hk : k ∈ c.arena) : AtLeast m.coupling (Lookup.inner coupling.find? k.members) := by
  rcases h.descending.forest.leaf_or_result hk with ⟨i, cls, -, rfl⟩ | ⟨m', hm', rfl⟩
  · change AtLeast _ (Lookup.inner coupling.find? (.singleton cls))
    rw [Lookup.inner_singleton]
    exact atLeast_nil _
  · exact (h.atLeast m' hm').mono (h.descending.le_of_picks hm m' hm')

/-- Inside the result are recorded the values inside both parts and those across them. -/
theorem Cohering.inner_result_perm (h : Cohering rule coupling c) (hm : Picks coupling.find? rule c m) :
    (Lookup.inner coupling.find? m.result.members).Perm
      (Lookup.inner coupling.find? m.first.members ++ Lookup.inner coupling.find? m.second.members ++
        Lookup.cross coupling.find? m.first.members m.second.members) := by
  have hjoins := h.descending.forest.joins_of_picks hm
  rw [hjoins.members_eq]
  exact Lookup.inner_union_perm _ hjoins.apart

theorem Picks.coupling_eq_mean (hm : Picks coupling.find? rule c m) :
    m.coupling = mean (Lookup.cross coupling.find? m.first.members m.second.members) :=
  hm.coupling_eq.trans (Lookup.between_eq coupling.find? m.first.members m.second.members)

theorem Cohering.recorded_of_picks (h : Cohering rule coupling c) (hm : Picks coupling.find? rule c m) :
    Lookup.inner coupling.find? m.result.members ≠ [] := by
  have hpos := hm.greatest.1
  rw [hm.coupling_eq_mean] at hpos
  intro hnil
  have hinner := h.inner_result_perm hm
  rw [hnil] at hinner
  exact ne_nil_of_mean_pos hpos (List.append_eq_nil_iff.1 hinner.nil_eq.symm).2

theorem Cohering.atLeast_result (h : Cohering rule coupling c) (hm : Picks coupling.find? rule c m) :
    AtLeast m.coupling (Lookup.inner coupling.find? m.result.members) := by
  obtain ⟨hfirst, hsecond, -⟩ := h.descending.forest.mem_of_picks hm
  refine AtLeast.perm ?_ (h.inner_result_perm hm).symm
  refine ((h.atLeast_of_picks hm hfirst).append (h.atLeast_of_picks hm hsecond)).append ?_
  rw [hm.coupling_eq_mean]
  exact atLeast_mean _

theorem Cohering.apply (h : Cohering rule coupling c) (hm : Picks coupling.find? rule c m) :
    Cohering rule coupling (c.apply m) where
  descending := h.descending.apply hm
  recorded := by
    rw [apply_history]
    exact List.forall_mem_append.2 ⟨h.recorded, List.forall_mem_singleton.2 (h.recorded_of_picks hm)⟩
  atLeast := by
    rw [apply_history]
    exact List.forall_mem_append.2 ⟨h.atLeast, List.forall_mem_singleton.2 (h.atLeast_result hm)⟩

theorem cohering_run (rule : StopRule Rat) (coupling : CouplingMap Rat) :
    Cohering rule coupling (run rule coupling).clustering :=
  run_induction (cohering_initial rule coupling) fun _ _ h hm => h.apply hm

/-! ## Cohesion -/

theorem cohesion_leaf (i : Nat) (cls : String) : c.cohesion (Cluster.leaf i cls) = 1 := rfl

/-- A merged cluster has two members at least, so that its cohesion is a mean. -/
theorem Forest.cohesion_result (h : Forest coupling c) (hm : m ∈ c.history) :
    c.cohesion m.result = mean (Lookup.inner coupling.find? m.result.members) := by
  have hsize : ¬ m.result.members.size ≤ 1 := Nat.not_le.2 (h.two_le_size_result hm)
  rw [cohesion, CouplingMap.cohesion, if_neg hsize, h.coupling_eq]
  exact Lookup.within_eq coupling.find? m.result.members

theorem Cohering.le_cohesion (h : Cohering rule coupling c) (hm : m ∈ c.history) :
    m.coupling ≤ c.cohesion m.result := by
  rw [h.descending.forest.cohesion_result hm]
  exact (le_mean_iff (h.recorded m hm)).2 (h.atLeast m hm)

/-- Single classes cohere fully, and merges couple at least as much as required and more than zero. -/
theorem Cohering.le_cohesion_of_mem (h : Cohering rule coupling c) {t : Rat} (h1 : t ≤ 1)
    (ht : t ≤ rule.minCoupling ∨ t ≤ 0) (hk : k ∈ c.arena) : t ≤ c.cohesion k := by
  rcases h.descending.forest.leaf_or_result hk with ⟨i, cls, -, rfl⟩ | ⟨m, hm, rfl⟩
  · rwa [cohesion_leaf]
  · refine le_trans ?_ (h.le_cohesion hm)
    rcases ht with ht | ht
    · exact ht.trans (h.descending.reaches m hm)
    · exact ht.trans (h.descending.positive m hm).le

/-! ## Modules -/

theorem modulesAtThreshold_eq {t : Rat} (h : ∀ k ∈ c.clusters, t ≤ c.cohesion k) :
    c.modulesAtThreshold t = c.clusters.map Cluster.members := by
  rw [List.map_eq_flatMap]
  exact List.flatMap_congr fun k hk => if_pos (h k hk)

/-- **A merged cluster coheres at least as much as its parts coupled**, so that no cluster at top level falls short of a
threshold that is not above the least coupling, or not above zero. -/
theorem run_cohesion (rule : StopRule Rat) (coupling : CouplingMap Rat) :
    (∀ k ∈ (run rule coupling).clustering.arena, k.isLeaf = false →
      k.mergeCoupling ≤ (run rule coupling).clustering.cohesion k ∧ rule.minCoupling ≤ k.mergeCoupling ∧
        0 < (run rule coupling).clustering.cohesion k) ∧
      ∀ t, t ≤ 1 → t ≤ rule.minCoupling ∨ t ≤ 0 →
        (run rule coupling).clustering.modulesAtThreshold t =
            (run rule coupling).clustering.clusters.map Cluster.members ∧
          ∀ x ∈ coupling.classes,
            ((run rule coupling).clustering.modulesAtThreshold t).countP (fun s => decide (x ∈ s)) = 1 := by
  have h := cohering_run rule coupling
  generalize (run rule coupling).clustering = c at h
  refine ⟨fun k hk hjoined => ?_, fun t h1 ht => ?_⟩
  · rcases h.descending.forest.leaf_or_result hk with ⟨i, cls, -, rfl⟩ | ⟨m, hm, rfl⟩
    · cases hjoined
    · rw [(h.descending.forest.joins m hm).coupling_eq]
      have hle := h.le_cohesion hm
      exact ⟨hle, h.descending.reaches m hm, (h.descending.positive m hm).trans_le hle⟩
  · have hmodules : c.modulesAtThreshold t = c.clusters.map Cluster.members :=
      modulesAtThreshold_eq fun k hk => h.le_cohesion_of_mem h1 ht (h.descending.forest.mem_clusters.1 hk).1
    refine ⟨hmodules, fun x hx => ?_⟩
    rw [hmodules, List.countP_map]
    exact (h.descending.forest.countP_clusters x).trans (if_pos hx)

theorem chain_coheres :
    (∃ k ∈ (run ⟨1 / 4, 1⟩ chain).clustering.arena, k.isLeaf = false ∧
      k.mergeCoupling ≤ (run ⟨1 / 4, 1⟩ chain).clustering.cohesion k) ∧
      "B" ∈ chain.classes ∧
        ((run ⟨1 / 4, 1⟩ chain).clustering.modulesAtThreshold (1 / 4)).countP (fun s => decide ("B" ∈ s)) = 1 := by
  have hjoined : ∃ k ∈ (run ⟨1 / 4, 1⟩ chain).clustering.arena, k.isLeaf = false := by decide +kernel
  have hclass : "B" ∈ chain.classes := by decide +kernel
  obtain ⟨hcohesion, hmodules⟩ := run_cohesion ⟨1 / 4, 1⟩ chain
  obtain ⟨k, hk, hleaf⟩ := hjoined
  exact ⟨⟨k, hk, hleaf, (hcohesion k hk hleaf).1⟩, hclass,
    (hmodules (1 / 4) (by norm_num) (Or.inl (le_refl _))).2 "B" hclass⟩

end CouplingTree.Clustering
