import CouplingTree.Proofs.Clustering.Foremost
import CouplingTree.Proofs.Clustering.Layout
import CouplingTree.Proofs.Means

/-!
# The couplings of a run never rise

With rational numbers a merge brings no two clusters closer together: the union of the two most coupled clusters couples
with any third one at most as much as one of its parts did, and so at most as much as its parts did with each other.

* `Lookup.mostCoupled?_eq_some` : the pair that is picked couples, and no pair couples more.
* `Descending.apply` : a merge keeps every later pair below the couplings of the history.
* `run_couplings_fall` : hence the couplings of the history never rise, and the distances of the linkage never fall.
-/

namespace CouplingTree

variable {coupling : CouplingMap Rat} {rule : StopRule Rat} {v : Rat}

/-! ## The most coupled pair -/

namespace Lookup

variable {value? : Lookup Rat}

/-- The coupling of a pair of clusters. -/
def pairValue (value? : Lookup Rat) (p : Cluster Rat × Cluster Rat) : Rat := value?.between p.1.members p.2.members

/-- What is kept after some pairs: the greatest coupling above zero, and a pair that has it. -/
structure Leads (value? : Lookup Rat) (ps : List (Cluster Rat × Cluster Rat))
    (best : Option (Cluster Rat × Cluster Rat) × Rat) : Prop where
  nonneg : 0 ≤ best.2
  le : ∀ p ∈ ps, value?.pairValue p ≤ best.2
  value_eq : ∀ p, best.1 = some p → best.2 = value?.pairValue p ∧ 0 < best.2

theorem leads_foldl (ps : List (Cluster Rat × Cluster Rat)) : value?.Leads ps (ps.foldl value?.better (none, 0)) := by
  rcases value?.foldl_better ps with ⟨hfold, hnone⟩ | ⟨p, hfold, hp⟩
  · rw [hfold]
    exact ⟨le_refl _, fun q hq => not_lt.1 (hnone q hq), fun q hq => by cases hq⟩
  · rw [hfold]
    refine ⟨hp.positive.le, fun q hq => not_lt.1 (hp.not_lt q hq), fun q hq => ?_⟩
    cases hq
    exact ⟨rfl, hp.positive⟩

/-- The pair that is picked has a positive coupling, and no other pair a greater one. -/
theorem mostCoupled?_eq_some {clusters : List (Cluster Rat)} {p : Cluster Rat × Cluster Rat}
    (h : value?.mostCoupled? clusters = some p) :
    0 < value?.pairValue p ∧ ∀ q ∈ pairsOf clusters, value?.pairValue q ≤ value?.pairValue p := by
  have hlead := value?.leads_foldl (pairsOf clusters)
  obtain ⟨he, hpos⟩ := hlead.value_eq p h
  rw [he] at hpos
  exact ⟨hpos, fun q hq => he ▸ hlead.le q hq⟩

end Lookup

namespace Clustering

/-! ## Bounded clusters -/

/-- No two of the clusters couple more than `v`. -/
def Within (coupling : CouplingMap Rat) (v : Rat) (clusters : List (Cluster Rat)) : Prop :=
  clusters.Pairwise fun k l => coupling.between k.members l.members ≤ v

theorem within_iff {clusters : List (Cluster Rat)} :
    Within coupling v clusters ↔ ∀ q ∈ pairsOf clusters, coupling.between q.1.members q.2.members ≤ v := by
  rw [Within, List.pairwise_iff_forall_sublist]
  exact ⟨fun h q hq => h (mem_pairsOf.1 hq), fun h _ _ hs => h (_, _) (mem_pairsOf.2 hs)⟩

theorem Within.mono {w : Rat} {clusters : List (Cluster Rat)} (h : Within coupling v clusters) (hw : v ≤ w) :
    Within coupling w clusters := h.imp fun hv => hv.trans hw

theorem Within.perm {ks ls : List (Cluster Rat)} (h : Within coupling v ks) (hp : ks.Perm ls) : Within coupling v ls :=
  (hp.pairwise_iff fun {k l} hkl => (Lookup.between_comm _ l.members k.members).trans_le hkl).1 h

/-- Two clusters can be replaced by their union. -/
theorem Within.join {first second result : Cluster Rat} {others : List (Cluster Rat)} (hv : 0 ≤ v)
    (h : Within coupling v (first :: second :: others)) (hapart : first.members.Apart second.members)
    (hr : result.members = first.members.union second.members) : Within coupling v (others ++ [result]) := by
  obtain ⟨hf, h⟩ := List.pairwise_cons.1 h
  obtain ⟨hs, h⟩ := List.pairwise_cons.1 h
  refine List.pairwise_append.2 ⟨h, List.pairwise_singleton _ _, fun k hk l hl => ?_⟩
  rw [List.mem_singleton.1 hl, hr]
  refine Lookup.between_union_le hapart hv ?_ ?_
  · rw [Lookup.between_comm]
    exact hf k (List.mem_cons_of_mem _ hk)
  · rw [Lookup.between_comm]
    exact hs k hk

/-- The merge that comes next has a positive coupling, and no two clusters at top level a greater one. -/
theorem Picks.greatest {c : Clustering Rat} {m : Merge Rat} (hm : Picks coupling.find? rule c m) :
    0 < m.coupling ∧ Within coupling m.coupling c.clusters := by
  obtain ⟨hpos, hmax⟩ := Lookup.mostCoupled?_eq_some hm.best
  rw [hm.coupling_eq, within_iff]
  exact ⟨hpos, hmax⟩

/-! ## Falling couplings -/

/-- A forest whose merges have falling couplings, none of them less than what any two clusters at top level couple. -/
structure Descending (rule : StopRule Rat) (coupling : CouplingMap Rat) (c : Clustering Rat) : Prop where
  forest : Forest coupling c
  value_eq : ∀ m ∈ c.history, m.coupling = coupling.between m.first.members m.second.members
  positive : ∀ m ∈ c.history, 0 < m.coupling
  reaches : ∀ m ∈ c.history, rule.minCoupling ≤ m.coupling
  falling : (c.history.map Merge.coupling).Pairwise (· ≥ ·)
  bounded : ∀ m ∈ c.history, Within coupling m.coupling c.clusters

variable {c : Clustering Rat} {m : Merge Rat}

theorem descending_initial (rule : StopRule Rat) (coupling : CouplingMap Rat) :
    Descending rule coupling (initial coupling) where
  forest := forest_initial coupling
  value_eq := fun _ hm => absurd hm (List.not_mem_nil)
  positive := fun _ hm => absurd hm (List.not_mem_nil)
  reaches := fun _ hm => absurd hm (List.not_mem_nil)
  falling := List.Pairwise.nil
  bounded := fun _ hm => absurd hm (List.not_mem_nil)

/-- What is merged next couples at most as what was merged before. -/
theorem Descending.le_of_picks (h : Descending rule coupling c) (hm : Picks coupling.find? rule c m) :
    ∀ m' ∈ c.history, m.coupling ≤ m'.coupling := by
  intro m' hm'
  rw [hm.coupling_eq]
  exact within_iff.1 (h.bounded m' hm') (m.first, m.second) hm.pair

/-- The union of the two clusters couples with a third one at most as they did with each other. -/
theorem Descending.within_apply (h : Descending rule coupling c) (hm : Picks coupling.find? rule c m) :
    Within coupling m.coupling (c.apply m).clusters := by
  obtain ⟨hpos, hmax⟩ := hm.greatest
  obtain ⟨others, hperm, -, hclusters⟩ := h.forest.clusters_apply hm
  have hjoins := h.forest.joins_of_picks hm
  rw [hclusters]
  exact (hmax.perm hperm).join hpos.le hjoins.apart hjoins.members_eq

theorem Descending.apply (h : Descending rule coupling c) (hm : Picks coupling.find? rule c m) :
    Descending rule coupling (c.apply m) where
  forest := h.forest.apply hm
  value_eq := by
    rw [apply_history]
    exact List.forall_mem_append.2 ⟨h.value_eq, List.forall_mem_singleton.2 hm.coupling_eq⟩
  positive := by
    rw [apply_history]
    exact List.forall_mem_append.2 ⟨h.positive, List.forall_mem_singleton.2 hm.greatest.1⟩
  reaches := by
    rw [apply_history]
    exact List.forall_mem_append.2 ⟨h.reaches, List.forall_mem_singleton.2 (not_lt.1 hm.strong)⟩
  falling := by
    rw [apply_history, List.map_append]
    refine List.pairwise_append.2 ⟨h.falling, List.pairwise_singleton _ _, fun w hw x hx => ?_⟩
    obtain ⟨m', hm', rfl⟩ := List.mem_map.1 hw
    rw [List.mem_singleton.1 hx]
    exact h.le_of_picks hm m' hm'
  bounded := by
    rw [apply_history]
    refine List.forall_mem_append.2 ⟨fun m' hm' => ?_, List.forall_mem_singleton.2 (h.within_apply hm)⟩
    exact (h.within_apply hm).mono (h.le_of_picks hm m' hm')

theorem descending_run (rule : StopRule Rat) (coupling : CouplingMap Rat) :
    Descending rule coupling (run rule coupling).clustering :=
  run_induction (descending_initial rule coupling) fun _ _ h hm => h.apply hm

/-- No merge couples more than all recorded values. -/
theorem run_coupling_le (rule : StopRule Rat) (hv : 0 ≤ v) (h : ∀ p x, coupling.find? p = some x → x ≤ v) :
    ∀ m ∈ (run rule coupling).clustering.history, m.coupling ≤ v := fun m hm => by
  rw [(descending_run rule coupling).value_eq m hm]
  exact Lookup.between_le hv h

/-! ## The dendrogram has no inversions -/

/-- **Couplings never rise along the history, and distances never fall down the rows of the linkage.** -/
theorem run_couplings_fall (rule : StopRule Rat) (coupling : CouplingMap Rat) :
    ((run rule coupling).clustering.history.map Merge.coupling).Pairwise (· ≥ ·) ∧
      ∀ rows, (run rule coupling).clustering.linkage = .ok rows →
        (rows.map LinkageRow.distance).Pairwise (· ≤ ·) := by
  have hfall := (descending_run rule coupling).falling
  refine ⟨hfall, fun rows hrows => ?_⟩
  rw [(linkage_eq_ok_iff.1 hrows).2.2, List.map_map]
  rw [List.pairwise_map] at hfall ⊢
  exact hfall.imp fun hge => sub_le_sub_left hge 1

/-- Three classes in a chain, the first two coupled more than the last two. -/
def chain : CouplingMap Rat := .ofList [(("A", "B"), 1 / 2), (("B", "C"), 1 / 4)]

theorem chain_distances_rise :
    (run ⟨0, 1⟩ chain).clustering.linkage = .ok ((run ⟨0, 1⟩ chain).clustering.history.map Merge.row) ∧
      ((run ⟨0, 1⟩ chain).clustering.history.map Merge.row).map LinkageRow.distance = [1 / 2, 3 / 4] ∧
        [(1 / 2 : Rat), 3 / 4].Pairwise (· ≤ ·) := by
  have hlinkage : (run ⟨0, 1⟩ chain).clustering.linkage = .ok ((run ⟨0, 1⟩ chain).clustering.history.map Merge.row) :=
    linkage_eq_ok_iff.2 ⟨by decide +kernel, by decide +kernel, rfl⟩
  have hdistances : ((run ⟨0, 1⟩ chain).clustering.history.map Merge.row).map LinkageRow.distance = [1 / 2, 3 / 4] := by
    decide +kernel
  have hrise := (run_couplings_fall ⟨0, 1⟩ chain).2 _ hlinkage
  rw [hdistances] at hrise
  exact ⟨hlinkage, hdistances, hrise⟩

end Clustering

end CouplingTree
