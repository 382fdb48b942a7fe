import CouplingTree.Proofs.Digraph
import CouplingTree.Proofs.Clustering.Descent
import CouplingTree.Proofs.Clustering.Groups

/-!
# Clusters are connected

With rational numbers each merge joins two clusters across a positive value, so that all clusters are connected in the graph
of the coupling map, when the directions of its edges are ignored. If no value is negative, then as long as an edge joins two
clusters these couple, and a run that only stops when none do ends with the connected components.

* `Lookup.exists_pos_of_between_pos`, `Lookup.between_pos` : a positive mean has a positive value, and conversely if none is
  negative.
* `connects_of_mem_arena` : hence every cluster is connected.
* `closed_of_run` : hence no edge leaves a cluster that a run ends with.
* `run_components` : so the clusters at top level are the components.
-/

namespace CouplingTree

variable {s t : NameSet}

namespace Lookup

variable {value? : Lookup Rat}

theorem exists_pos_of_between_pos (h : 0 < value?.between s t) :
    ∃ p ∈ crossPairs s t, ∃ v, value? p = some v ∧ 0 < v := by
  by_contra hnone
  push Not at hnone
  refine h.not_ge (mean_le (le_refl _) fun v hv => ?_)
  obtain ⟨p, hp, hv⟩ := List.mem_filterMap.1 hv
  exact hnone p hp v hv

theorem between_pos (hnonneg : ∀ p v, value? p = some v → 0 ≤ v) {p : String × String} (hp : p ∈ crossPairs s t) {v : Rat}
    (hv : value? p = some v) (hpos : 0 < v) : 0 < value?.between s t := by
  refine mean_pos (fun x hx => ?_) (List.mem_filterMap.2 ⟨p, hp, hv⟩) hpos
  obtain ⟨q, -, hq⟩ := List.mem_filterMap.1 hx
  exact hnonneg q x hq

end Lookup

namespace CouplingMap

variable {coupling : CouplingMap Rat}

/-- Two classes are adjacent if one of the two values between them is positive. -/
theorem adj_undirected_digraph {x y : {k // k ∈ coupling.digraph.nodes.keys}} :
    coupling.digraph.undirected.Adj x y ↔
      x ≠ y ∧ ((∃ v, coupling.find? (x.1, y.1) = some v ∧ 0 < v) ∨ ∃ v, coupling.find? (y.1, x.1) = some v ∧ 0 < v) := by
  simp only [Digraph.undirected, SimpleGraph.fromRel_adj, Digraph.HasEdge, mem_edges_digraph]

/-- Between two sets that couple there are two adjacent classes. -/
theorem exists_adj_of_between_pos (hapart : s.Apart t) (hpos : 0 < coupling.between s t) :
    ∃ x ∈ coupling.digraph.within s, ∃ y ∈ coupling.digraph.within t, coupling.digraph.undirected.Adj x y := by
  obtain ⟨⟨a, b⟩, hp, v, hv, hpos⟩ := Lookup.exists_pos_of_between_pos hpos
  have hkey : (a, b) ∈ coupling.keys := (coupling.mem_keys_iff _).2 ⟨v, hv⟩
  have ha : a ∈ coupling.digraph.nodes.keys := coupling.mem_nodes_digraph.2 (mem_classes.2 ⟨(a, b), hkey, Or.inl rfl⟩)
  have hb : b ∈ coupling.digraph.nodes.keys := coupling.mem_nodes_digraph.2 (mem_classes.2 ⟨(a, b), hkey, Or.inr rfl⟩)
  rcases Lookup.mem_crossPairs.1 hp with ⟨h1, h2⟩ | ⟨h1, h2⟩
  · have hne : a ≠ b := fun e => hapart a h1 (e ▸ h2)
    exact ⟨⟨a, ha⟩, h1, ⟨b, hb⟩, h2, adj_undirected_digraph.2 ⟨Subtype.coe_ne_coe.1 hne, Or.inl ⟨v, hv, hpos⟩⟩⟩
  · have hne : b ≠ a := fun e => hapart b h2 (e ▸ h1)
    exact ⟨⟨b, hb⟩, h2, ⟨a, ha⟩, h1, adj_undirected_digraph.2 ⟨Subtype.coe_ne_coe.1 hne, Or.inr ⟨v, hv, hpos⟩⟩⟩

/-- Two sets with adjacent classes couple, if no value is negative. -/
theorem between_pos_of_adj (hnonneg : ∀ e ∈ coupling.entries, 0 ≤ e.2) {x y : {k // k ∈ coupling.digraph.nodes.keys}}
    (hx : x.1 ∈ s) (hy : y.1 ∈ t) (hadj : coupling.digraph.undirected.Adj x y) : 0 < coupling.between s t := by
  have hfind : ∀ p v, coupling.find? p = some v → 0 ≤ v := fun p v hv =>
    hnonneg (p, v) ((coupling.find?_eq_some_iff p v).1 hv)
  obtain ⟨-, ⟨v, hv, hpos⟩ | ⟨v, hv, hpos⟩⟩ := adj_undirected_digraph.1 hadj
  · exact Lookup.between_pos hfind (Lookup.mem_crossPairs.2 (Or.inl ⟨hx, hy⟩)) hv hpos
  · exact Lookup.between_pos hfind (Lookup.mem_crossPairs.2 (Or.inr ⟨hy, hx⟩)) hv hpos

end CouplingMap

namespace Clustering

variable {rule : StopRule Rat} {coupling : CouplingMap Rat} {k : Cluster Rat}

/-- A single class is connected, and a merge joins two clusters across an edge. -/
theorem connects_of_mem_arena (hk : k ∈ (run rule coupling).clustering.arena) : coupling.digraph.Connects k.members := by
  have h := descending_run rule coupling
  refine h.forest.cluster_induction (P := fun k => coupling.digraph.Connects k.members) ?_ ?_ hk
  · intro i cls hcls
    exact Digraph.connects_singleton (coupling.mem_nodes_digraph.2 (List.mem_of_getElem? hcls))
  · intro m hm hfirst hsecond
    have hjoins := h.forest.joins m hm
    have hpos := h.positive m hm
    rw [h.value_eq m hm] at hpos
    obtain ⟨x, hx, y, hy, hadj⟩ := CouplingMap.exists_adj_of_between_pos hjoins.apart hpos
    rw [hjoins.members_eq]
    exact hfirst.union hsecond hx hy hadj

theorem mem_nodes_of_mem_arena (hk : k ∈ (run rule coupling).clustering.arena) :
    ∀ x ∈ k.members, x ∈ coupling.digraph.nodes.keys := fun x hx =>
  coupling.mem_nodes_digraph.2 ((forest_run rule coupling).mem_classes_of_mem hk x hx)

/-- Each node is in a cluster at top level. -/
theorem exists_cluster_of_node (rule : StopRule Rat) (x : {k // k ∈ coupling.digraph.nodes.keys}) :
    ∃ k ∈ (run rule coupling).clustering.clusters, x ∈ coupling.digraph.within k.members :=
  ((forest_run rule coupling).consistent.covered x.1).2 (coupling.mem_nodes_digraph.1 x.2)

/-- Where an edge leaves a cluster, the cluster at its other end would couple with it. -/
theorem closed_of_run (hnonneg : ∀ e ∈ coupling.entries, 0 ≤ e.2) (hmin : rule.minCoupling ≤ 0) (hmost : rule.maxModules ≤ 1)
    (hk : k ∈ (run rule coupling).clustering.clusters) :
    ∀ x ∈ coupling.digraph.within k.members, ∀ y, coupling.digraph.undirected.Adj x y →
      y ∈ coupling.digraph.within k.members := by
  intro x hx y hadj
  obtain ⟨l, hl, hy⟩ := exists_cluster_of_node rule y
  by_cases hne : k.members = l.members
  · exact hne ▸ hy
  · have : Std.Symm fun s t => ¬ 0 < coupling.between s t := ⟨fun s t h => by
      rw [CouplingMap.between, Lookup.between_comm]
      exact h⟩
    have hapart := (groups_run_uncoupled coupling hmin hmost).forall (List.mem_map_of_mem hk) (List.mem_map_of_mem hl) hne
    exact absurd (CouplingMap.between_pos_of_adj hnonneg hx hy hadj) hapart

/-- **Clusters are connected, and those a run ends with are components.** Every cluster is a set of nodes of the graph that is
connected when the directions of edges are ignored. If no value is negative and a run only stops when no clusters couple, then
the clusters at top level are the components of the graph, each of them once. -/
theorem run_components (rule : StopRule Rat) (coupling : CouplingMap Rat) :
    (∀ k ∈ (run rule coupling).clustering.arena,
      (∀ x ∈ k.members, x ∈ coupling.digraph.nodes.keys) ∧ coupling.digraph.Connects k.members) ∧
      ((∀ e ∈ coupling.entries, 0 ≤ e.2) → rule.minCoupling ≤ 0 → rule.maxModules ≤ 1 →
        (run rule coupling).clustering.groups.Nodup ∧
          ∀ nodes, (∃ k ∈ (run rule coupling).clustering.clusters, coupling.digraph.within k.members = nodes) ↔
            ∃ component : coupling.digraph.undirected.ConnectedComponent, component.supp = nodes) := by
  have hforest := forest_run rule coupling
  refine ⟨fun k hk => ⟨mem_nodes_of_mem_arena hk, connects_of_mem_arena hk⟩, fun hnonneg hmin hmost => ?_⟩
  have hsupp : ∀ k ∈ (run rule coupling).clustering.clusters, ∀ v ∈ coupling.digraph.within k.members,
      (coupling.digraph.undirected.connectedComponentMk v).supp = coupling.digraph.within k.members :=
    fun k hk v hv => supp_eq_of_closed (connects_of_mem_arena (hforest.mem_clusters.1 hk).1).preconnected
      (closed_of_run hnonneg hmin hmost hk) hv
  refine ⟨hforest.nodup_groups, fun nodes => ⟨?_, ?_⟩⟩
  · rintro ⟨k, hk, rfl⟩
    obtain ⟨v, hv⟩ := (connects_of_mem_arena (hforest.mem_clusters.1 hk).1).nonempty
    exact ⟨_, hsupp k hk v hv⟩
  · rintro ⟨component, rfl⟩
    obtain ⟨v, rfl⟩ := component.exists_rep
    obtain ⟨k, hk, hv⟩ := exists_cluster_of_node rule v
    exact ⟨k, hk, (hsupp k hk v hv).symm⟩

/-- Two islands of two classes each, and two classes that are only listed. -/
def islands : CouplingMap Rat :=
  .ofList [(("A", "B"), 1 / 2), (("B", "C"), 0), (("D", "C"), 1 / 4), (("E", "F"), 0), (("F", "F"), 1)]

theorem islands_components :
    (∀ e ∈ islands.entries, 0 ≤ e.2) ∧ (0 : Rat) ≤ 0 ∧ (1 : Int) ≤ 1 ∧
      (run ⟨0, 1⟩ islands).clustering.groups.map NameSet.toList = [["E"], ["F"], ["A", "B"], ["C", "D"]] ∧
      (∀ k ∈ (run ⟨0, 1⟩ islands).clustering.arena, islands.digraph.Connects k.members) ∧
      ∀ k ∈ (run ⟨0, 1⟩ islands).clustering.clusters,
        ∃ component : islands.digraph.undirected.ConnectedComponent, component.supp = islands.digraph.within k.members := by
  have hnonneg : ∀ e ∈ islands.entries, 0 ≤ e.2 := by decide +kernel
  have hgroups : (run ⟨0, 1⟩ islands).clustering.groups.map NameSet.toList = [["E"], ["F"], ["A", "B"], ["C", "D"]] := by
    decide +kernel
  obtain ⟨hconnected, hcomponents⟩ := run_components ⟨0, 1⟩ islands
  obtain ⟨-, htop⟩ := hcomponents hnonneg (le_refl _) (le_refl _)
  exact ⟨hnonneg, le_refl _, le_refl _, hgroups, fun k hk => (hconnected k hk).2, fun k hk => (htop _).1 ⟨k, hk, rfl⟩⟩

end Clustering

end CouplingTree
