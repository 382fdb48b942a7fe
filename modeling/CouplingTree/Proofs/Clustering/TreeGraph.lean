import CouplingTree.Proofs.Digraph
import CouplingTree.Proofs.Clustering.Descent
import CouplingTree.Proofs.Clustering.Trees

/-!
# The graph of the trees

A walk adds a cluster to the graph with the edges to its parts, which are nodes without a label until the walk comes to them.

* `treeGraphOf_eq` : the graph is made from a row for each cluster that is met.
* `Forest.entries_perm`, `Forest.edges_perm` : the nodes are the clusters that are met, the edges lead to their parts.
* `Forest.targets_perm` : an edge leads to each cluster that is met but those the walk starts from.
* `run_treeGraph` : so the graph shows the tree below each cluster, and a forest of the trees of those at top level.
-/

namespace CouplingTree

variable {α : Type}

/-- What the graph of the trees tells about a cluster. -/
def Cluster.node (k : Cluster α) : TreeNode α := ⟨k.members, k.isLeaf, k.mergeCoupling⟩

namespace Clustering

/-! ## Rows -/

/-- The numbers of the parts of a cluster, each with its side. -/
def sides (c : Clustering α) (k : Cluster α) : List (Nat × Side) :=
  match c.children k with
  | none => []
  | some (left, right) => [(left.id, .left), (right.id, .right)]

def treeRow (c : Clustering α) (k : Cluster α) : Digraph.Row Nat (TreeNode α) Side := ⟨k.id, k.node, c.sides k⟩

/-- The member sets of the leaves of a graph. -/
def leafSets (g : Digraph Nat (TreeNode α) Side) : List NameSet :=
  g.nodes.values.filterMap fun label => label.bind fun node => if node.leaf then some node.members else none

variable {c : Clustering α} {k l left right : Cluster α} {starts : List (Cluster α)}

theorem sides_of_none (h : c.children k = none) : c.sides k = [] := by
  rw [sides, h]

theorem sides_of_some (h : c.children k = some (left, right)) :
    c.sides k = [(left.id, .left), (right.id, .right)] := by
  rw [sides, h]

theorem map_fst_sides (c : Clustering α) (k : Cluster α) :
    (c.sides k).map Prod.fst = (Walk.next c.children k).map Cluster.id := by
  unfold sides Walk.next
  cases c.children k <;> rfl

theorem addToTree_eq (c : Clustering α) (g : Digraph Nat (TreeNode α) Side) (k : Cluster α) :
    c.addToTree g k = g.addRow (c.treeRow k) := by
  unfold addToTree treeRow sides
  cases c.children k <;> rfl

theorem treeGraphOf_eq (c : Clustering α) (starts : List (Cluster α)) :
    c.treeGraphOf starts = ((c.below starts).map c.treeRow).foldl Digraph.addRow .empty := by
  rw [treeGraphOf, List.foldl_map, funext fun g => funext (c.addToTree_eq g)]

theorem map_key_treeRow (c : Clustering α) (ks : List (Cluster α)) :
    (ks.map c.treeRow).map Digraph.Row.key = ks.map Cluster.id := List.map_map

variable [Scalar α] {coupling : CouplingMap α}

namespace Forest

/-! ## Nodes and edges -/

section Below

variable (hsub : (c.below starts).Sublist (c.below c.clusters))

include hsub

theorem nodup_sides (h : Forest coupling c) (hk : k ∈ c.below starts) : ((c.sides k).map Prod.fst).Nodup := by
  rcases h.leaf_or_result (h.mem_arena_of_below hsub hk) with ⟨i, cls, -, rfl⟩ | ⟨m, hm, rfl⟩
  · rw [sides_of_none (children_eq_none rfl)]
    exact List.nodup_nil
  · rw [sides_of_some (h.children_result hm)]
    exact List.nodup_cons.2 ⟨fun hmem => (h.joins m hm).first_lt.ne (List.mem_singleton.1 hmem), List.nodup_singleton _⟩

theorem closed_rows (h : Forest coupling c) : ∀ r ∈ (c.below starts).map c.treeRow, ∀ e ∈ r.targets,
    e.1 ∈ ((c.below starts).map c.treeRow).map Digraph.Row.key := by
  rw [map_key_treeRow]
  refine List.forall_mem_map.2 fun k hk e he => ?_
  have hid := List.mem_map_of_mem (f := Prod.fst) he
  change e.1 ∈ (c.sides k).map Prod.fst at hid
  rw [map_fst_sides] at hid
  exact List.map_subset _ (h.next_subset_below hsub hk) hid

theorem shows_treeGraphOf (h : Forest coupling c) : (c.treeGraphOf starts).Shows ((c.below starts).map c.treeRow) := by
  rw [treeGraphOf_eq]
  refine Digraph.shows_rows ?_ (List.forall_mem_map.2 fun k hk => h.nodup_sides hsub hk)
  rw [map_key_treeRow]
  exact h.nodup_ids_below hsub

theorem edgesFrom_treeGraphOf (h : Forest coupling c) (hk : k ∈ c.below starts) :
    (c.treeGraphOf starts).edgesFrom k.id = c.sides k :=
  (h.shows_treeGraphOf hsub).edgesFrom _ (List.mem_map_of_mem hk)

theorem keys_perm (h : Forest coupling c) : (c.treeGraphOf starts).nodes.keys.Perm ((c.below starts).map Cluster.id) := by
  have hn := h.nodup_ids_below hsub
  rw [← map_key_treeRow] at hn ⊢
  exact (h.shows_treeGraphOf hsub).keys_perm hn (h.closed_rows hsub)

theorem entries_perm (h : Forest coupling c) :
    (c.treeGraphOf starts).nodes.entries.Perm ((c.below starts).map fun k => (k.id, some k.node)) := by
  have hn := h.nodup_ids_below hsub
  rw [← map_key_treeRow] at hn
  have hperm := (h.shows_treeGraphOf hsub).entries_perm hn (h.closed_rows hsub)
  rwa [List.map_map] at hperm

theorem edges_perm (h : Forest coupling c) :
    (c.treeGraphOf starts).edges.Perm ((c.below starts).flatMap fun k => (c.sides k).map fun e => (k.id, e)) := by
  have hn := h.nodup_ids_below hsub
  rw [← map_key_treeRow] at hn
  have hperm := (h.shows_treeGraphOf hsub).edges_perm hn (h.closed_rows hsub)
  rwa [List.flatMap_map] at hperm

/-- Each cluster that is met is one the walk starts from, or an edge leads to it. -/
theorem targets_perm (h : Forest coupling c) :
    (starts.map Cluster.id ++ (c.treeGraphOf starts).edges.map fun e => e.2.1).Perm ((c.below starts).map Cluster.id) := by
  have htargets : ((c.treeGraphOf starts).edges.map fun e => e.2.1).Perm
      (((c.below starts).flatMap (Walk.next c.children)).map Cluster.id) := by
    refine ((h.edges_perm hsub).map _).trans (List.Perm.of_eq ?_)
    rw [List.map_flatMap, List.map_flatMap]
    refine List.flatMap_congr fun k _ => ?_
    rw [List.map_map, ← map_fst_sides]
    rfl
  refine (htargets.append_left _).trans ?_
  rw [← List.map_append]
  exact (h.pops_below hsub).perm.map Cluster.id

theorem exists_edge (h : Forest coupling c) (hk : k ∈ c.below starts) (hl : l ∈ Walk.next c.children k) :
    ∃ side, (k.id, l.id, side) ∈ (c.treeGraphOf starts).edges := by
  have hid := List.mem_map_of_mem (f := Cluster.id) hl
  rw [← map_fst_sides] at hid
  obtain ⟨⟨i, side⟩, he, rfl⟩ := List.mem_map.1 hid
  exact ⟨side, (h.edges_perm hsub).symm.subset (List.mem_flatMap.2 ⟨k, hk, List.mem_map_of_mem he⟩)⟩

/-! ## Leaves -/

theorem leafSets_perm (h : Forest coupling c) :
    (leafSets (c.treeGraphOf starts)).Perm (((c.below starts).filter Cluster.isLeaf).map Cluster.members) := by
  have hlabels : ∀ ks : List (Cluster α),
      (ks.filterMap fun k => if k.isLeaf then some k.members else none) = (ks.filter Cluster.isLeaf).map Cluster.members := by
    intro ks
    induction ks with
    | nil => rfl
    | cons k ks ih =>
      rw [List.filterMap_cons, List.filter_cons, ih]
      cases k.isLeaf <;> rfl
  have hvalues : (leafSets (c.treeGraphOf starts)).Perm
      ((((c.below starts).map fun k => (k.id, some k.node)).map Prod.snd).filterMap fun label : Option (TreeNode α) =>
        label.bind fun node => if node.leaf then some node.members else none) :=
    ((h.entries_perm hsub).map Prod.snd).filterMap _
  rw [List.map_map, List.filterMap_map] at hvalues
  exact hvalues.trans (List.Perm.of_eq (hlabels _))

end Below

theorem isNone_children (h : Forest coupling c) (hk : k ∈ c.arena) : (c.children k).isNone = k.isLeaf := by
  rcases h.leaf_or_result hk with ⟨i, cls, -, rfl⟩ | ⟨m, hm, rfl⟩
  · rfl
  · rw [h.children_result hm, Cluster.isLeaf, (h.joins m hm).children_eq]
    rfl

theorem filter_below (h : Forest coupling c) (hk : k ∈ c.arena) : (c.below [k]).filter Cluster.isLeaf = (c.tree k).leaves := by
  have htree := (h.complete_tree hk).filter_preorder
  rw [← htree]
  have hbelow : c.below [k] = (c.tree k).preorder := by rw [below_eq, List.flatMap_singleton]
  rw [← hbelow]
  exact List.filter_congr fun l hl => (h.isNone_children (h.mem_arena_of_below (h.below_sublist hk) hl)).symm

end Forest

/-! ## Trees and forests -/

/-- The nodes of a graph are the clusters below one, its edges lead from a joined cluster to its two parts, and its leaves share
out the members. -/
structure ShowsTree (c : Clustering α) (k : Cluster α) (g : Digraph Nat (TreeNode α) Side) : Prop where
  mem_entries : ∀ i label, (i, label) ∈ g.nodes.entries ↔
    ∃ l, Walk.Below c.children k l ∧ i = l.id ∧ label = some ⟨l.members, l.isLeaf, l.mergeCoupling⟩
  leaf : ∀ l, Walk.Below c.children k l → l.isLeaf = true → g.edgesFrom l.id = []
  joined : ∀ l, Walk.Below c.children k l → l.isLeaf = false →
    ∃ left right, c.children l = some (left, right) ∧ g.edgesFrom l.id = [(left.id, .left), (right.id, .right)]
  isTree : g.IsTree k.id
  leaves_nonempty : ∀ s ∈ leafSets g, ∃ x, x ∈ s
  leaves_perm : ((leafSets g).flatMap NameSet.toList).Perm k.names

/-- The nodes and edges of a graph are those of the trees of the clusters at top level. -/
structure ShowsForest (c : Clustering α) (g : Digraph Nat (TreeNode α) Side) : Prop where
  entries_perm : g.nodes.entries.Perm (c.clusters.flatMap fun k => (c.treeGraphOf [k]).nodes.entries)
  edges_perm : g.edges.Perm (c.clusters.flatMap fun k => (c.treeGraphOf [k]).edges)
  keys_perm : g.nodes.keys.Perm (c.arena.map Cluster.id)
  length_edges : g.edges.length = 2 * c.history.length

namespace Forest

theorem inDegree_treeGraphOf (h : Forest coupling c) (hk : k ∈ c.arena) (hl : l ∈ c.below [k]) :
    (c.treeGraphOf [k]).inDegree l.id = if l.id = k.id then 0 else 1 := by
  have hsub := h.below_sublist hk
  -- the cluster is met once, at first or at the end of an edge
  have hcount := (h.targets_perm hsub).count_eq l.id
  rw [(h.nodup_ids_below hsub).count, if_pos (List.mem_map_of_mem hl), List.count_append, List.map_singleton,
    List.count_singleton, List.count, List.countP_map] at hcount
  have hdegree : (c.treeGraphOf [k]).inDegree l.id =
      (c.treeGraphOf [k]).edges.countP ((fun i => i == l.id) ∘ fun e => e.2.1) := rfl
  rw [hdegree]
  by_cases hroot : l.id = k.id
  · rw [if_pos hroot]
    rw [if_pos (by simp [hroot])] at hcount
    omega
  · rw [if_neg hroot]
    rw [if_neg (by simpa using Ne.symm hroot)] at hcount
    omega

theorem isTree_treeGraphOf (h : Forest coupling c) (hk : k ∈ c.arena) : (c.treeGraphOf [k]).IsTree k.id := by
  have hsub := h.below_sublist hk
  have hkeys := h.keys_perm hsub
  refine ⟨?_, fun e he => ⟨?_, ?_⟩, fun i hi => ?_, fun i hi => ?_⟩
  · exact hkeys.symm.subset (List.mem_map_of_mem ((h.mem_below_singleton hk).2 .refl))
  · obtain ⟨l, hl, hside⟩ := List.mem_flatMap.1 ((h.edges_perm hsub).subset he)
    obtain ⟨side, -, rfl⟩ := List.mem_map.1 hside
    exact hkeys.symm.subset (List.mem_map_of_mem hl)
  · exact hkeys.symm.subset ((h.targets_perm hsub).subset (List.mem_append_right _ (List.mem_map_of_mem he)))
  · obtain ⟨l, hl, rfl⟩ := List.mem_map.1 (hkeys.subset hi)
    exact h.inDegree_treeGraphOf hk hl
  · obtain ⟨l, hl, rfl⟩ := List.mem_map.1 (hkeys.subset hi)
    -- from part to part along the way down to the cluster
    have hbelow := (h.mem_below_singleton hk).1 hl
    clear hi hl
    induction hbelow with
    | refl => exact .refl
    | tail hway hpart ih => exact ih.tail (h.exists_edge hsub ((h.mem_below_singleton hk).2 hway) hpart)

theorem showsTree (h : Forest coupling c) (hk : k ∈ c.arena) : ShowsTree c k (c.treeGraphOf [k]) := by
  have hsub := h.below_sublist hk
  have hbelow := fun l => h.mem_below_singleton (l := l) hk
  have hleaves := h.leafSets_perm hsub
  rw [h.filter_below hk] at hleaves
  refine ⟨fun i label => ?_, fun l hl hleaf => ?_, fun l hl hjoined => ?_, h.isTree_treeGraphOf hk, fun s hs => ?_, ?_⟩
  · rw [(h.entries_perm hsub).mem_iff, List.mem_map]
    refine exists_congr fun l => and_congr (hbelow l) ?_
    rw [Prod.mk.injEq]
    exact and_congr eq_comm eq_comm
  · have hl := (hbelow l).2 hl
    have hnone := h.isNone_children (h.mem_arena_of_below hsub hl)
    rw [h.edgesFrom_treeGraphOf hsub hl, sides_of_none (Option.isNone_iff_eq_none.1 (hnone.trans hleaf))]
  · have hl := (hbelow l).2 hl
    have hnone := h.isNone_children (h.mem_arena_of_below hsub hl)
    cases hparts : c.children l with
    | none =>
      rw [hparts, hjoined] at hnone
      cases hnone
    | some p => exact ⟨p.1, p.2, rfl, by rw [h.edgesFrom_treeGraphOf hsub hl, sides_of_some hparts]⟩
  · obtain ⟨l, hl, rfl⟩ := List.mem_map.1 (hleaves.subset hs)
    rw [← h.filter_below hk] at hl
    exact List.exists_mem_of_ne_nil _ (h.nonempty l (h.mem_arena_of_below hsub (List.mem_of_mem_filter hl)))
  · refine (hleaves.flatMap_right _).trans ?_
    rw [List.flatMap_map]
    exact h.spread_perm hk

theorem showsForest (h : Forest coupling c) : ShowsForest c c.treeGraph := by
  have hall : (c.below c.clusters).Sublist (c.below c.clusters) := List.Sublist.refl _
  have hsub := fun k hk => h.below_sublist (k := k) (h.mem_clusters.1 hk).1
  have hsplit : c.below c.clusters = c.clusters.flatMap fun k => c.below [k] := by
    rw [below_eq]
    exact List.flatMap_congr fun k _ => by rw [below_eq, List.flatMap_singleton]
  refine ⟨?_, ?_, ?_, ?_⟩
  · refine (h.entries_perm hall).trans ?_
    rw [hsplit, List.map_flatMap]
    exact List.Perm.flatMap_left _ fun k hk => (h.entries_perm (hsub k hk)).symm
  · refine (h.edges_perm hall).trans ?_
    rw [hsplit, List.flatMap_assoc]
    exact List.Perm.flatMap_left _ fun k hk => (h.edges_perm (hsub k hk)).symm
  · exact (h.keys_perm hall).trans (h.below_clusters_perm.map _)
  · have hlength := (h.targets_perm hall).length_eq
    have hclusters := h.length_clusters
    have harena := h.length_arena
    rw [List.length_append, List.length_map, List.length_map, List.length_map, h.below_clusters_perm.length_eq] at hlength
    change (c.treeGraphOf c.clusters).edges.length = _
    omega

end Forest

/-! ## Runs -/

/-- **The graph of a run shows its trees.** From a cluster of the arena, as from those at top level, the walk comes to an end and
meets each cluster below once. The graph of what it meets is the tree of the cluster, or the forest of all trees. -/
theorem run_treeGraph (rule : StopRule α) (coupling : CouplingMap α) :
    (∀ k ∈ (run rule coupling).clustering.arena, WorksOff (run rule coupling).clustering [k] ∧
      ShowsTree (run rule coupling).clustering k ((run rule coupling).clustering.treeGraphOf [k])) ∧
    WorksOff (run rule coupling).clustering (run rule coupling).clustering.clusters ∧
    ShowsForest (run rule coupling).clustering (run rule coupling).clustering.treeGraph := by
  have h := forest_run rule coupling
  exact ⟨fun k hk => ⟨h.worksOff (h.below_sublist hk), h.showsTree hk⟩, h.worksOff (List.Sublist.refl _), h.showsForest⟩

/-- The graph of a chain has the last cluster for its root, which joins a single class and the two that were joined first. -/
theorem chain_graph_shown :
    (∃ k ∈ (run ⟨0, 1⟩ chain).clustering.arena, k.id = 4 ∧
      ShowsTree (run ⟨0, 1⟩ chain).clustering k ((run ⟨0, 1⟩ chain).clustering.treeGraphOf [k])) ∧
    (run ⟨0, 1⟩ chain).clustering.treeGraph.edges.length = 2 * (run ⟨0, 1⟩ chain).clustering.history.length ∧
    (run ⟨0, 1⟩ chain).clustering.treeGraph.edges =
      [(4, 2, .left), (4, 3, .right), (3, 0, .left), (3, 1, .right)] := by
  obtain ⟨htrees, -, hforest⟩ := run_treeGraph ⟨0, 1⟩ chain
  have hroot : ∃ k ∈ (run ⟨0, 1⟩ chain).clustering.arena, k.id = 4 := by decide +kernel
  obtain ⟨k, hk, hid⟩ := hroot
  exact ⟨⟨k, hk, hid, (htrees k hk).2⟩, hforest.length_edges, by decide +kernel⟩

end Clustering

end CouplingTree
