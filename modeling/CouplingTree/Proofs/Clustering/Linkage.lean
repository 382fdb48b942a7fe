import CouplingTree.Proofs.Clustering.LeafOrder

/-!
# The linkage of a run

The linkage of a run is there exactly when the run ends with one tree of two classes or more, and it holds the whole tree.

* `LinkageRow.Encodes` : rows that number the clusters of one tree of so many classes and count their members.
* `LinkageRow.rebuilt` : the clusters that the rows tell of, read from the last row down.
* `Forest.linkage_eq` : when there is a linkage.
* `Forest.encodes`, `Forest.rebuilt_perm` : the rows of a forest, and the arena rebuilt from them.
* `run_linkage` : both for the clustering that a run ends with.
-/

namespace CouplingTree

variable {α : Type}

namespace LinkageRow

/-- The classes below a cluster as the rows count them. -/
def sizeAt (rows : List (LinkageRow α)) (id : Nat) : Nat :=
  if id ≤ rows.length then 1
  else
    match rows[id - (rows.length + 1)]? with
    | some row => row.size
    | none => 0

/-- Rows of one tree over so many classes, where row `k` stands for cluster `n + k`. -/
structure Encodes (n : Nat) (rows : List (LinkageRow α)) : Prop where
  length_eq : rows.length + 1 = n
  joined : ∀ (k : Nat) (row : LinkageRow α), rows[k]? = some row → ∃ l r : Nat,
    row.left = some (l : Int) ∧ row.right = some (r : Int) ∧ l < r ∧ r < n + k ∧
      row.size = sizeAt rows l + sizeAt rows r
  /-- Each cluster but the last is a part exactly once. -/
  ids_perm : (rows.flatMap ids).Perm ((List.range (2 * n - 2)).map fun i : Nat => (i : Int))
  size_last : rows.getLast?.map size = some n

/-- The numbers of the clusters in the tree that rows show, each with the classes at the leaves below it. -/
def rebuilt (classes : List String) (rows : List (LinkageRow α)) : List (Nat × NameSet) :=
  (tree rows).subtrees.map fun t => (t.item, NameSet.ofList (t.leaves.filterMap fun i => classes[i]?))

end LinkageRow

namespace Clustering

variable [Scalar α] {coupling : CouplingMap α} {c : Clustering α} {k : Cluster α} {rows : List (LinkageRow α)}

namespace Forest

theorem clusters_ne_nil (h : Forest coupling c) (hclasses : coupling.classes ≠ []) : c.clusters ≠ [] := by
  intro hnil
  have hshared := h.shared
  rw [hnil, List.flatMap_nil] at hshared
  exact hclasses hshared.nil_eq.symm

/-- There is a linkage unless there are fewer than two classes, or more trees than one. -/
theorem linkage_eq (h : Forest coupling c) :
    c.linkage =
      if coupling.classes.length < 2 ∨ 1 < c.clusters.length then .error ⟨coupling.classes.length, c.history.length⟩
      else .ok (c.history.map Merge.row) := by
  have hlength := h.length_clusters
  unfold linkage
  dsimp only
  rw [h.leafCount_eq]
  by_cases htwo : coupling.classes.length < 2
  · rw [if_pos (Or.inl htwo), if_pos (Or.inl htwo)]
  · have hpos := List.length_pos_of_ne_nil (h.clusters_ne_nil (List.ne_nil_of_length_pos (by omega)))
    have hone : c.history.length + 1 ≠ coupling.classes.length ↔ 1 < c.clusters.length := by omega
    exact if_congr (or_congr_right hone) rfl rfl

/-! ## Sizes -/

theorem sizeAt_eq (h : Forest coupling c) (hrows : c.linkage = .ok rows) (hk : k ∈ c.arena) :
    LinkageRow.sizeAt rows k.id = k.size := by
  have hlength := h.length_rows hrows
  obtain ⟨-, -, rfl⟩ := h.linkage_eq_ok_iff.1 hrows
  rw [List.length_map] at hlength
  unfold LinkageRow.sizeAt
  rw [List.length_map]
  rcases h.leaf_or_result hk with ⟨i, cls, hcls, rfl⟩ | ⟨m, hm, rfl⟩
  · have hi := (List.getElem?_eq_some_iff.1 hcls).1
    have hleaf : (Cluster.leaf (α := α) i cls).id = i := rfl
    rw [if_pos (by omega)]
    rfl
  · obtain ⟨j, hj⟩ := List.mem_iff_getElem?.1 hm
    have hid := h.result_id hj
    have hplace : m.result.id - (c.history.length + 1) = j := by omega
    rw [if_neg (by omega), hplace, List.getElem?_map, hj]
    rfl

theorem size_of_clusters_eq (h : Forest coupling c) (htop : c.clusters = [k]) : k.size = coupling.classes.length := by
  have hshared := h.shared.length_eq
  rwa [htop, List.flatMap_singleton] at hshared

/-- The last merge makes the one cluster that is left, as both have the greatest number. -/
theorem result_getLast (h : Forest coupling c) (htop : c.clusters = [k]) (hne : c.history ≠ []) :
    (c.history.getLast hne).result = k := by
  have hid := h.id_of_clusters_eq htop
  have hlast := h.result_id (List.getLast?_eq_getElem? (l := c.history) ▸ List.getLast?_eq_some_getLast hne)
  have harena := h.length_arena
  have hpos := List.length_pos_of_ne_nil hne
  have hat := h.getElem?_id (h.result_mem (List.getLast_mem hne))
  rw [show (c.history.getLast hne).result.id = k.id by omega, h.getElem?_id (h.mem_arena_of_clusters_eq htop)] at hat
  exact (Option.some.inj hat).symm

theorem size_last (h : Forest coupling c) (hrows : c.linkage = .ok rows) :
    rows.getLast?.map LinkageRow.size = some coupling.classes.length := by
  have hne := h.rows_ne_nil hrows
  obtain ⟨-, hone, rfl⟩ := h.linkage_eq_ok_iff.1 hrows
  obtain ⟨root, htop⟩ := List.length_eq_one_iff.1 hone
  have hhistory : c.history ≠ [] := mt List.map_eq_nil_iff.2 hne
  rw [List.getLast?_map, List.getLast?_eq_some_getLast hhistory]
  show some (c.history.getLast hhistory).result.size = _
  rw [h.result_getLast htop, h.size_of_clusters_eq htop]

/-! ## Rows -/

theorem ids_perm (h : Forest coupling c) (hrows : c.linkage = .ok rows) :
    (rows.flatMap LinkageRow.ids).Perm ((List.range (2 * coupling.classes.length - 2)).map fun i : Nat => (i : Int)) := by
  have hlength := h.length_clusters
  obtain ⟨-, hone, rfl⟩ := h.linkage_eq_ok_iff.1 hrows
  obtain ⟨root, htop⟩ := List.length_eq_one_iff.1 hone
  have hid := h.id_of_clusters_eq htop
  have harena := h.length_arena
  have hactive : c.active = [root.id] := by rw [← h.clusters_ids, htop, List.map_singleton]
  -- every number is active or a part, and the last one is the only active one
  have hall := h.accounted
  rw [hactive, ← hid, List.range_succ] at hall
  have hparts := (List.perm_append_left_iff [root.id]).1 (hall.trans List.perm_append_comm)
  rw [h.flatMap_row_ids, show 2 * coupling.classes.length - 2 = root.id by omega]
  exact hparts.map _

theorem encodes (h : Forest coupling c) (hrows : c.linkage = .ok rows) :
    LinkageRow.Encodes coupling.classes.length rows where
  length_eq := h.length_rows hrows
  joined := by
    intro k row hrow
    have hall := (h.linkage_eq_ok_iff.1 hrows).2.2
    rw [hall, List.getElem?_map, Option.map_eq_some_iff] at hrow
    obtain ⟨m, hm, rfl⟩ := hrow
    have hmem := List.mem_of_getElem? hm
    have hjoins := h.joins m hmem
    have hid := h.result_id hm
    refine ⟨m.first.id, m.second.id, ?_, ?_, hjoins.first_lt, hid ▸ hjoins.second_lt, ?_⟩
    · rw [Merge.row, hjoins.children_eq]
      rfl
    · rw [Merge.row, hjoins.children_eq]
      rfl
    · rw [h.sizeAt_eq hrows (h.first_mem hmem), h.sizeAt_eq hrows (h.second_mem hmem), ← hjoins.size_eq]
      rfl
  ids_perm := h.ids_perm hrows
  size_last := h.size_last hrows

/-- The arena can be told from the rows. -/
theorem rebuilt_perm (h : Forest coupling c) (hrows : c.linkage = .ok rows) :
    (LinkageRow.rebuilt coupling.classes rows).Perm (c.arena.map fun k => (k.id, k.members)) := by
  obtain ⟨root, htop⟩ := List.length_eq_one_iff.1 (h.linkage_eq_ok_iff.1 hrows).2.1
  have hroot : root ∈ c.arena := h.mem_arena_of_clusters_eq htop
  have hperm := h.preorder_perm
  rw [htop, List.flatMap_singleton] at hperm
  have hmembers : ∀ k ∈ c.arena, NameSet.ofList (c.spread k) = k.members := by
    intro k hk
    refine NameSet.ext_mem fun x => ?_
    rw [NameSet.mem_ofList, (h.spread_perm hk).mem_iff]
    rfl
  have hnodes : ∀ k ∈ (c.tree root).preorder,
      (((c.tree k).map Cluster.id).item,
        NameSet.ofList (((c.tree k).map Cluster.id).leaves.filterMap fun i => coupling.classes[i]?)) = (k.id, k.members) := by
    intro k hk
    have hk : k ∈ c.arena := hperm.subset hk
    rw [BinaryTree.item_map, item_tree, h.filterMap_leaves hk, hmembers k hk]
  unfold LinkageRow.rebuilt
  rw [← h.map_id_tree hrows htop, BinaryTree.subtrees_map, List.map_map, h.subtrees_tree hroot, List.map_map]
  exact (List.Perm.of_eq (List.map_congr_left hnodes)).trans (hperm.map _)

end Forest

/-- **The linkage of a run holds its tree.** There is none exactly when there are fewer than two classes or more clusters
left than one. Otherwise its rows number the clusters of one tree and count their members, each with the distance at which
its merge was made, and reading them from the last row down gives the members of every cluster of the arena. -/
theorem run_linkage (rule : StopRule α) (coupling : CouplingMap α) :
    ((run rule coupling).clustering.linkage =
      if coupling.classes.length < 2 ∨ 1 < (run rule coupling).clustering.clusters.length then
        .error ⟨coupling.classes.length, (run rule coupling).clustering.history.length⟩
      else .ok ((run rule coupling).clustering.history.map Merge.row)) ∧
    ∀ rows, (run rule coupling).clustering.linkage = .ok rows →
      LinkageRow.Encodes coupling.classes.length rows ∧
      rows.map LinkageRow.distance =
        (run rule coupling).clustering.history.map (fun m => 1 - m.result.mergeCoupling) ∧
      (LinkageRow.rebuilt coupling.classes rows).Perm
        ((run rule coupling).clustering.arena.map fun k => (k.id, k.members)) := by
  have h := forest_run rule coupling
  refine ⟨h.linkage_eq, fun rows hrows => ⟨h.encodes hrows, ?_, h.rebuilt_perm hrows⟩⟩
  rw [(h.linkage_eq_ok_iff.1 hrows).2.2, List.map_map]
  refine List.map_congr_left fun m hm => ?_
  rw [(h.joins m hm).coupling_eq]
  rfl

/-- The rows of a chain tell of three single classes and of two clusters. -/
theorem chain_rebuilt :
    (run ⟨0, 1⟩ chain).clustering.linkage = .ok ((run ⟨0, 1⟩ chain).clustering.history.map Merge.row) ∧
    LinkageRow.Encodes chain.classes.length ((run ⟨0, 1⟩ chain).clustering.history.map Merge.row) ∧
    (LinkageRow.rebuilt chain.classes ((run ⟨0, 1⟩ chain).clustering.history.map Merge.row)).map
      (fun p => (p.1, p.2.toList)) = [(4, ["A", "B", "C"]), (2, ["C"]), (3, ["A", "B"]), (0, ["A"]), (1, ["B"])] := by
  have hlinkage : (run ⟨0, 1⟩ chain).clustering.linkage = .ok ((run ⟨0, 1⟩ chain).clustering.history.map Merge.row) := by
    rw [(run_linkage ⟨0, 1⟩ chain).1, if_neg (by decide +kernel)]
  obtain ⟨hencodes, -, -⟩ := (run_linkage ⟨0, 1⟩ chain).2 _ hlinkage
  refine ⟨hlinkage, hencodes, ?_⟩
  decide +kernel

end Clustering

end CouplingTree
