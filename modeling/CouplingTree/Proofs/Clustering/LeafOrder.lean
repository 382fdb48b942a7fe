import CouplingTree.Report.Text
import CouplingTree.Proofs.Clustering.Descent
import CouplingTree.Proofs.Clustering.Layout
import CouplingTree.Proofs.Clustering.Trees

/-!
# The order of the leaves

The rows of a linkage show the tree of the one cluster that is left, so that a layout which goes through it from left to right
lists the classes as they are spread below that cluster. A drawing of the trees meets them in the same order.

* `Forest.map_id_tree` : the tree that the rows show is the tree of clusters, by numbers.
* `Forest.leafOrderBy_eq` : hence the order of the leaves is how the classes are spread.
* `Forest.block_infix` : the classes of each cluster stand together in it.
* `Forest.drawnSingles_eq` : a drawing shows the single classes in the order in which they are spread.
* `run_leafOrder` : all this of the clustering that a run ends with.
-/

namespace CouplingTree.Clustering

variable {α : Type}

/-- The branches of a drawing from top to bottom. -/
def branches (c : Clustering α) : List (Branch α) :=
  Walk.visits (Branch.parts c) (c.trunks.map fun b => (c.arena.length, b))

theorem dendrogramLines_eq [Rounding α] (c : Clustering α) :
    c.dendrogramLines = "Clustering dendrogram:" :: c.branches.flatMap Branch.lines := rfl

/-- The members of the drawn clusters that have only one, from top to bottom. -/
def drawnSingles (c : Clustering α) : List String :=
  (c.branches.filter fun b => decide (b.cluster.size = 1)).flatMap fun b => b.cluster.names

variable [Scalar α] {coupling : CouplingMap α} {c : Clustering α} {k : Cluster α} {rows : List (LinkageRow α)}

namespace Forest

/-! ## The tree that the rows show -/

theorem linkage_eq_ok_iff (h : Forest coupling c) :
    c.linkage = .ok rows ↔
      2 ≤ coupling.classes.length ∧ c.clusters.length = 1 ∧ rows = c.history.map Merge.row := by
  have hlength := h.length_clusters
  rw [Clustering.linkage_eq_ok_iff, h.leafCount_eq]
  refine and_congr_right fun _ => and_congr_left fun _ => ?_
  omega

theorem parts_rows (h : Forest coupling c) (hrows : c.linkage = .ok rows) (hk : k ∈ c.arena) :
    LinkageRow.parts rows k.id = (c.children k).map (Prod.map Cluster.id Cluster.id) := by
  obtain ⟨-, hlen, rfl⟩ := Clustering.linkage_eq_ok_iff.1 hrows
  rw [h.leafCount_eq] at hlen
  rcases h.leaf_or_result hk with ⟨i, cls, hcls, rfl⟩ | ⟨m, hm, rfl⟩
  · have hi := (List.getElem?_eq_some_iff.1 hcls).1
    have hle : (Cluster.leaf (α := α) i cls).id ≤ (c.history.map Merge.row).length := by
      rw [List.length_map]
      exact Nat.le_of_lt_succ (hi.trans_eq hlen.symm)
    rw [LinkageRow.parts_of_le hle, children_eq_none rfl]
    rfl
  · obtain ⟨j, hj⟩ := List.mem_iff_getElem?.1 hm
    have hid := h.result_id hj
    have hchildren := (h.joins m hm).children_eq
    have hat : (c.history.map Merge.row)[m.result.id - ((c.history.map Merge.row).length + 1)]? = some m.row := by
      rw [List.length_map, hlen, hid, Nat.add_sub_cancel_left, List.getElem?_map, hj]
      rfl
    rw [h.children_result hm, LinkageRow.parts_of_row (by rw [List.length_map]; omega) hat (l := m.first.id) (r := m.second.id)]
    · rfl
    · rw [Merge.row, hchildren]
      rfl
    · rw [Merge.row, hchildren]
      rfl

/-- The cluster with the greatest number is no part of another one. -/
theorem id_of_clusters_eq (h : Forest coupling c) (htop : c.clusters = [k]) : k.id + 1 = c.arena.length := by
  have hlt := h.lt_length_arena (h.mem_arena_of_clusters_eq htop)
  have hlast : c.arena[c.arena.length - 1]? = some c.arena[c.arena.length - 1] := List.getElem?_eq_getElem (by omega)
  have hid := h.id_eq hlast
  rcases h.top_or_part (List.mem_of_getElem? hlast) with hmem | ⟨m, hm, hpart⟩
  · rw [htop, List.mem_singleton] at hmem
    rw [hmem] at hid
    omega
  · have hresult := h.lt_length_arena (h.result_mem hm)
    have hfirst := (h.joins m hm).first_lt
    have hsecond := (h.joins m hm).second_lt
    rcases hpart with hpart | hpart <;> rw [hpart] at hid <;> omega

theorem map_id_tree (h : Forest coupling c) (hrows : c.linkage = .ok rows) (htop : c.clusters = [k]) :
    (c.tree k).map Cluster.id = LinkageRow.tree rows := by
  have hk : k ∈ c.arena := h.mem_arena_of_clusters_eq htop
  have hid := h.id_of_clusters_eq htop
  have harena := h.length_arena
  have hlen := h.length_rows hrows
  have hlength : rows.length = c.history.length := by rw [(h.linkage_eq_ok_iff.1 hrows).2.2, List.length_map]
  rw [tree, h.grow_eq hk _ (rows.length + 1) (by omega) (by omega), LinkageRow.tree,
    show 2 * rows.length = k.id by omega]
  exact BinaryTree.map_grow (P := fun k => k ∈ c.arena) (fun l hl => h.parts_rows hrows hl)
    (fun l left right hl hparts => h.parts_mem hl hparts) hk

/-! ## The order of the leaves -/

theorem filterMap_leaves (h : Forest coupling c) (hk : k ∈ c.arena) :
    ((c.tree k).map Cluster.id).leaves.filterMap (fun i => coupling.classes[i]?) = c.spread k := by
  rw [BinaryTree.leaves_map, List.filterMap_map, List.filterMap_eq_flatMap_toList, spread]
  exact List.flatMap_congr fun l hl => h.getElem?_of_mem_leaves hk l hl

/-- The classes as they are spread below the one cluster that is left, or none. -/
theorem leafOrderBy_eq (h : Forest coupling c) {layout : Layout α}
    (hlayout : ∀ rows, c.linkage = .ok rows → layout rows = .ok (LinkageRow.tree rows).leaves) :
    c.leafOrderBy layout =
      .ok (if 2 ≤ coupling.classes.length ∧ c.clusters.length = 1 then c.clusters.flatMap c.spread else []) := by
  rw [leafOrderBy]
  cases hrows : c.linkage with
  | error e =>
    rw [if_neg]
    rintro ⟨htwo, hone⟩
    cases hrows.symm.trans (h.linkage_eq_ok_iff.2 ⟨htwo, hone, rfl⟩)
  | ok rows =>
    obtain ⟨htwo, hone, -⟩ := h.linkage_eq_ok_iff.1 hrows
    obtain ⟨root, htop⟩ := List.length_eq_one_iff.1 hone
    have hroot : root ∈ c.arena := h.mem_arena_of_clusters_eq htop
    dsimp only
    rw [if_pos ⟨htwo, hone⟩, h.leafNames_eq, hlayout rows hrows, ← h.map_id_tree hrows htop, htop, List.flatMap_singleton]
    exact congrArg Except.ok (h.filterMap_leaves hroot)

/-! ## Blocks -/

/-- Below the one cluster that is left, the classes of every cluster are spread in one block. -/
theorem block_infix (h : Forest coupling c) {root : Cluster α} (htop : c.clusters = [root]) (hk : k ∈ c.arena) :
    c.spread k <:+: c.spread root := by
  refine h.descent (P := fun k => c.spread k <:+: c.spread root) ?_ ?_ hk
  · intro l hl
    rw [htop, List.mem_singleton] at hl
    subst hl
    exact List.infix_rfl
  · intro m hm hresult
    rw [h.spread_result hm] at hresult
    exact ⟨(List.infix_append_left).trans hresult, (List.infix_append_right).trans hresult⟩

end Forest

/-! ## The drawing -/

omit [Scalar α] in
/-- A drawing walks through the tree of each cluster at top level. -/
theorem clusters_branches (c : Clustering α) :
    c.branches.map Branch.cluster = c.clusters.flatMap fun k => (c.tree k).preorder := by
  have htree : ∀ b : Branch α, ((BinaryTree.grow (Branch.parts c) c.arena.length b).preorder).map Branch.cluster =
      (c.tree b.cluster).preorder := by
    intro b
    rw [← BinaryTree.preorder_map, tree]
    refine congrArg BinaryTree.preorder (BinaryTree.map_grow (P := fun _ => True) ?_ (fun _ _ _ _ _ => ⟨trivial, trivial⟩) trivial)
    intro b _
    rw [Branch.parts, Option.map_map]
    exact Option.map_id'.symm
  have htrunks : c.trunks.map Branch.cluster = c.clusters := by
    rw [trunks, List.mapIdx_eq_zipIdx_map, List.map_map]
    exact List.zipIdx_map_fst _ _
  rw [branches, Walk.visits_eq, List.flatMap_map, List.map_flatMap, List.flatMap_congr fun b _ => htree b, ← htrunks,
    List.flatMap_map]

/-- A drawing shows the single classes as they are spread below the clusters at top level. -/
theorem Forest.drawnSingles_eq (h : Forest coupling c) : c.drawnSingles = c.clusters.flatMap c.spread := by
  have hmap : c.drawnSingles = ((c.branches.map Branch.cluster).filter fun k => decide (k.size = 1)).flatMap Cluster.names := by
    rw [List.filter_map, List.flatMap_map]
    rfl
  rw [hmap, clusters_branches, List.filter_flatMap, List.flatMap_assoc]
  exact List.flatMap_congr fun k hk => h.singles_preorder (h.mem_clusters.1 hk).1

/-! ## Runs -/

/-- An order of the classes in which those of each cluster stand together, those of its left part right before those of its
right one, and in which a drawing shows them. -/
structure Arranges (coupling : CouplingMap α) (c : Clustering α) (order : List String) : Prop where
  perm : order.Perm coupling.classes
  block : ∀ k ∈ c.arena, ∃ block, block.Perm k.names ∧ block <:+: order
  parts : ∀ k ∈ c.arena, ∀ left right, c.children k = some (left, right) →
    ∃ before after, before.Perm left.names ∧ after.Perm right.names ∧ before ++ after <:+: order
  drawn : order = c.drawnSingles

theorem Forest.arranges (h : Forest coupling c) (hone : c.clusters.length = 1) :
    Arranges coupling c (c.clusters.flatMap c.spread) := by
  obtain ⟨root, htop⟩ := List.length_eq_one_iff.1 hone
  have hspread : c.clusters.flatMap c.spread = c.spread root := by rw [htop, List.flatMap_singleton]
  refine ⟨?_, fun k hk => ⟨c.spread k, h.spread_perm hk, hspread ▸ h.block_infix htop hk⟩, ?_, h.drawnSingles_eq.symm⟩
  · refine List.Perm.trans ?_ h.shared
    exact List.Perm.flatMap_left _ fun k hk => h.spread_perm (h.mem_clusters.1 hk).1
  · intro k hk left right hparts
    obtain ⟨m, hm, rfl, rfl, rfl⟩ := h.exists_merge_of_children hk hparts
    refine ⟨c.spread m.first, c.spread m.second, h.spread_perm (h.first_mem hm), h.spread_perm (h.second_mem hm), ?_⟩
    rw [← h.spread_result hm, hspread]
    exact h.block_infix htop hk

/-- **The leaves of a run are laid out block by block.** If no value is more than one, each layout that goes through trees from
left to right gives an order of the leaves. It has classes exactly when there are two or more and one cluster is left, and then
arranges them all. The layout in use gives the same order, as long as numbers of clusters fit into 64 bits. -/
theorem run_leafOrder (rule : StopRule Rat) (coupling : CouplingMap Rat) (hle : ∀ e ∈ coupling.entries, e.2 ≤ 1)
    (layout : Layout Rat) (hlayout : layout.LeftFirst) :
    ∃ order, (run rule coupling).clustering.leafOrderBy layout = .ok order ∧
      (order ≠ [] ↔ 2 ≤ coupling.classes.length ∧ (run rule coupling).clustering.clusters.length = 1) ∧
      (order ≠ [] → Arranges coupling (run rule coupling).clustering order) ∧
      (2 * coupling.classes.length ≤ LinkageRow.numberBound →
        (run rule coupling).clustering.leafOrder = .ok order) := by
  have h := forest_run rule coupling
  have hdist : ∀ m ∈ (run rule coupling).clustering.history, ¬ 1 - m.coupling < 0 := fun m hm =>
    not_lt.2 (sub_nonneg.2 (run_coupling_le rule zero_le_one
      (fun p v hv => hle (p, v) ((coupling.find?_eq_some_iff p v).1 hv)) m hm))
  have hdistances : ∀ rows, (run rule coupling).clustering.linkage = .ok rows → ∀ row ∈ rows, ¬ row.distance < 0 := by
    intro rows hrows
    obtain ⟨-, -, rfl⟩ := h.linkage_eq_ok_iff.1 hrows
    exact List.forall_mem_map.2 hdist
  refine ⟨_, h.leafOrderBy_eq fun rows hrows => hlayout rows (h.rows_ne_nil hrows) (h.oneTree hrows) (hdistances rows hrows),
    ?_, ?_, fun hbound => ?_⟩
  · rw [ite_ne_right_iff]
    refine and_iff_left_of_imp fun ⟨htwo, hone⟩ hnil => ?_
    have hlength := (h.arranges hone).perm.length_eq
    rw [hnil, List.length_nil] at hlength
    omega
  · intro hne
    obtain ⟨hcond, -⟩ := ite_ne_right_iff.1 hne
    rw [if_pos hcond]
    exact h.arranges hcond.2
  · rw [← leafOrderBy_leaves]
    refine h.leafOrderBy_eq fun rows hrows => ?_
    have hlength := h.length_rows hrows
    exact (h.oneTree hrows).leaves_eq (hdistances rows hrows) (by omega)

/-- The leaves of a chain, laid out from left to right: its last class stands apart from the two that are joined first. -/
theorem chain_arranged :
    ∃ order, (run ⟨0, 1⟩ chain).clustering.leafOrderBy (fun rows => .ok (LinkageRow.tree rows).leaves) = .ok order ∧
      order = ["C", "A", "B"] ∧ Arranges chain (run ⟨0, 1⟩ chain).clustering order := by
  obtain ⟨order, hok, hiff, harranges, -⟩ := run_leafOrder ⟨0, 1⟩ chain (by decide +kernel)
    (fun rows => .ok (LinkageRow.tree rows).leaves) fun _ _ _ _ => rfl
  have hne : order ≠ [] := hiff.2 (by decide +kernel)
  refine ⟨order, hok, (harranges hne).drawn.trans ?_, harranges hne⟩
  decide +kernel

end CouplingTree.Clustering
