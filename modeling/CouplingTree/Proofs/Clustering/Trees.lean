import CouplingTree.Proofs.Clustering.Consistency
import CouplingTree.Proofs.Trees

/-!
# The trees of a forest

`Clustering.tree c k` is the tree of clusters below `k`, and `Clustering.spread c k` lists the classes of its leaves from
left to right.

* `Forest.mem_members_of_next`, `Forest.pairwise_next` : the parts of a cluster have classes of it, and none in common.
* `Forest.tree_leaf`, `Forest.tree_result` : a single class is a leaf, and the tree of a merge has those of its two
  clusters below it.
* `Forest.descent` : what holds at top level and passes to the clusters of a merge holds of all clusters; hence
  `Forest.exists_top`, each cluster lies in one at top level, and `Forest.eq_of_names_eq`, no other one has the same classes.
* `Forest.spread_perm`, `Forest.spread_result` : the classes of a cluster, those of the first part before those of the second.
* `Forest.singles_preorder` : in the same order a walk meets the clusters of single classes.
* `Forest.preorder_perm` : the trees of the clusters at top level share out the arena.
* `Forest.complete_tree` : no tree of clusters is cut off.
* `Forest.below_clusters_perm`, `Forest.below_sublist` : a walk from the top level meets the arena, and the tree of each cluster
  is a part of that, so that nothing is met twice.
* `Forest.worksOff` : hence a stack is worked off, and each cluster below those on it is taken off once.
-/

namespace CouplingTree.Clustering

variable {α : Type}

/-- The tree of clusters below a cluster. -/
def tree (c : Clustering α) (k : Cluster α) : BinaryTree (Cluster α) := .grow c.children c.arena.length k

/-- The classes of a cluster in the order of the leaves below it. -/
def spread (c : Clustering α) (k : Cluster α) : List String := (c.tree k).leaves.flatMap Cluster.names

theorem mem_preorder_tree (c : Clustering α) (k : Cluster α) : k ∈ (c.tree k).preorder := by
  have hitem := BinaryTree.item_mem_preorder (c.tree k)
  rwa [tree, BinaryTree.item_grow] at hitem

section Walks

variable {c : Clustering α} {k : Cluster α} {starts : List (Cluster α)}

theorem below_eq (c : Clustering α) (starts : List (Cluster α)) :
    c.below starts = starts.flatMap fun k => (c.tree k).preorder := by
  rw [below, Walk.visits_eq, List.flatMap_map]
  rfl

theorem mem_below_of_mem (hk : k ∈ starts) : k ∈ c.below starts := by
  rw [below_eq]
  exact List.mem_flatMap.2 ⟨k, hk, mem_preorder_tree c k⟩

/-- A stack of clusters is worked off, and takes each cluster below those on it off once. -/
structure WorksOff (c : Clustering α) (starts : List (Cluster α)) : Prop where
  pops_iff : ∀ met, Walk.Pops c.children starts met ↔ met = c.below starts
  once : (c.below starts).Nodup
  mem_iff : ∀ l, l ∈ c.below starts ↔ ∃ k ∈ starts, Walk.Below c.children k l

end Walks

variable [Scalar α] {coupling : CouplingMap α} {c : Clustering α} {m : Merge α} {k : Cluster α}

omit [Scalar α] in
theorem children_eq_none (h : k.children = none) : c.children k = none := by
  rw [children, h]

theorem next_leaf (c : Clustering α) (i : Nat) (cls : String) : Walk.next c.children (Cluster.leaf i cls) = [] :=
  Walk.next_of_none (children_eq_none rfl)

namespace Forest

/-! ## The parts of a cluster -/

theorem children_result (h : Forest coupling c) (hm : m ∈ c.history) : c.children m.result = some (m.first, m.second) := by
  have hjoins := h.joins m hm
  rw [children, hjoins.children_eq]
  dsimp only
  rw [hjoins.first_at, hjoins.second_at]

theorem first_mem (h : Forest coupling c) (hm : m ∈ c.history) : m.first ∈ c.arena :=
  List.mem_of_getElem? (h.joins m hm).first_at

theorem second_mem (h : Forest coupling c) (hm : m ∈ c.history) : m.second ∈ c.arena :=
  List.mem_of_getElem? (h.joins m hm).second_at

theorem result_mem (h : Forest coupling c) (hm : m ∈ c.history) : m.result ∈ c.arena := by
  rw [h.arena_eq]
  exact List.mem_append_right _ (List.mem_map_of_mem hm)

/-- A cluster with parts is the result of the merge that joined them. -/
theorem exists_merge_of_children (h : Forest coupling c) (hk : k ∈ c.arena) {left right : Cluster α}
    (hparts : c.children k = some (left, right)) : ∃ m ∈ c.history, m.result = k ∧ m.first = left ∧ m.second = right := by
  rcases h.leaf_or_result hk with ⟨i, cls, -, rfl⟩ | ⟨m, hm, rfl⟩
  · cases hparts
  · rw [h.children_result hm] at hparts
    cases hparts
    exact ⟨m, hm, rfl, rfl, rfl⟩

theorem parts_mem (h : Forest coupling c) (hk : k ∈ c.arena) {left right : Cluster α}
    (hparts : c.children k = some (left, right)) : left ∈ c.arena ∧ right ∈ c.arena := by
  obtain ⟨m, hm, -, rfl, rfl⟩ := h.exists_merge_of_children hk hparts
  exact ⟨h.first_mem hm, h.second_mem hm⟩

theorem next_result (h : Forest coupling c) (hm : m ∈ c.history) :
    Walk.next c.children m.result = [m.first, m.second] := Walk.next_of_some (h.children_result hm)

theorem next_subset_arena (h : Forest coupling c) (hk : k ∈ c.arena) : Walk.next c.children k ⊆ c.arena := by
  rcases h.leaf_or_result hk with ⟨i, cls, -, rfl⟩ | ⟨m, hm, rfl⟩
  · rw [next_leaf]
    exact List.nil_subset _
  · rw [h.next_result hm]
    exact List.cons_subset.2 ⟨h.first_mem hm, List.cons_subset.2 ⟨h.second_mem hm, List.nil_subset _⟩⟩

theorem mem_members_of_next (h : Forest coupling c) {l : Cluster α} (hk : k ∈ c.arena) (hl : l ∈ Walk.next c.children k) :
    ∀ x ∈ l.members, x ∈ k.members := by
  rcases h.leaf_or_result hk with ⟨i, cls, -, rfl⟩ | ⟨m, hm, rfl⟩
  · rw [next_leaf] at hl
    cases hl
  · intro x hx
    rw [h.next_result hm] at hl
    rw [(h.joins m hm).mem_members]
    rcases List.mem_pair.1 hl with rfl | rfl
    · exact Or.inl hx
    · exact Or.inr hx

theorem pairwise_next (h : Forest coupling c) (hk : k ∈ c.arena) :
    (Walk.next c.children k).Pairwise fun left right => left.members.Apart right.members := by
  rcases h.leaf_or_result hk with ⟨i, cls, -, rfl⟩ | ⟨m, hm, rfl⟩
  · rw [next_leaf]
    exact List.Pairwise.nil
  · rw [h.next_result hm, List.pairwise_pair]
    exact (h.joins m hm).apart

/-! ## Growth -/

/-- Parts have smaller numbers, and clusters with the least numbers have none, so that no tree is cut off. -/
theorem grow_eq (h : Forest coupling c) (hk : k ∈ c.arena) (depth depth' : Nat)
    (hdepth : k.id < coupling.classes.length + depth) (hdepth' : k.id < coupling.classes.length + depth') :
    BinaryTree.grow c.children depth k = BinaryTree.grow c.children depth' k := by
  refine h.cluster_induction (P := fun k => ∀ depth depth', k.id < coupling.classes.length + depth →
    k.id < coupling.classes.length + depth' → BinaryTree.grow c.children depth k = BinaryTree.grow c.children depth' k)
    ?_ ?_ hk depth depth' hdepth hdepth'
  · intro i cls _ depth depth' _ _
    rw [BinaryTree.grow_of_none (children_eq_none rfl), BinaryTree.grow_of_none (children_eq_none rfl)]
  · intro m hm hfirst hsecond depth depth' hdepth hdepth'
    have hjoins := h.joins m hm
    have hlt := hjoins.first_lt
    have hlt' := hjoins.second_lt
    obtain ⟨j, hj⟩ := List.mem_iff_getElem?.1 hm
    have hid := h.result_id hj
    obtain ⟨depth, rfl⟩ : ∃ d, depth = d + 1 := Nat.exists_eq_succ_of_ne_zero (by omega)
    obtain ⟨depth', rfl⟩ : ∃ d, depth' = d + 1 := Nat.exists_eq_succ_of_ne_zero (by omega)
    rw [BinaryTree.grow_of_some (h.children_result hm), BinaryTree.grow_of_some (h.children_result hm),
      hfirst depth depth' (by omega) (by omega), hsecond depth depth' (by omega) (by omega)]

theorem nodup_arena (h : Forest coupling c) : c.arena.Nodup := List.Nodup.of_map Cluster.id (h.ids ▸ List.nodup_range)

theorem lt_length_arena (h : Forest coupling c) (hk : k ∈ c.arena) : k.id < c.arena.length :=
  (List.getElem?_eq_some_iff.1 (h.getElem?_id hk)).1

theorem tree_leaf (c : Clustering α) (i : Nat) (cls : String) :
    c.tree (Cluster.leaf i cls) = .leaf (Cluster.leaf i cls) :=
  BinaryTree.grow_of_none (children_eq_none rfl) _

theorem tree_result (h : Forest coupling c) (hm : m ∈ c.history) :
    c.tree m.result = .node m.result (c.tree m.first) (c.tree m.second) := by
  have hfirst := (h.joins m hm).first_lt
  have hsecond := (h.joins m hm).second_lt
  have hresult := h.lt_length_arena (h.result_mem hm)
  obtain ⟨depth, hdepth⟩ : ∃ d, c.arena.length = d + 1 := Nat.exists_eq_succ_of_ne_zero (by omega)
  unfold tree
  rw [hdepth, BinaryTree.grow_of_some (h.children_result hm),
    h.grow_eq (h.first_mem hm) depth (depth + 1) (by omega) (by omega),
    h.grow_eq (h.second_mem hm) depth (depth + 1) (by omega) (by omega)]

/-! ## From the top down -/

/-- A cluster that is not at top level is one of the two of a merge. -/
theorem top_or_part (h : Forest coupling c) (hk : k ∈ c.arena) :
    k ∈ c.clusters ∨ ∃ m ∈ c.history, k = m.first ∨ k = m.second := by
  rcases h.placed (h.lt_length_arena hk) with ⟨hactive, -⟩ | ⟨-, whole, ⟨hwhole, hpart⟩, -⟩
  · exact Or.inl (h.mem_clusters.2 ⟨hk, hactive⟩)
  · rcases h.leaf_or_result hwhole with ⟨i, cls, -, rfl⟩ | ⟨m, hm, rfl⟩
    · exact absurd hpart (List.not_mem_nil)
    · have hjoins := h.joins m hm
      have hat := h.getElem?_id hk
      rw [hjoins.parts_eq, List.mem_pair] at hpart
      refine Or.inr ⟨m, hm, hpart.imp (fun hid => ?_) fun hid => ?_⟩
      · exact Option.some.inj (hat.symm.trans (hid ▸ hjoins.first_at))
      · exact Option.some.inj (hat.symm.trans (hid ▸ hjoins.second_at))

/-- What holds of the clusters at top level and passes from the result of a merge to its two clusters holds of all clusters
of the arena. -/
theorem descent (h : Forest coupling c) {P : Cluster α → Prop} (top : ∀ k ∈ c.clusters, P k)
    (part : ∀ m ∈ c.history, P m.result → P m.first ∧ P m.second) (hk : k ∈ c.arena) : P k := by
  -- what a cluster is a part of has a greater number
  induction hn : c.arena.length - k.id using Nat.strong_induction_on generalizing k with
  | _ n ih =>
    have hlt := h.lt_length_arena hk
    rcases h.top_or_part hk with htop | ⟨m, hm, hpart⟩
    · exact top k htop
    · have hfirst := (h.joins m hm).first_lt
      have hsecond := (h.joins m hm).second_lt
      have hid : k.id < m.result.id := by rcases hpart with rfl | rfl <;> omega
      obtain ⟨hl, hr⟩ := part m hm (ih (c.arena.length - m.result.id) (by omega) (h.result_mem hm) rfl)
      rcases hpart with rfl | rfl
      · exact hl
      · exact hr

/-- Each cluster lies in one at top level. -/
theorem exists_top (h : Forest coupling c) (hk : k ∈ c.arena) : ∃ l ∈ c.clusters, ∀ x ∈ k.members, x ∈ l.members := by
  refine h.descent (P := fun k => ∃ l ∈ c.clusters, ∀ x ∈ k.members, x ∈ l.members) ?_ ?_ hk
  · exact fun l hl => ⟨l, hl, fun x hx => hx⟩
  · rintro m hm ⟨l, hl, hsub⟩
    have hjoins := h.joins m hm
    exact ⟨⟨l, hl, fun x hx => hsub x (hjoins.mem_members.2 (Or.inl hx))⟩,
      ⟨l, hl, fun x hx => hsub x (hjoins.mem_members.2 (Or.inr hx))⟩⟩

/-- Clusters at top level that share a class are the same. -/
theorem eq_of_shared (h : Forest coupling c) {l : Cluster α} (hk : k ∈ c.clusters) (hl : l ∈ c.clusters) {x : String}
    (hx : x ∈ k.members) (hx' : x ∈ l.members) : k = l := NameSet.eq_of_shared h.pairwise_apart hk hl hx hx'

/-- No other cluster has the classes of one at top level. -/
theorem eq_of_names_eq (h : Forest coupling c) {l : Cluster α} (hk : k ∈ c.clusters) (hl : l ∈ c.arena)
    (heq : l.names = k.names) : l = k := by
  have hsame : l.members = k.members := NameSet.toList_injective heq
  obtain ⟨x, hx⟩ := List.exists_mem_of_ne_nil _ (h.nonempty l hl)
  rcases h.top_or_part hl with htop | ⟨m, hm, hpart⟩
  · exact h.eq_of_shared htop hk hx (hsame ▸ hx)
  · -- a part of a merge would have all the classes of the whole
    have hjoins := h.joins m hm
    have hsub : ∀ y ∈ l.members, y ∈ m.result.members := by
      intro y hy
      rw [hjoins.mem_members]
      rcases hpart with rfl | rfl
      · exact Or.inl hy
      · exact Or.inr hy
    obtain ⟨t, ht, hwhole⟩ := h.exists_top (h.result_mem hm)
    obtain rfl := h.eq_of_shared ht hk (hwhole x (hsub x hx)) (hsame ▸ hx)
    have hall : ∀ y ∈ m.result.members, y ∈ l.members := fun y hy => hsame ▸ hwhole y hy
    obtain ⟨y, hy⟩ := List.exists_mem_of_ne_nil _ (h.nonempty m.first (h.first_mem hm))
    obtain ⟨z, hz⟩ := List.exists_mem_of_ne_nil _ (h.nonempty m.second (h.second_mem hm))
    rcases hpart with rfl | rfl
    · exact absurd hz (hjoins.apart z (hall z (hjoins.mem_members.2 (Or.inr hz))))
    · exact absurd (hall y (hjoins.mem_members.2 (Or.inl hy))) (hjoins.apart y hy)

/-! ## Classes from left to right -/

theorem spread_leaf (c : Clustering α) (i : Nat) (cls : String) : c.spread (Cluster.leaf i cls) = [cls] := by
  rw [spread, tree_leaf]
  rfl

theorem spread_result (h : Forest coupling c) (hm : m ∈ c.history) :
    c.spread m.result = c.spread m.first ++ c.spread m.second := by
  rw [spread, h.tree_result hm, BinaryTree.leaves, List.flatMap_append]
  rfl

theorem spread_perm (h : Forest coupling c) (hk : k ∈ c.arena) : (c.spread k).Perm k.names := by
  refine h.cluster_induction (P := fun k => (c.spread k).Perm k.names) ?_ ?_ hk
  · intro i cls _
    rw [spread_leaf]
    rfl
  · intro m hm hfirst hsecond
    rw [h.spread_result hm]
    exact (hfirst.append hsecond).trans (h.joins m hm).names_perm.symm

/-- The leaves of a tree are single classes, each with the number of its place. -/
theorem getElem?_of_mem_leaves (h : Forest coupling c) (hk : k ∈ c.arena) :
    ∀ l ∈ (c.tree k).leaves, (coupling.classes[l.id]?).toList = l.names := by
  refine h.cluster_induction (P := fun k => ∀ l ∈ (c.tree k).leaves, (coupling.classes[l.id]?).toList = l.names) ?_ ?_ hk
  · intro i cls hcls l hl
    rw [tree_leaf, BinaryTree.leaves, List.mem_singleton] at hl
    rw [hl, Cluster.leaf, hcls]
    rfl
  · intro m hm hfirst hsecond l hl
    rw [h.tree_result hm, BinaryTree.leaves, List.mem_append] at hl
    exact hl.elim (hfirst l) (hsecond l)

theorem length_leaves_tree (h : Forest coupling c) (hk : k ∈ c.arena) : (c.tree k).leaves.length = k.size := by
  refine h.cluster_induction (P := fun k => (c.tree k).leaves.length = k.size) ?_ ?_ hk
  · intro i cls _
    rw [tree_leaf]
    rfl
  · intro m hm hfirst hsecond
    rw [h.tree_result hm, BinaryTree.leaves, List.length_append, hfirst, hsecond, (h.joins m hm).size_eq]

/-- A walk meets single classes in the order of the leaves, since all other clusters have two members or more. -/
theorem singles_preorder (h : Forest coupling c) (hk : k ∈ c.arena) :
    ((c.tree k).preorder.filter fun l => decide (l.size = 1)).flatMap Cluster.names = c.spread k := by
  refine h.cluster_induction
    (P := fun k => ((c.tree k).preorder.filter fun l => decide (l.size = 1)).flatMap Cluster.names = c.spread k) ?_ ?_ hk
  · intro i cls _
    rw [tree_leaf, spread_leaf]
    rfl
  · intro m hm hfirst hsecond
    have hsize : ¬ m.result.size = 1 := Nat.ne_of_gt (h.two_le_size_result hm)
    rw [h.tree_result hm, BinaryTree.preorder, List.filter_cons_of_neg (by simpa using hsize), List.filter_append,
      List.flatMap_append, hfirst, hsecond, h.spread_result hm]

/-! ## All trees -/

omit [Scalar α] in
theorem item_tree (c : Clustering α) (k : Cluster α) : (c.tree k).item = k := BinaryTree.item_grow _ _ k

/-- The trees in a tree of clusters are the trees of the clusters in it. -/
theorem subtrees_tree (h : Forest coupling c) (hk : k ∈ c.arena) :
    (c.tree k).subtrees = (c.tree k).preorder.map c.tree := by
  refine h.cluster_induction (P := fun k => (c.tree k).subtrees = (c.tree k).preorder.map c.tree) ?_ ?_ hk
  · intro i cls _
    rw [tree_leaf, BinaryTree.subtrees, BinaryTree.preorder, List.map_singleton, tree_leaf]
  · intro m hm hfirst hsecond
    rw [h.tree_result hm, BinaryTree.subtrees, BinaryTree.preorder, List.map_cons, List.map_append, hfirst, hsecond,
      h.tree_result hm]

/-- Each cluster is met in the tree of one at top level. -/
theorem mem_preorder_top (h : Forest coupling c) (hk : k ∈ c.arena) :
    k ∈ c.clusters.flatMap fun l => (c.tree l).preorder := by
  refine h.descent (P := fun k => k ∈ c.clusters.flatMap fun l => (c.tree l).preorder) ?_ ?_ hk
  · exact fun l hl => List.mem_flatMap.2 ⟨l, hl, mem_preorder_tree c l⟩
  · intro m hm hresult
    obtain ⟨top, htop, hresult⟩ := List.mem_flatMap.1 hresult
    have hsub : (c.tree m.result).preorder ⊆ (c.tree top).preorder := by
      refine (BinaryTree.preorder_sublist ?_).subset
      rw [h.subtrees_tree (h.mem_clusters.1 htop).1]
      exact List.mem_map_of_mem hresult
    rw [h.tree_result hm, BinaryTree.preorder] at hsub
    refine ⟨List.mem_flatMap.2 ⟨top, htop, hsub ?_⟩, List.mem_flatMap.2 ⟨top, htop, hsub ?_⟩⟩
    · exact List.mem_cons_of_mem _ (List.mem_append_left _ (mem_preorder_tree c _))
    · exact List.mem_cons_of_mem _ (List.mem_append_right _ (mem_preorder_tree c _))

/-- The trees of the clusters at top level have as many nodes as there are clusters. -/
theorem length_preorder_top (h : Forest coupling c) :
    (c.clusters.flatMap fun k => (c.tree k).preorder).length = c.arena.length := by
  have hnodes : ∀ ks : List (Cluster α), (∀ k ∈ ks, k ∈ c.arena) →
      (ks.flatMap fun k => (c.tree k).preorder).length + ks.length = 2 * (ks.flatMap Cluster.names).length := by
    intro ks hks
    induction ks with
    | nil => rfl
    | cons k ks ih =>
      have hrest := ih fun l hl => hks l (List.mem_cons_of_mem k hl)
      have hk : k ∈ c.arena := hks k (List.mem_cons_self ..)
      have htree := BinaryTree.length_preorder (c.tree k)
      have hsize : k.names.length = k.size := rfl
      rw [h.length_leaves_tree hk] at htree
      rw [List.flatMap_cons, List.flatMap_cons, List.length_append, List.length_append, List.length_cons]
      omega
  have hall := hnodes c.clusters fun k hk => (h.mem_clusters.1 hk).1
  have hlength := h.length_clusters
  rw [h.shared.length_eq] at hall
  rw [h.length_arena]
  omega

/-- The trees of the clusters at top level share out the arena. -/
theorem preorder_perm (h : Forest coupling c) : (c.clusters.flatMap fun k => (c.tree k).preorder).Perm c.arena := by
  have hsub := List.subperm_of_subset h.nodup_arena fun k hk => h.mem_preorder_top hk
  exact (hsub.perm_of_length_le (Nat.le_of_eq h.length_preorder_top)).symm

/-! ## Whole trees -/

variable {l : Cluster α} {starts : List (Cluster α)}

theorem complete_tree (h : Forest coupling c) (hk : k ∈ c.arena) : (c.tree k).Complete c.children := by
  refine h.cluster_induction (P := fun k => (c.tree k).Complete c.children) ?_ ?_ hk
  · intro i cls _
    rw [tree_leaf]
    exact .leaf (children_eq_none rfl)
  · intro m hm hfirst hsecond
    rw [h.tree_result hm]
    refine .node ?_ hfirst hsecond
    rw [item_tree, item_tree, h.children_result hm]

theorem below_clusters_perm (h : Forest coupling c) : (c.below c.clusters).Perm c.arena := by
  rw [below_eq]
  exact h.preorder_perm

/-- The tree of each cluster is a part of that of one at top level. -/
theorem below_sublist (h : Forest coupling c) (hk : k ∈ c.arena) : (c.below [k]).Sublist (c.below c.clusters) := by
  obtain ⟨top, htop, hmem⟩ := List.mem_flatMap.1 (h.mem_preorder_top hk)
  have hsub : c.tree k ∈ (c.tree top).subtrees := by
    rw [h.subtrees_tree (h.mem_clusters.1 htop).1]
    exact List.mem_map_of_mem hmem
  rw [below_eq, below_eq, List.flatMap_singleton]
  exact (BinaryTree.preorder_sublist hsub).trans (List.sublist_flatten_of_mem (List.mem_map_of_mem htop))

/-! ## Parts of the whole -/

section Below

variable (hsub : (c.below starts).Sublist (c.below c.clusters))

include hsub

theorem mem_arena_of_below (h : Forest coupling c) (hl : l ∈ c.below starts) : l ∈ c.arena :=
  h.below_clusters_perm.subset (hsub.subset hl)

theorem pops_iff (h : Forest coupling c) {met : List (Cluster α)} :
    Walk.Pops c.children starts met ↔ met = c.below starts :=
  Walk.pops_iff_visits fun _ hk => h.complete_tree (h.mem_arena_of_below hsub (mem_below_of_mem hk))

theorem pops_below (h : Forest coupling c) : Walk.Pops c.children starts (c.below starts) := (h.pops_iff hsub).2 rfl

theorem nodup_ids_below (h : Forest coupling c) : ((c.below starts).map Cluster.id).Nodup := by
  have hall : ((c.below c.clusters).map Cluster.id).Nodup := by
    rw [(h.below_clusters_perm.map Cluster.id).nodup_iff, h.ids]
    exact List.nodup_range
  exact hall.sublist (hsub.map Cluster.id)

theorem next_subset_below (h : Forest coupling c) (hk : k ∈ c.below starts) : Walk.next c.children k ⊆ c.below starts :=
  fun _ hl => (h.pops_below hsub).perm.subset (List.mem_append_right _ (List.mem_flatMap.2 ⟨k, hk, hl⟩))

theorem worksOff (h : Forest coupling c) : WorksOff c starts where
  pops_iff _ := h.pops_iff hsub
  once := List.Nodup.of_map Cluster.id (h.nodup_ids_below hsub)
  mem_iff _ := (h.pops_below hsub).mem_iff

end Below

theorem mem_below_singleton (h : Forest coupling c) (hk : k ∈ c.arena) : l ∈ c.below [k] ↔ Walk.Below c.children k l := by
  rw [(h.pops_below (h.below_sublist hk)).mem_iff]
  simp only [List.mem_singleton, exists_eq_left]

end Forest

end CouplingTree.Clustering
