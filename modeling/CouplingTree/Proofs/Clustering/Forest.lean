import Mathlib.Data.List.Nodup
import Mathlib.Data.List.Perm.Lattice
import CouplingTree.Proofs.Relations
import CouplingTree.Proofs.Clustering.Stages

/-!
# The forest of clusters

`Forest coupling c` is the joint invariant of a run: the arena is the leaves followed by the results of the merges, each
merge joins two clusters of the arena that stand before its result, the clusters at top level share out the classes, and
each number is either active or in one place a part of another cluster.

* `forest_initial`, `Forest.apply` : single classes are a forest, and a merge of two clusters at top level keeps one.
* `Forest.cluster_induction` : what holds of single classes and is kept by each merge holds of all clusters.
* `forest_stage`, `forest_run` : so every stage of a run is a forest.
* `Forest.clusters_apply` : a merge takes two clusters from the top level and puts their union at its end.
-/

namespace CouplingTree

variable {α : Type}

/-- The numbers of the parts of a cluster. -/
def Cluster.parts (k : Cluster α) : List Nat :=
  match k.children with
  | none => []
  | some (left, right) => [left, right]

/-- What a merge does to two clusters of an arena. -/
structure Merge.Joins (arena : List (Cluster α)) (m : Merge α) : Prop where
  first_at : arena[m.first.id]? = some m.first
  second_at : arena[m.second.id]? = some m.second
  first_lt : m.first.id < m.second.id
  second_lt : m.second.id < m.result.id
  apart : m.first.members.Apart m.second.members
  children_eq : m.result.children = some (m.first.id, m.second.id)
  members_eq : m.result.members = m.first.members.union m.second.members
  coupling_eq : m.result.mergeCoupling = m.coupling

theorem Merge.Joins.append {arena more : List (Cluster α)} {m : Merge α} (h : m.Joins arena) :
    m.Joins (arena ++ more) where
  first_at := List.getElem?_append_left (List.getElem?_eq_some_iff.1 h.first_at).1 ▸ h.first_at
  second_at := List.getElem?_append_left (List.getElem?_eq_some_iff.1 h.second_at).1 ▸ h.second_at
  first_lt := h.first_lt
  second_lt := h.second_lt
  apart := h.apart
  children_eq := h.children_eq
  members_eq := h.members_eq
  coupling_eq := h.coupling_eq

theorem Merge.Joins.mem_members {arena : List (Cluster α)} {m : Merge α} (h : m.Joins arena) {x : String} :
    x ∈ m.result.members ↔ x ∈ m.first.members ∨ x ∈ m.second.members := by
  rw [h.members_eq, NameSet.mem_union]

theorem Merge.Joins.names_perm {arena : List (Cluster α)} {m : Merge α} (h : m.Joins arena) :
    m.result.names.Perm (m.first.names ++ m.second.names) := by
  unfold Cluster.names
  rw [h.members_eq]
  exact NameSet.union_perm h.apart

theorem Merge.Joins.size_eq {arena : List (Cluster α)} {m : Merge α} (h : m.Joins arena) :
    m.result.size = m.first.size + m.second.size := by
  have hlength := h.names_perm.length_eq
  rwa [List.length_append] at hlength

theorem Merge.Joins.parts_eq {arena : List (Cluster α)} {m : Merge α} (h : m.Joins arena) :
    m.result.parts = [m.first.id, m.second.id] := by
  rw [Cluster.parts, h.children_eq]

variable [Scalar α]

namespace Clustering

/-- The clusters of the single classes. -/
def leaves (coupling : CouplingMap α) : List (Cluster α) := coupling.classes.mapIdx fun i c => Cluster.leaf i c

/-- The clusters of a clustering are trees over the classes of a coupling map, those at top level being the roots. -/
structure Forest (coupling : CouplingMap α) (c : Clustering α) : Prop where
  coupling_eq : c.coupling = coupling
  arena_eq : c.arena = leaves coupling ++ c.history.map Merge.result
  ids : c.arena.map Cluster.id = List.range c.arena.length
  ascending : c.active.Pairwise (· < ·)
  joins : ∀ m ∈ c.history, m.Joins c.arena
  nonempty : ∀ k ∈ c.arena, k.names ≠ []
  shared : (c.clusters.flatMap Cluster.names).Perm coupling.classes
  accounted : (c.active ++ c.arena.flatMap Cluster.parts).Perm (List.range c.arena.length)

variable {coupling : CouplingMap α} {c : Clustering α}

/-! ## Single classes -/

theorem length_leaves : (leaves coupling).length = coupling.classes.length := List.length_mapIdx

theorem getElem?_leaves {i : Nat} : (leaves coupling)[i]? = coupling.classes[i]?.map (Cluster.leaf i) :=
  List.getElem?_mapIdx

theorem mem_leaves {k : Cluster α} :
    k ∈ leaves coupling ↔ ∃ i cls, coupling.classes[i]? = some cls ∧ k = Cluster.leaf i cls := by
  rw [List.mem_iff_getElem?]
  refine exists_congr fun i => ?_
  rw [getElem?_leaves, Option.map_eq_some_iff]
  exact exists_congr fun cls => and_congr_right fun _ => eq_comm

theorem filterMap_getElem?_append {β : Type} {is : List Nat} {l : List β} (h : ∀ i ∈ is, i < l.length) (more : List β) :
    (is.filterMap fun i => (l ++ more)[i]?) = is.filterMap fun i => l[i]? :=
  List.filterMap_congr fun i hi => List.getElem?_append_left (h i hi)

theorem filterMap_range_getElem? {β : Type} (l : List β) : ((List.range l.length).filterMap fun i => l[i]?) = l := by
  induction l using List.reverseRecOn with
  | nil => rfl
  | append_singleton l x ih =>
    rw [List.length_append, List.length_singleton, List.range_succ, List.filterMap_append,
      filterMap_getElem?_append (fun i hi => List.mem_range.1 hi), ih]
    simp

theorem initial_clusters : (initial coupling).clusters = leaves coupling := filterMap_range_getElem? _

theorem leaves_names : (leaves coupling).flatMap Cluster.names = coupling.classes := by
  rw [leaves, List.mapIdx_eq_zipIdx_map, List.flatMap_map]
  change (coupling.classes.zipIdx.flatMap fun p => [p.1]) = _
  rw [← List.map_eq_flatMap, List.zipIdx_map_fst]

theorem leaves_ids : (leaves coupling).map Cluster.id = List.range (leaves coupling).length := by
  rw [length_leaves, leaves, List.mapIdx_eq_zipIdx_map, List.map_map]
  change coupling.classes.zipIdx.map Prod.snd = _
  rw [List.zipIdx_map_snd, List.range_eq_range']

theorem leaves_parts : (leaves coupling).flatMap Cluster.parts = [] := by
  rw [List.flatMap_eq_nil_iff]
  intro k hk
  obtain ⟨i, cls, -, rfl⟩ := mem_leaves.1 hk
  rfl

theorem forest_initial (coupling : CouplingMap α) : Forest coupling (initial coupling) where
  coupling_eq := rfl
  arena_eq := (List.append_nil _).symm
  ids := leaves_ids
  ascending := List.pairwise_lt_range
  joins := fun m hm => absurd hm (List.not_mem_nil)
  nonempty := fun k hk => by
    obtain ⟨i, cls, -, rfl⟩ := mem_leaves.1 hk
    exact List.cons_ne_nil _ _
  shared := by
    rw [initial_clusters, leaves_names]
  accounted := by
    change (List.range (leaves coupling).length ++ (leaves coupling).flatMap Cluster.parts).Perm _
    rw [leaves_parts, List.append_nil]
    rfl

namespace Forest

/-! ## Places and numbers -/

theorem id_eq (h : Forest coupling c) {i : Nat} {k : Cluster α} (hk : c.arena[i]? = some k) : k.id = i := by
  have hi := congrArg (fun l : List Nat => l[i]?) h.ids
  simp only [List.getElem?_map, hk, Option.map_some] at hi
  obtain ⟨_, hi⟩ := List.getElem?_eq_some_iff.1 hi.symm
  rw [← hi, List.getElem_range]

theorem getElem?_id (h : Forest coupling c) {k : Cluster α} (hk : k ∈ c.arena) : c.arena[k.id]? = some k := by
  obtain ⟨i, hi⟩ := List.mem_iff_getElem?.1 hk
  rw [h.id_eq hi, hi]

theorem lt_of_mem_active (h : Forest coupling c) {i : Nat} (hi : i ∈ c.active) : i < c.arena.length :=
  List.mem_range.1 (h.accounted.subset (List.mem_append_left _ hi))

theorem mem_clusters (h : Forest coupling c) {k : Cluster α} : k ∈ c.clusters ↔ k ∈ c.arena ∧ k.id ∈ c.active := by
  rw [clusters, List.mem_filterMap]
  constructor
  · rintro ⟨i, hi, hk⟩
    exact ⟨List.mem_of_getElem? hk, h.id_eq hk ▸ hi⟩
  · rintro ⟨hk, hi⟩
    exact ⟨k.id, hi, h.getElem?_id hk⟩

theorem mem_arena_of_clusters_eq (h : Forest coupling c) {k : Cluster α} (htop : c.clusters = [k]) : k ∈ c.arena :=
  (h.mem_clusters.1 (htop ▸ List.mem_singleton_self k)).1

theorem clusters_ids (h : Forest coupling c) : c.clusters.map Cluster.id = c.active := by
  rw [clusters, List.map_filterMap]
  calc c.active.filterMap (fun i => c.arena[i]?.map Cluster.id)
      = c.active.filterMap some := List.filterMap_congr fun i hi => by
        have hlt := h.lt_of_mem_active hi
        rw [List.getElem?_eq_getElem hlt, Option.map_some, h.id_eq (List.getElem?_eq_getElem hlt)]
    _ = c.active := List.filterMap_some

theorem length_arena (h : Forest coupling c) : c.arena.length = coupling.classes.length + c.history.length := by
  rw [h.arena_eq, List.length_append, length_leaves, List.length_map]

theorem result_id (h : Forest coupling c) {j : Nat} {m : Merge α} (hm : c.history[j]? = some m) :
    m.result.id = coupling.classes.length + j := by
  refine h.id_eq ?_
  rw [h.arena_eq, List.getElem?_append_right (by rw [length_leaves]; omega), length_leaves, Nat.add_sub_cancel_left,
    List.getElem?_map, hm, Option.map_some]

/-- A cluster of the arena is a single class or the result of a merge. -/
theorem leaf_or_result (h : Forest coupling c) {k : Cluster α} (hk : k ∈ c.arena) :
    (∃ i cls, coupling.classes[i]? = some cls ∧ k = Cluster.leaf i cls) ∨ ∃ m ∈ c.history, k = m.result := by
  rw [h.arena_eq, List.mem_append, List.mem_map] at hk
  rcases hk with hk | ⟨m, hm, rfl⟩
  · exact Or.inl (mem_leaves.1 hk)
  · exact Or.inr ⟨m, hm, rfl⟩

/-- What holds of single classes and, with both parts of a merge, of its result holds of all clusters of the arena. -/
theorem cluster_induction (h : Forest coupling c) {P : Cluster α → Prop}
    (single : ∀ i cls, coupling.classes[i]? = some cls → P (Cluster.leaf i cls))
    (union : ∀ m ∈ c.history, P m.first → P m.second → P m.result) {k : Cluster α} (hk : k ∈ c.arena) : P k := by
  -- the parts of a cluster have smaller numbers
  induction hn : k.id using Nat.strong_induction_on generalizing k with
  | _ n ih =>
    rcases h.leaf_or_result hk with ⟨i, cls, hcls, rfl⟩ | ⟨m, hm, rfl⟩
    · exact single i cls hcls
    · have hj := h.joins m hm
      refine union m hm (ih _ ?_ (List.mem_of_getElem? hj.first_at) rfl) (ih _ ?_ (List.mem_of_getElem? hj.second_at) rfl)
      · exact hn ▸ hj.first_lt.trans hj.second_lt
      · exact hn ▸ hj.second_lt

theorem mem_classes_of_mem (h : Forest coupling c) {k : Cluster α} (hk : k ∈ c.arena) :
    ∀ x ∈ k.names, x ∈ coupling.classes := by
  refine h.cluster_induction (P := fun k => ∀ x ∈ k.names, x ∈ coupling.classes) ?_ ?_ hk
  · intro i cls hcls x hx
    rw [List.mem_singleton.1 hx]
    exact List.mem_of_getElem? hcls
  · intro m hm hfirst hsecond x hx
    rcases (h.joins m hm).mem_members.1 hx with hx | hx
    · exact hfirst x hx
    · exact hsecond x hx

/-- A merged cluster has a member from either part. -/
theorem two_le_size_result (h : Forest coupling c) {m : Merge α} (hm : m ∈ c.history) : 2 ≤ m.result.size := by
  have hjoins := h.joins m hm
  have hfirst := List.length_pos_of_ne_nil (h.nonempty m.first (List.mem_of_getElem? hjoins.first_at))
  have hsecond := List.length_pos_of_ne_nil (h.nonempty m.second (List.mem_of_getElem? hjoins.second_at))
  rw [hjoins.size_eq]
  exact Nat.add_le_add hfirst hsecond

theorem pairwise_apart (h : Forest coupling c) : c.clusters.Pairwise fun k l => k.members.Apart l.members := by
  have hn := h.shared.nodup_iff.2 coupling.nodup_classes
  refine (List.nodup_flatMap.1 hn).2.imp fun hd => NameSet.apart_iff.2 hd

/-- A class is in one cluster at top level, and a name that is no class in none. -/
theorem countP_clusters (h : Forest coupling c) (x : String) :
    c.clusters.countP (fun k => decide (x ∈ k.names)) = if x ∈ coupling.classes then 1 else 0 := by
  rw [← count_flatMap_of_nodup x fun k _ => k.members.nodup, h.shared.count_eq, coupling.nodup_classes.count]

/-! ## A merge -/

variable {value? : Lookup α} {rule : StopRule α} {m : Merge α}

/-- Two clusters at top level, the earlier one first. -/
theorem mem_of_picks (h : Forest coupling c) (hm : Picks value? rule c m) :
    m.first ∈ c.arena ∧ m.second ∈ c.arena ∧ m.first.id ∈ c.active ∧ m.second.id ∈ c.active ∧
      m.first.id < m.second.id := by
  have hsub := mem_pairsOf.1 hm.pair
  obtain ⟨hf, hfa⟩ := h.mem_clusters.1 (hsub.subset (List.mem_cons_self ..))
  obtain ⟨hs, hsa⟩ := h.mem_clusters.1 (hsub.subset (List.mem_cons_of_mem _ (List.mem_cons_self ..)))
  have hids := hsub.map Cluster.id
  rw [h.clusters_ids] at hids
  exact ⟨hf, hs, hfa, hsa, (List.pairwise_cons.1 (h.ascending.sublist hids)).1 _ (List.mem_singleton_self _)⟩

/-- The active numbers that a merge leaves. -/
theorem active_perm (h : Forest coupling c) (hm : Picks value? rule c m) :
    c.active.Perm (m.first.id :: m.second.id :: (c.active.erase m.first.id).erase m.second.id) := by
  obtain ⟨-, -, hf, hs, hlt⟩ := h.mem_of_picks hm
  refine (List.perm_cons_erase hf).trans (List.Perm.cons _ (List.perm_cons_erase ?_))
  exact (List.mem_erase_of_ne (Nat.ne_of_gt hlt)).2 hs

omit [Scalar α] in
/-- The numbers a merge leaves were there before. -/
theorem erase_sublist (c : Clustering α) (m : Merge α) :
    ((c.active.erase m.first.id).erase m.second.id).Sublist c.active := List.erase_sublist.trans List.erase_sublist

/-- A merge takes two clusters from the top level, keeps the others in their order and puts its result at the end. -/
theorem clusters_apply (h : Forest coupling c) (hm : Picks value? rule c m) :
    ∃ others, c.clusters.Perm (m.first :: m.second :: others) ∧ others.Sublist c.clusters ∧
      (c.apply m).clusters = others ++ [m.result] := by
  obtain ⟨hf, hs, -, -, -⟩ := h.mem_of_picks hm
  have hsub := erase_sublist c m
  refine ⟨((c.active.erase m.first.id).erase m.second.id).filterMap fun i => c.arena[i]?, ?_, hsub.filterMap _, ?_⟩
  · have hperm := (h.active_perm hm).filterMap fun i => c.arena[i]?
    rwa [List.filterMap_cons, h.getElem?_id hf, List.filterMap_cons, h.getElem?_id hs] at hperm
  · rw [clusters, apply_active, apply_arena, List.filterMap_append,
      filterMap_getElem?_append fun i hi => h.lt_of_mem_active (hsub.subset hi), hm.result_eq]
    simp

theorem joins_of_picks (h : Forest coupling c) (hm : Picks value? rule c m) : m.Joins c.arena where
  first_at := h.getElem?_id (h.mem_of_picks hm).1
  second_at := h.getElem?_id (h.mem_of_picks hm).2.1
  first_lt := (h.mem_of_picks hm).2.2.2.2
  second_lt := by
    rw [hm.result_eq]
    exact h.lt_of_mem_active (h.mem_of_picks hm).2.2.2.1
  apart := rel_of_mem_pairsOf h.pairwise_apart hm.pair
  children_eq := by rw [hm.result_eq]
  members_eq := by rw [hm.result_eq]
  coupling_eq := by rw [hm.result_eq]

theorem ascending_apply (h : Forest coupling c) (hm : Picks value? rule c m) :
    (c.apply m).active.Pairwise (· < ·) := by
  rw [apply_active, hm.result_eq]
  refine List.pairwise_append.2 ⟨h.ascending.sublist (erase_sublist c m), List.pairwise_singleton _ _, ?_⟩
  intro i hi j hj
  rw [List.mem_singleton.1 hj]
  exact h.lt_of_mem_active ((erase_sublist c m).subset hi)

/-- The union of two clusters has members because the first one has. -/
theorem result_names_ne_nil (h : Forest coupling c) (hm : Picks value? rule c m) : m.result.names ≠ [] := by
  have hfirst := h.nonempty m.first (h.mem_of_picks hm).1
  refine List.ne_nil_of_length_pos ?_
  rw [(h.joins_of_picks hm).names_perm.length_eq, List.length_append]
  exact Nat.lt_of_lt_of_le (List.length_pos_of_ne_nil hfirst) (Nat.le_add_right _ _)

/-- The names of two clusters at top level move to the end together. -/
theorem shared_apply (h : Forest coupling c) (hm : Picks value? rule c m) :
    ((c.apply m).clusters.flatMap Cluster.names).Perm coupling.classes := by
  obtain ⟨others, hperm, -, hclusters⟩ := h.clusters_apply hm
  have hnames := (h.joins_of_picks hm).names_perm
  rw [hclusters]
  refine List.Perm.trans ?_ h.shared
  refine List.Perm.trans ?_ (hperm.flatMap_right Cluster.names).symm
  simp only [List.flatMap_append, List.flatMap_cons, List.flatMap_nil, List.append_nil, ← List.append_assoc]
  exact List.perm_append_comm.trans (hnames.append_right _)

/-- Two active numbers become parts of the result, whose own number is the next one and active. -/
theorem accounted_apply (h : Forest coupling c) (hm : Picks value? rule c m) :
    ((c.apply m).active ++ (c.apply m).arena.flatMap Cluster.parts).Perm (List.range (c.apply m).arena.length) := by
  have hactive := h.active_perm hm
  have hid : m.result.id = c.arena.length := by rw [hm.result_eq]
  rw [apply_active, apply_arena, List.length_append, List.length_singleton, List.range_succ, List.flatMap_append,
    List.flatMap_singleton, (h.joins_of_picks hm).parts_eq, hid]
  refine List.Perm.trans ?_ (h.accounted.append_right _)
  refine List.Perm.trans ?_ ((hactive.append_right _).append_right _).symm
  refine List.perm_iff_count.2 fun x => ?_
  simp only [List.count_append, List.count_cons, List.count_nil, List.cons_append]
  omega

theorem apply (h : Forest coupling c) (hm : Picks value? rule c m) : Forest coupling (c.apply m) where
  coupling_eq := h.coupling_eq
  arena_eq := by
    rw [apply_arena, apply_history, h.arena_eq, List.append_assoc, List.map_append]
    rfl
  ids := by
    rw [apply_arena, List.map_append, h.ids, List.length_append, List.length_singleton, List.range_succ, hm.result_eq]
    rfl
  ascending := h.ascending_apply hm
  joins m' hm' := by
    rcases List.mem_append.1 hm' with hm' | hm'
    · exact (h.joins m' hm').append
    · rw [List.mem_singleton.1 hm']
      exact (h.joins_of_picks hm).append
  nonempty k hk := by
    rcases List.mem_append.1 hk with hk | hk
    · exact h.nonempty k hk
    · rw [List.mem_singleton.1 hk]
      exact h.result_names_ne_nil hm
  shared := h.shared_apply hm
  accounted := h.accounted_apply hm

end Forest

theorem forest_stage (rule : StopRule α) (coupling : CouplingMap α) (steps : Nat) :
    Forest coupling (stage rule coupling steps) :=
  stage_induction (forest_initial coupling) (fun _ _ h hm => h.apply hm) steps

theorem forest_run (rule : StopRule α) (coupling : CouplingMap α) : Forest coupling (run rule coupling).clustering :=
  run_induction (forest_initial coupling) fun _ _ h hm => h.apply hm

end Clustering

end CouplingTree
