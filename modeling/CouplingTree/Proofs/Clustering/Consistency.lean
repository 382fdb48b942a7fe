import Mathlib.Data.List.Pairwise
import CouplingTree.Proofs.Clustering.Forest

/-!
# What holds at every stage of a run

`Consistent coupling c` says in full how the arena, the active numbers and the history of a clustering belong together.
`run_consistent` : it holds at every stage of every run and of the clustering a run ends with, for all numbers that
couplings may be measured in.

`next_of_history` : each merge of the history came next at the stage before it.

`run_stops` : a run ends where no merge comes next, so the number of steps it is given never cuts it short.
-/

namespace CouplingTree

variable {α : Type} [Scalar α]

namespace Clustering

/-- The arena, the active numbers and the history of a clustering of the classes of a coupling map. -/
structure Consistent (coupling : CouplingMap α) (c : Clustering α) : Prop where
  /-- The number of a cluster is its place. -/
  id_eq : ∀ (i : Nat) (k : Cluster α), c.arena[i]? = some k → k.id = i
  /-- The single classes come first, then the results of the merges. -/
  arena_eq : c.arena = leaves coupling ++ c.history.map Merge.result
  length_arena : c.arena.length = coupling.classes.length + c.history.length
  length_active : c.active.length + c.history.length = coupling.classes.length
  ascending : c.active.Pairwise (· < ·)
  /-- Each active number has its cluster at top level. -/
  clusters_ids : c.clusters.map Cluster.id = c.active
  nonempty : ∀ k ∈ c.clusters, ∃ x, x ∈ k.members
  apart : c.clusters.Pairwise fun k l => k.members.Apart l.members
  covered : ∀ x, (∃ k ∈ c.clusters, x ∈ k.members) ↔ x ∈ coupling.classes
  /-- A joined cluster is the disjoint union of its two parts, which stand before it. -/
  joined : ∀ k ∈ c.arena, ∀ l r, k.children = some (l, r) →
    l < r ∧ r < k.id ∧ ∃ left right, c.arena[l]? = some left ∧ c.arena[r]? = some right ∧
      left.members.Apart right.members ∧ ∀ x, x ∈ k.members ↔ x ∈ left.members ∨ x ∈ right.members
  /-- A number is active, or a part of exactly one cluster. -/
  placed : ∀ i < c.arena.length, i ∈ c.active ∧ (∀ k ∈ c.arena, i ∉ k.parts) ∨
    i ∉ c.active ∧ ∃! k, k ∈ c.arena ∧ i ∈ k.parts

variable {coupling : CouplingMap α} {c : Clustering α}

namespace Forest

theorem length_parts (h : Forest coupling c) : (c.arena.flatMap Cluster.parts).length = 2 * c.history.length := by
  have hresults : ∀ m ∈ c.history, m.result.parts.length = 2 := fun m hm => by
    rw [(h.joins m hm).parts_eq]
    rfl
  rw [h.arena_eq, List.flatMap_append, leaves_parts, List.nil_append, List.flatMap_map, List.length_flatMap,
    List.map_congr_left hresults, List.map_const', List.sum_replicate_nat, Nat.mul_comm]

/-- Each merge leaves one cluster less at top level. -/
theorem length_active (h : Forest coupling c) : c.active.length + c.history.length = coupling.classes.length := by
  have hall := h.accounted.length_eq
  rw [List.length_append, h.length_parts, List.length_range, h.length_arena] at hall
  omega

theorem length_clusters (h : Forest coupling c) : c.clusters.length + c.history.length = coupling.classes.length := by
  rw [← h.length_active, ← h.clusters_ids, List.length_map]

theorem joined (h : Forest coupling c) {k : Cluster α} (hk : k ∈ c.arena) {l r : Nat} (hc : k.children = some (l, r)) :
    ∃ m ∈ c.history, k = m.result ∧ m.first.id = l ∧ m.second.id = r := by
  rcases h.leaf_or_result hk with ⟨i, cls, -, rfl⟩ | ⟨m, hm, rfl⟩
  · cases hc
  · rw [(h.joins m hm).children_eq] at hc
    cases hc
    exact ⟨m, hm, rfl, rfl, rfl⟩

theorem placed (h : Forest coupling c) {i : Nat} (hi : i < c.arena.length) :
    i ∈ c.active ∧ (∀ k ∈ c.arena, i ∉ k.parts) ∨ i ∉ c.active ∧ ∃! k, k ∈ c.arena ∧ i ∈ k.parts := by
  have hn := h.accounted.nodup_iff.2 List.nodup_range
  obtain ⟨-, hparts, hdisj⟩ := List.nodup_append.1 hn
  have hall := h.accounted.symm.subset (List.mem_range.2 hi)
  rcases List.mem_append.1 hall with ha | hp
  · refine Or.inl ⟨ha, fun k hk hik => ?_⟩
    exact hdisj i ha i (List.mem_flatMap.2 ⟨k, hk, hik⟩) rfl
  · refine Or.inr ⟨fun ha => hdisj i ha i hp rfl, ?_⟩
    obtain ⟨k, hk, hik⟩ := List.mem_flatMap.1 hp
    refine ⟨k, ⟨hk, hik⟩, fun l ⟨hl, hil⟩ => ?_⟩
    by_contra hne
    have : Std.Symm (Function.onFun List.Disjoint (Cluster.parts : Cluster α → List Nat)) := ⟨fun _ _ hd => hd.symm⟩
    exact (List.nodup_flatMap.1 hparts).2.forall hl hk hne hil hik

theorem consistent (h : Forest coupling c) : Consistent coupling c where
  id_eq _ _ hk := h.id_eq hk
  arena_eq := h.arena_eq
  length_arena := h.length_arena
  length_active := h.length_active
  ascending := h.ascending
  clusters_ids := h.clusters_ids
  nonempty k hk := List.exists_mem_of_ne_nil _ (h.nonempty k (h.mem_clusters.1 hk).1)
  apart := h.pairwise_apart
  covered x := by
    rw [← h.shared.mem_iff, List.mem_flatMap]
    rfl
  joined k hk l r hc := by
    obtain ⟨m, hm, rfl, rfl, rfl⟩ := h.joined hk hc
    have hj := h.joins m hm
    exact ⟨hj.first_lt, hj.second_lt, m.first, m.second, hj.first_at, hj.second_at, hj.apart, fun x => hj.mem_members⟩
  placed _ hi := h.placed hi

end Forest

/-! ## The end of a run -/

variable {rule : StopRule α}

/-- A stage that has not seen all its merges is one from which no merge leads on. -/
theorem stopped_or_length_history (rule : StopRule α) (coupling : CouplingMap α) (steps : Nat) :
    (∀ m, (stage rule coupling steps).next coupling.find? rule ≠ .join m) ∨
      (stage rule coupling steps).history.length = steps := by
  induction steps with
  | zero => exact Or.inr rfl
  | succ steps ih =>
    rw [stage_succ]
    cases hn : (stage rule coupling steps).next coupling.find? rule with
    | join m =>
      rcases ih with ih | ih
      · exact absurd hn (ih m)
      · exact Or.inr (by simp [apply, ih])
    | _ => exact Or.inl fun m hm => by simp [hn] at hm

theorem stage_stops {steps : Nat} (h : coupling.classes.length ≤ steps) (m : Merge α) :
    (stage rule coupling steps).next coupling.find? rule ≠ .join m := by
  rcases stopped_or_length_history rule coupling steps with hs | hlen
  · exact hs m
  · intro hm
    have hseveral := (picks_of_next hm).several
    have hactive := (forest_stage rule coupling steps).length_active
    omega

/-- A merge of the history is the one that came next after those before it. -/
theorem next_of_history {steps k : Nat} {m : Merge α} (hm : (stage rule coupling steps).history[k]? = some m) :
    (stage rule coupling k).history = (stage rule coupling steps).history.take k ∧
      (stage rule coupling k).next coupling.find? rule = .join m := by
  induction steps with
  | zero => exact absurd hm (by rw [stage_zero]; exact nofun)
  | succ steps ih =>
    have hstopped := stopped_or_length_history rule coupling steps
    rw [stage_succ] at hm ⊢
    cases hnext : (stage rule coupling steps).next coupling.find? rule with
    | join last =>
      have hlength := hstopped.resolve_left fun h => h last hnext
      rw [hnext] at hm
      dsimp only [apply_history] at hm ⊢
      have hk := (List.getElem?_eq_some_iff.1 hm).1
      rw [List.length_append, List.length_singleton] at hk
      rw [List.take_append_of_le_length (by omega)]
      rcases Nat.lt_or_ge k (stage rule coupling steps).history.length with hlt | hge
      · rw [List.getElem?_append_left hlt] at hm
        exact ih hm
      · -- the last merge leads on from the stage itself
        obtain rfl : k = steps := by omega
        rw [List.getElem?_append_right hge, hlength, Nat.sub_self] at hm
        cases hm
        exact ⟨(List.take_of_length_le hge).symm, hnext⟩
    | _ =>
      rw [hnext] at hm
      exact ih hm

theorem run_stops (rule : StopRule α) (coupling : CouplingMap α) (m : Merge α) :
    (run rule coupling).clustering.next coupling.find? rule ≠ .join m := by
  rw [run_clustering]
  refine stage_stops ?_ m
  have hactive := (forest_initial coupling).length_active
  exact Nat.le_of_eq hactive.symm

/-- **Every stage of a run is consistent.** The classes stand in the order in which the keys first name them. -/
theorem run_consistent (rule : StopRule α) (coupling : CouplingMap α) :
    coupling.classes = coupling.mentions.eraseDups ∧ coupling.classes.Nodup ∧
      (∀ steps, Consistent coupling (stage rule coupling steps)) ∧ Consistent coupling (run rule coupling).clustering :=
  ⟨coupling.classes_eq, coupling.nodup_classes, fun steps => (forest_stage rule coupling steps).consistent,
    (forest_run rule coupling).consistent⟩

end Clustering

end CouplingTree
