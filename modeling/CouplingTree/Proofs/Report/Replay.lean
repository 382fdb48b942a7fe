import CouplingTree.Proofs.Clustering.Groups
import CouplingTree.Proofs.Clustering.Trees
import CouplingTree.Proofs.Report.Basic

/-!
# Histories can be replayed

The history of a report shows the members of clusters but not their numbers. Still it is a complete log: the clusters at top
level share no class at any time, so that the members tell which two of them were merged.

* `HistoryEntry.replay?` : makes the merge of an entry on lists of names.
* `Forest.replay?_apply` : on the clusters at top level the entry of a merge does what the merge does.
* `Replayed`, `replayed_run` : hence the entries of a run lead from the single classes to the clusters it ends with.
* `Forest.eq_of_result_eq` : only one entry results in a cluster at top level.
* `decompose_logs` : so the history of each report that is returned is a log of its clusters.
-/

namespace CouplingTree

variable {α : Type}

namespace HistoryEntry

/-- Makes the merge of an entry: takes out its two lists and puts its result at the end. It fails unless these are two
different lists, each of them found once. -/
def replay? (lists : List (List String)) (e : HistoryEntry α) : Option (List (List String)) :=
  if lists.count e.first = 1 ∧ lists.count e.second = 1 ∧ e.first ≠ e.second then
    some ((lists.erase e.first).erase e.second ++ [e.result])
  else none

/-- The result lists the names of both in ascending order, each once. -/
structure Unites (e : HistoryEntry α) : Prop where
  ascending : e.result.Pairwise (· < ·)
  mem_iff : ∀ x, x ∈ e.result ↔ x ∈ e.first ∨ x ∈ e.second

/-- Two lists that stand among others without repetition can be taken out. -/
theorem replay?_of_perm {lists others : List (List String)} {e : HistoryEntry α} (hn : lists.Nodup)
    (hperm : lists.Perm (e.first :: e.second :: others)) (hsub : others.Sublist lists) :
    e.replay? lists = some (others ++ [e.result]) := by
  have hfirst : e.first ∈ lists := hperm.symm.subset (List.mem_cons_self ..)
  have hsecond : e.second ∈ lists := hperm.symm.subset (List.mem_cons_of_mem _ (List.mem_cons_self ..))
  have hne : e.first ≠ e.second := fun heq =>
    (List.nodup_cons.1 (hperm.nodup_iff.1 hn)).1 (heq ▸ List.mem_cons_self ..)
  rw [replay?, if_pos ⟨List.count_eq_one_of_mem hn hfirst, List.count_eq_one_of_mem hn hsecond, hne⟩,
    Clustering.erase_erase_of_perm hn hperm hsub]

end HistoryEntry

namespace Clustering

/-! ## Entries -/

section Entries

variable [Rounding α]

/-- What a history shows of the merge at a place. -/
def entry (i : Nat) (m : Merge α) : HistoryEntry α :=
  ⟨i + 1, m.first.names, m.second.names, Rounding.toPlaces reportPlaces m.coupling, m.result.names⟩

theorem entries_eq (c : Clustering α) : c.entries = c.history.mapIdx entry := rfl

theorem mem_entries {c : Clustering α} {e : HistoryEntry α} :
    e ∈ c.entries ↔ ∃ (i : Nat) (m : Merge α), c.history[i]? = some m ∧ entry i m = e := by
  rw [entries_eq, List.mem_iff_getElem?]
  refine exists_congr fun i => ?_
  rw [List.getElem?_mapIdx, Option.map_eq_some_iff]

theorem entries_apply (c : Clustering α) (m : Merge α) :
    (c.apply m).entries = c.entries ++ [entry c.history.length m] := by
  rw [entries_eq, apply_history, List.mapIdx_concat]
  rfl

end Entries

theorem map_names (c : Clustering α) : c.clusters.map Cluster.names = c.groups.map NameSet.toList := by
  rw [groups, List.map_map]
  rfl

variable [Scalar α] {value? : Lookup α} {rule : StopRule α} {coupling : CouplingMap α} {c : Clustering α} {m : Merge α}

theorem Forest.nodup_map_names (h : Forest coupling c) : (c.clusters.map Cluster.names).Nodup := by
  rw [map_names]
  exact h.nodup_groups.map fun _ _ => NameSet.toList_injective

variable [Rounding α]

namespace Forest

/-! ## A merge -/

theorem unites (h : Forest coupling c) (hm : m ∈ c.history) (i : Nat) : (entry i m).Unites where
  ascending := m.result.members.sorted
  mem_iff _ := (h.joins m hm).mem_members

/-- The entry of a merge is replayed as it was made. -/
theorem replay?_apply (h : Forest coupling c) (hm : Picks value? rule c m) (i : Nat) :
    (entry i m).replay? (c.clusters.map Cluster.names) = some ((c.apply m).clusters.map Cluster.names) := by
  obtain ⟨others, hperm, hsub, hclusters⟩ := h.clusters_apply hm
  have hreplay := HistoryEntry.replay?_of_perm (e := entry i m) h.nodup_map_names (hperm.map Cluster.names)
    (hsub.map Cluster.names)
  rw [hreplay, hclusters, List.map_append]
  rfl

/-! ## The entry of a cluster -/

/-- Merges with the same result are the same, if it is at top level. -/
theorem eq_of_result_eq (h : Forest coupling c) {e e' : HistoryEntry α} (he : e ∈ c.entries) (he' : e' ∈ c.entries)
    {k : Cluster α} (hk : k ∈ c.clusters) (hres : e.result = k.names) (hres' : e'.result = k.names) : e = e' := by
  obtain ⟨i, m, hi, rfl⟩ := mem_entries.1 he
  obtain ⟨j, m', hj, rfl⟩ := mem_entries.1 he'
  have hm := h.eq_of_names_eq hk (h.result_mem (List.mem_of_getElem? hi)) hres
  have hm' := h.eq_of_names_eq hk (h.result_mem (List.mem_of_getElem? hj)) hres'
  have hid := h.result_id hi
  have hid' := h.result_id hj
  rw [hm] at hid
  rw [hm'] at hid'
  obtain rfl : i = j := by omega
  rw [hi, Option.some.injEq] at hj
  rw [hj]

/-- A cluster of two classes or more shows the parts of the merge that it results from. -/
theorem exists_entry (h : Forest coupling c) {k : Cluster α} (hk : k ∈ c.clusters) (htwo : 2 ≤ k.names.length) :
    ∃ e ∈ c.entries, e.result = k.names ∧ (c.summary k).children = [e.first, e.second] := by
  rcases h.leaf_or_result (h.mem_clusters.1 hk).1 with ⟨i, cls, -, rfl⟩ | ⟨m, hm, rfl⟩
  · exact absurd htwo (Nat.not_succ_le_self 1)
  · obtain ⟨i, hi⟩ := List.mem_iff_getElem?.1 hm
    refine ⟨entry i m, mem_entries.2 ⟨i, m, hi, rfl⟩, rfl, ?_⟩
    rw [summary, h.children_result hm]
    rfl

end Forest

/-! ## Runs -/

/-- The entries lead from the single classes to the clusters at top level. -/
structure Replayed (coupling : CouplingMap α) (c : Clustering α) : Prop where
  forest : Forest coupling c
  replayed : c.entries.foldlM HistoryEntry.replay? (coupling.classes.map fun x => [x]) =
    some (c.clusters.map Cluster.names)

theorem replayed_initial (coupling : CouplingMap α) : Replayed coupling (initial coupling) where
  forest := forest_initial coupling
  replayed := by
    rw [map_names, initial_groups, List.map_map]
    rfl

theorem Replayed.apply (h : Replayed coupling c) (hm : Picks value? rule c m) : Replayed coupling (c.apply m) where
  forest := h.forest.apply hm
  replayed := by
    rw [entries_apply, List.foldlM_append, h.replayed, Option.bind_eq_bind, Option.bind_some, List.foldlM_cons,
      h.forest.replay?_apply hm]
    rfl

theorem replayed_run (rule : StopRule α) (coupling : CouplingMap α) :
    Replayed coupling (run rule coupling).clustering :=
  run_induction (replayed_initial coupling) fun _ _ h hm => h.apply hm

end Clustering

/-! ## Reports -/

namespace Report

/-- The history of a report is a log of how its clusters came about from single classes. -/
structure Logs (r : Report α) (classes : List String) : Prop where
  replayed : r.history.foldlM HistoryEntry.replay? (classes.map fun x => [x]) = some (r.clusters.map ClusterSummary.classes)
  unites : ∀ e ∈ r.history, e.Unites
  children : ∀ k ∈ r.clusters, 2 ≤ k.classes.length → ∃ e ∈ r.history, e.result = k.classes ∧
    k.children = [e.first, e.second] ∧ ∀ e' ∈ r.history, e'.result = k.classes → e' = e

variable [Scalar α] [Rounding α] {g : CallGraph} {c : Clustering α} {threshold : α} {maxSelected : Option Int}

theorem Tells.logs {r : Report α} (h : r.Tells g c threshold maxSelected)
    (hc : Clustering.Replayed g.normalizedCoupling c) : r.Logs (g.normalizedCoupling : CouplingMap α).classes where
  replayed := by
    rw [h.history_eq, hc.replayed, h.clusters_eq, Clustering.summaries, List.map_map]
    rfl
  unites := by
    rw [h.history_eq]
    intro e he
    obtain ⟨i, m, hi, rfl⟩ := Clustering.mem_entries.1 he
    exact hc.forest.unites (List.mem_of_getElem? hi) i
  children := by
    rw [h.history_eq, h.clusters_eq]
    intro _ hs htwo
    obtain ⟨k, hk, rfl⟩ := List.mem_map.1 hs
    obtain ⟨e, he, hres, hchildren⟩ := hc.forest.exists_entry hk htwo
    exact ⟨e, he, hres, hchildren, fun e' he' hres' => hc.forest.eq_of_result_eq he' he hk hres' hres⟩

end Report

/-- **The history of a report is a complete log.** Its entries lead from the single classes, in the order in which the coupling
names them, to the clusters of the report. For rational numbers a report is returned, as long as numbers of clusters fit into
64 bits. -/
theorem decompose_logs (g : CallGraph) :
    (2 * g.size ≤ LinkageRow.numberBound → ∀ p : Parameters Rat, ∃ d, decompose g p = .ok d) ∧
      ∀ {α : Type} [Scalar α] [Rounding α] (p : Parameters α) (d : Decomposition α), decompose g p = .ok d →
        d.report.Logs (g.normalizedCoupling : CouplingMap α).classes := by
  refine ⟨fun hbound p => decompose_eq_ok p hbound, fun p d h => ?_⟩
  exact (tells_of_decompose h).logs (Clustering.replayed_run _ _)

/-- The report on three classes, the first two related twice and the last two once, shows two merges. -/
theorem three_classes_logged :
    ∃ d : Decomposition Rat,
      decompose (.ofFacts [.call "A" "m", .call "A" "n", .method "B" "m", .method "B" "n", .call "B" "k", .method "C" "k"])
        ⟨0, 1, 0, none⟩ = .ok d ∧
      d.report.history.map (fun e => (e.first, e.second)) = [(["A"], ["B"]), (["C"], ["A", "B"])] ∧
      d.report.Logs ["A", "B", "C"] := by
  have h := decompose_logs
    (.ofFacts [.call "A" "m", .call "A" "n", .method "B" "m", .method "B" "n", .call "B" "k", .method "C" "k"])
  obtain ⟨d, hd⟩ := h.1 (by decide) ⟨0, 1, 0, none⟩
  refine ⟨d, hd, ?_, h.2 _ d hd⟩
  rw [(tells_of_decompose hd).history_eq]
  decide +kernel

end CouplingTree
