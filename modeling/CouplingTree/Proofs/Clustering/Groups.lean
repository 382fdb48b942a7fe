import CouplingTree.Proofs.Clustering.Consistency
import CouplingTree.Proofs.Clustering.Foremost

/-!
# Clusterings as lists of groups

What a run merges depends on the member sets of the clusters at top level only, not on their numbers. `Clustering.groups`
lists these sets in active order.

* `Lookup.mostCoupled?_map` : the most coupled pair of clusters that are changed.
* `Selects value? rule groups p` : the pair of groups that is merged next.
* `Forest.selects_of_picks`, `Forest.exists_join_of_selects` : a merge comes next exactly when a pair is selected.
* `Forest.groups_apply` : a merge removes two groups and puts their union at the end.
* `groups_run_uncoupled` : a run for which one cluster is enough goes on until no groups couple.
* `run_simulation` : two runs can be compared step by step, where the second one may wait.
-/

namespace CouplingTree

variable {α : Type} [Scalar α]

theorem pairsOf_map {β γ : Type} (g : β → γ) : ∀ l : List β, pairsOf (l.map g) = (pairsOf l).map (Prod.map g g)
  | [] => rfl
  | x :: l => by
    rw [List.map_cons, pairsOf, pairsOf, pairsOf_map g l, List.map_append, List.map_map, List.map_map]
    rfl

theorem pairsOf_filter {β : Type} (test : β → Bool) (l : List β) :
    pairsOf (l.filter test) = (pairsOf l).filter fun p => test p.1 && test p.2 := by
  induction l with
  | nil => rfl
  | cons x l ih =>
    rw [pairsOf, List.filter_append, ← ih, List.filter_map]
    cases hx : test x with
    | true =>
      rw [List.filter_cons_of_pos hx, pairsOf]
      simp only [Function.comp_def, hx, Bool.true_and]
    | false =>
      rw [List.filter_cons_of_neg (Bool.eq_false_iff.1 hx)]
      simp [Function.comp_def, hx]

/-- Clusters that are changed keep their most coupled pair, if their pairs keep the foremost one. -/
theorem Lookup.mostCoupled?_map [LawfulScalar α] {value? value'? : Lookup α} {g : Cluster α → Cluster α}
    {clusters : List (Cluster α)}
    (h : ∀ p, Foremost (fun p => value'?.ofPair (memberPair (p.map g g))) (pairsOf clusters) p ↔
      Foremost (fun p => value?.ofPair (memberPair p)) (pairsOf clusters) p) :
    value'?.mostCoupled? (clusters.map g) = (value?.mostCoupled? clusters).map (Prod.map g g) := by
  refine Option.ext fun q => ?_
  rw [mostCoupled?_eq_some_iff, pairsOf_map, foremost_map_iff, Option.map_eq_some_iff]
  refine exists_congr fun p => ?_
  rw [h p, mostCoupled?_eq_some_iff, and_comm]

/-- A merge without the numbers of its clusters. -/
def Merge.outline (m : Merge α) : NameSet × NameSet × α × NameSet :=
  (m.first.members, m.second.members, m.coupling, m.result.members)

namespace Clustering

variable {value? : Lookup α} {rule : StopRule α} {coupling : CouplingMap α} {c : Clustering α} {m : Merge α}
  {p : NameSet × NameSet}

/-- The member sets of the clusters at top level. -/
def groups (c : Clustering α) : List NameSet := c.clusters.map Cluster.members

/-- The most coupled pair of groups, if it is to be merged. -/
structure Selects (value? : Lookup α) (rule : StopRule α) (groups : List NameSet) (p : NameSet × NameSet) : Prop where
  foremost : Foremost value?.ofPair (pairsOf groups) p
  strong : ¬ value?.ofPair p < rule.minCoupling
  many : rule.maxModules < groups.length

theorem Selects.sublist {groups : List NameSet} (h : Selects value? rule groups p) : [p.1, p.2].Sublist groups :=
  mem_pairsOf.1 h.foremost.mem

theorem Selects.one_lt_length {groups : List NameSet} (h : Selects value? rule groups p) : 1 < groups.length :=
  h.sublist.length_le

/-- Where one cluster is enough, only the couplings decide. -/
theorem Selects.of_foremost {groups : List NameSet} (h : Foremost value?.ofPair (pairsOf groups) p)
    (hstrong : ¬ value?.ofPair p < rule.minCoupling) (hmost : rule.maxModules ≤ 1) : Selects value? rule groups p where
  foremost := h
  strong := hstrong
  many := by
    have hlength : 1 < groups.length := (mem_pairsOf.1 h.mem).length_le
    omega

/-! ## The next merge -/

theorem next_of_picks (h : Picks value? rule c m) : c.next value? rule = .join m := by
  have hmany : ¬ ((c.active.length : Int) ≤ rule.maxModules ∨ c.active.length ≤ 1) := by
    rw [not_or, Int.not_le, Nat.not_le]
    exact ⟨h.many, h.several⟩
  have hstrong : ¬ value?.between m.first.members m.second.members < rule.minCoupling := by
    rw [← h.coupling_eq]
    exact h.strong
  have hmerge : c.mergeOf m.first m.second m.coupling = m := by
    rw [mergeOf, ← h.result_eq]
  rw [next, if_neg hmany, h.best]
  dsimp only
  rw [if_neg hstrong, ← h.coupling_eq, hmerge]

/-- There is only one merge that comes next. -/
theorem Picks.unique {m' : Merge α} (h : Picks value? rule c m) (h' : Picks value? rule c m') : m = m' :=
  Next.join.inj ((next_of_picks h).symm.trans (next_of_picks h'))

theorem Picks.outline_eq (h : Picks value? rule c m) :
    m.outline = (m.first.members, m.second.members, value?.between m.first.members m.second.members,
      m.first.members.union m.second.members) := by
  rw [Merge.outline, h.result_eq, ← h.coupling_eq]

namespace Forest

theorem length_groups (h : Forest coupling c) : c.groups.length = c.active.length := by
  rw [groups, List.length_map, ← h.clusters_ids, List.length_map]

theorem ne_empty_of_mem_groups (h : Forest coupling c) {s : NameSet} (hs : s ∈ c.groups) : ∃ x, x ∈ s := by
  obtain ⟨k, hk, rfl⟩ := List.mem_map.1 hs
  exact List.exists_mem_of_ne_nil _ (h.nonempty k (h.mem_clusters.1 hk).1)

theorem pairwise_groups (h : Forest coupling c) : c.groups.Pairwise NameSet.Apart :=
  List.pairwise_map.2 h.pairwise_apart

/-- Groups that share no class are different, as each has a class. -/
theorem nodup_groups (h : Forest coupling c) : c.groups.Nodup := by
  refine (List.Pairwise.and_mem.1 h.pairwise_groups).imp fun {s t} hst he => ?_
  obtain ⟨x, hx⟩ := h.ne_empty_of_mem_groups hst.1
  exact hst.2.2 x hx (he ▸ hx)

variable [LawfulScalar α]

theorem selects_of_picks (h : Forest coupling c) (hm : Picks value? rule c m) :
    Selects value? rule c.groups (m.first.members, m.second.members) where
  foremost := by
    rw [groups, pairsOf_map]
    exact foremost_map_iff.2 ⟨(m.first, m.second), rfl, Lookup.mostCoupled?_eq_some_iff.1 hm.best⟩
  strong := by
    change ¬ value?.between m.first.members m.second.members < rule.minCoupling
    rw [← hm.coupling_eq]
    exact hm.strong
  many := by
    rw [h.length_groups]
    exact hm.many

/-- The pair that is selected is merged. -/
theorem exists_join_of_selects (h : Forest coupling c) (hp : Selects value? rule c.groups p) :
    ∃ m, c.next value? rule = .join m ∧ m.first.members = p.1 ∧ m.second.members = p.2 := by
  have hforemost := hp.foremost
  rw [groups, pairsOf_map] at hforemost
  obtain ⟨⟨first, second⟩, rfl, hbest⟩ := foremost_map_iff.1 hforemost
  refine ⟨c.mergeOf first second (value?.between first.members second.members), next_of_picks ?_, rfl, rfl⟩
  have hlength := h.length_groups
  exact {
    best := Lookup.mostCoupled?_eq_some_iff.2 hbest
    coupling_eq := rfl
    result_eq := rfl
    strong := hp.strong
    many := hlength ▸ hp.many
    several := hlength ▸ hp.one_lt_length }

end Forest

/-- Any pair that couples leaves a foremost one. -/
theorem exists_foremost [LawfulScalar α] (c : Clustering α) {q : NameSet × NameSet} (hq : q ∈ pairsOf c.groups)
    (hpos : 0 < value?.ofPair q) : ∃ p, Foremost value?.ofPair (pairsOf c.groups) p := by
  rw [groups, pairsOf_map] at hq ⊢
  obtain ⟨pair, hpair, rfl⟩ := List.mem_map.1 hq
  cases hbest : value?.mostCoupled? c.clusters with
  | none => exact absurd hpos (Lookup.mostCoupled?_eq_none_iff.1 hbest pair hpair)
  | some best => exact ⟨_, foremost_map_iff.2 ⟨best, rfl, Lookup.mostCoupled?_eq_some_iff.1 hbest⟩⟩

/-! ## Groups after a merge -/

theorem initial_groups (coupling : CouplingMap α) :
    (initial coupling).groups = coupling.classes.map NameSet.singleton := by
  rw [groups, initial_clusters, leaves, List.mapIdx_eq_zipIdx_map, List.map_map]
  change coupling.classes.zipIdx.map (NameSet.singleton ∘ Prod.fst) = _
  rw [← List.map_map, List.zipIdx_map_fst]

/-- Two items taken out of a list without repetition leave the rest in its order. -/
theorem erase_erase_of_perm {β : Type} [BEq β] [LawfulBEq β] {l rest : List β} {a b : β} (hl : l.Nodup)
    (hperm : l.Perm (a :: b :: rest)) (hsub : rest.Sublist l) : (l.erase a).erase b = rest := by
  have hn := hperm.nodup_iff.1 hl
  obtain ⟨ha, hn⟩ := List.nodup_cons.1 hn
  obtain ⟨hb, -⟩ := List.nodup_cons.1 hn
  have hrest : (rest.erase a).erase b = rest := by
    rw [List.erase_of_not_mem fun hr => ha (List.mem_cons_of_mem _ hr), List.erase_of_not_mem hb]
  have hlength : ((l.erase a).erase b).Perm rest := by
    have hp := (hperm.erase a).erase b
    rwa [List.erase_cons_head, List.erase_cons_head] at hp
  have hsub' := (hsub.erase a).erase b
  rw [hrest] at hsub'
  exact (hsub'.eq_of_length hlength.length_eq.symm).symm

/-- Two groups give way to their union, which stands at the end. -/
theorem Forest.groups_apply (h : Forest coupling c) (hm : Picks value? rule c m) :
    (c.apply m).groups =
      (c.groups.erase m.first.members).erase m.second.members ++ [m.first.members.union m.second.members] := by
  obtain ⟨others, hperm, hsub, hclusters⟩ := h.clusters_apply hm
  have hothers := erase_erase_of_perm h.nodup_groups (hperm.map Cluster.members) (hsub.map Cluster.members)
  rw [groups, hclusters, List.map_append, ← hothers, List.map_singleton, hm.result_eq]

theorem Forest.length_active_apply (h : Forest coupling c) (hm : Picks value? rule c m) :
    (c.apply m).active.length + 1 = c.active.length := by
  have hbefore := h.length_active
  have hafter := (h.apply hm).length_active
  rw [apply_history, List.length_append, List.length_singleton] at hafter
  omega

/-- A run that stops for no other reason ends with groups of which no two couple. -/
theorem groups_run_uncoupled [LawfulScalar α] (coupling : CouplingMap α) (hmin : rule.minCoupling ≤ 0)
    (hmost : rule.maxModules ≤ 1) :
    (run rule coupling).clustering.groups.Pairwise fun s t => ¬ 0 < coupling.between s t := by
  rw [List.pairwise_iff_forall_sublist]
  intro s t hst hpos
  obtain ⟨p, hp⟩ : ∃ p, Foremost (Lookup.ofPair coupling.find?) (pairsOf (run rule coupling).clustering.groups) p :=
    exists_foremost _ (mem_pairsOf.2 hst) hpos
  have hstrong : ¬ Lookup.ofPair coupling.find? p < rule.minCoupling := fun hweak =>
    Scalar.not_lt_of_lt hp.positive (Scalar.lt_of_lt_of_le hweak hmin)
  obtain ⟨m, hm, -⟩ := (forest_run rule coupling).exists_join_of_selects (Selects.of_foremost hp hstrong hmost)
  exact run_stops rule coupling m hm

/-! ## Two runs -/

variable {rule' : StopRule α} {coupling' : CouplingMap α}

/-- Once no merge comes next, a stage stays as it is. -/
theorem stage_add_of_stopped {steps : Nat} (h : ∀ m, (stage rule coupling steps).next coupling.find? rule ≠ .join m)
    (more : Nat) : stage rule coupling (steps + more) = stage rule coupling steps := by
  induction more with
  | zero => rfl
  | succ more ih =>
    rw [← Nat.add_assoc, stage_succ, ih]
    split
    · next m hm => exact absurd hm (h m)
    · rfl

theorem run_eq_stage {steps : Nat} (h : ∀ m, (stage rule coupling steps).next coupling.find? rule ≠ .join m) :
    (run rule coupling).clustering = stage rule coupling steps := by
  have hrun := run_stops rule coupling
  rw [run_clustering] at hrun ⊢
  rcases Nat.le_total steps (initial coupling).active.length with hle | hle
  · obtain ⟨more, hmore⟩ := Nat.exists_eq_add_of_le hle
    rw [hmore, stage_add_of_stopped h]
  · obtain ⟨more, hmore⟩ := Nat.exists_eq_add_of_le hle
    rw [hmore, stage_add_of_stopped hrun]

/-- What relates single classes, is kept when the second run follows a merge of the first or waits, and lets the second
run stop where the first stops, relates what both end with. -/
theorem run_simulation {R : Clustering α → Clustering α → Prop} (start : R (initial coupling) (initial coupling'))
    (merge : ∀ i j m, R (stage rule coupling i) (stage rule' coupling' j) →
      (stage rule coupling i).next coupling.find? rule = .join m →
      R ((stage rule coupling i).apply m) (stage rule' coupling' j) ∨
        ∃ m', (stage rule' coupling' j).next coupling'.find? rule' = .join m' ∧
          R ((stage rule coupling i).apply m) ((stage rule' coupling' j).apply m'))
    (stop : ∀ i j m', R (stage rule coupling i) (stage rule' coupling' j) →
      (stage rule' coupling' j).next coupling'.find? rule' = .join m' →
      ∃ m, (stage rule coupling i).next coupling.find? rule = .join m) :
    R (run rule coupling).clustering (run rule' coupling').clustering := by
  have key : ∀ i, ∃ j, R (stage rule coupling i) (stage rule' coupling' j) := by
    intro i
    induction i with
    | zero => exact ⟨0, start⟩
    | succ i ih =>
      obtain ⟨j, hj⟩ := ih
      rw [stage_succ]
      split
      · next m hm =>
        rcases merge i j m hj hm with hwait | ⟨m', hm', hfollow⟩
        · exact ⟨j, hwait⟩
        · refine ⟨j + 1, ?_⟩
          rw [stage_succ, hm']
          exact hfollow
      · exact ⟨j, hj⟩
  obtain ⟨j, hj⟩ := key (initial coupling).active.length
  have hstopped : ∀ m', (stage rule' coupling' j).next coupling'.find? rule' ≠ .join m' := by
    intro m' hm'
    obtain ⟨m, hm⟩ := stop _ j m' hj hm'
    rw [← run_clustering] at hm
    exact run_stops rule coupling m hm
  rw [run_clustering rule coupling, run_eq_stage hstopped]
  exact hj

end Clustering

end CouplingTree
