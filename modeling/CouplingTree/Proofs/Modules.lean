import CouplingTree.Modules
import CouplingTree.Proofs.Clustering.Stopping
import CouplingTree.Proofs.Clustering.Trees
import CouplingTree.Proofs.Numbers.Doubles
import CouplingTree.Proofs.Means
import CouplingTree.Proofs.Report.Basic

/-!
# Two ways to select modules

* `CouplingMap.average_eq` : the running sum of one selector gives the mean of the other, on numbers of any kind.
* `CouplingMap.selectModules_eq` : the first clusters that couple above a threshold are selected, as many as the cap admits.
* `Clustering.modulesOf_eq`, `Clustering.mem_modulesOf` : what a cluster gives at a threshold, itself or parts of it.
* `Clustering.selected_sublist` : what the cap admits is part of what the threshold admits.
* `Clustering.selectors_agree` : all this of any clustering of doubles, whose clusters may overlap or be listed more than once.

A part of a cluster may cohere more than the whole or less, so that a cluster gives itself, both parts, one of them or nothing.

* `Clustering.Forest.pairwise_modules` : the modules of a forest share no class.
* `Clustering.Forest.exists_coarser` : a cluster that gives a module gives one around it for each lower threshold.
* `Clustering.run_modules_refine` : so each module of a run lies in exactly one of those for a lower threshold.
-/

namespace CouplingTree

variable {α : Type} [Scalar α]

/-! ## Running sums -/

namespace CouplingMap

variable {coupling : CouplingMap α}

theorem foldl_sums (values : List α) (total : α) (count : Nat) :
    values.foldl (fun sums v => (sums.1 + v, sums.2 + 1)) (total, count) =
      (values.foldl (· + ·) total, count + values.length) := by
  induction values generalizing total count with
  | nil => rfl
  | cons v values ih =>
    rw [List.foldl_cons, ih, List.foldl_cons, List.length_cons]
    congr 1
    omega

theorem foldl_tally (coupling : CouplingMap α) (s : NameSet) (sums : α × Nat) :
    s.toList.foldl (fun sums a => s.toList.foldl (coupling.tally a) sums) sums =
      ((Lookup.innerPairs s).filterMap coupling.find?).foldl (fun sums v => (sums.1 + v, sums.2 + 1)) sums := by
  -- the outer loop is over the first names of the pairs, the inner one over the second names
  rw [List.foldl_filterMap, Lookup.innerPairs, List.foldl_flatMap]
  congr 1
  funext sums a
  rw [List.foldl_map, List.foldl_filter]
  congr 1
  funext sums b
  unfold tally
  by_cases hab : a = b
  · simp [hab]
  · simp only [hab, ne_eq, not_false_eq_true, decide_true, ↓reduceIte]
    cases coupling.find? (a, b) <;> rfl

theorem average_eq (coupling : CouplingMap α) (s : NameSet) : coupling.average s = coupling.within s := by
  rw [average, foldl_tally, foldl_sums, within, Lookup.within, mean]
  cases (Lookup.innerPairs s).filterMap coupling.find? with
  | nil => rfl
  | cons v values => simp

/-- A set of no more than one name has no pairs inside, so that its average is zero. -/
theorem average_of_size_le_one {s : NameSet} (h : s.size ≤ 1) : coupling.average s = 0 := by
  have hpairs : Lookup.innerPairs s = [] := by
    refine List.eq_nil_of_length_eq_zero ?_
    rw [Lookup.length_innerPairs, Nat.sub_eq_zero_of_le h, Nat.mul_zero]
  rw [average_eq, within, Lookup.within, hpairs, List.filterMap_nil, mean]
  rfl

/-- Such a set coheres fully instead, which admits more thresholds as long as one is not below zero. -/
theorem le_cohesion_of_lt_average [LawfulScalar α] (hone : (0 : α) ≤ 1) {s : NameSet} {t : α} (h : t < coupling.average s) :
    t ≤ coupling.cohesion s := by
  unfold cohesion
  split
  case isTrue hsize =>
    rw [average_of_size_le_one hsize] at h
    exact LawfulScalar.trans t 0 1 (Scalar.le_of_lt h) hone
  case isFalse => exact Scalar.le_of_lt (average_eq coupling s ▸ h)

/-! ## The first clusters -/

/-- The clusters whose members couple above a threshold on average. -/
def above (coupling : CouplingMap α) (t : α) (ks : List (Cluster α)) : List (Cluster α) :=
  ks.filter fun k => decide (t < coupling.average k.members)

variable {cap : Int} {t : α} {ks selected : List (Cluster α)} {k : Cluster α}

theorem above_cons_of_pos (h : t < coupling.average k.members) : coupling.above t (k :: ks) = k :: coupling.above t ks :=
  List.filter_cons_of_pos (decide_eq_true h)

theorem above_cons_of_neg (h : ¬ t < coupling.average k.members) : coupling.above t (k :: ks) = coupling.above t ks :=
  List.filter_cons_of_neg (by simpa using h)

theorem foldl_select : ks.foldl (coupling.select cap t) selected =
    selected ++ (coupling.above t ks).take (cap - selected.length).toNat := by
  -- the difference is the room that is left, which shrinks with each cluster that is selected
  induction ks generalizing selected with
  | nil => rw [List.foldl_nil, above, List.filter_nil, List.take_nil, List.append_nil]
  | cons k ks ih =>
    rw [List.foldl_cons, ih, select]
    by_cases hk : t < coupling.average k.members
    · rw [above_cons_of_pos hk]
      by_cases hroom : (selected.length : Int) < cap
      · have hcount : (cap - selected.length).toNat = (cap - (selected ++ [k]).length).toNat + 1 := by
          rw [List.length_append, List.length_singleton]
          omega
        rw [if_pos ⟨hroom, hk⟩, hcount, List.take_succ_cons, List.append_assoc, List.singleton_append]
      · have hcount : (cap - selected.length).toNat = 0 := by omega
        rw [if_neg (fun h => hroom h.1), hcount, List.take_zero, List.take_zero]
    · rw [if_neg (fun h => hk h.2), above_cons_of_neg hk]

theorem selectModules_eq (coupling : CouplingMap α) (ks : List (Cluster α)) (cap : Int) (t : α) :
    coupling.selectModules ks cap t = (coupling.above t ks).take cap.toNat := by
  rw [selectModules, foldl_select, List.nil_append, List.length_nil, Nat.cast_zero, Int.sub_zero]

/-- A cap that leaves room for all clusters admits those above the threshold. -/
theorem selectModules_of_length_le (h : (ks.length : Int) ≤ cap) : coupling.selectModules ks cap t = coupling.above t ks := by
  have hlength : (coupling.above t ks).length ≤ ks.length := List.length_filter_le _ _
  rw [selectModules_eq, List.take_of_length_le (by omega)]

theorem mem_of_mem_selectModules (h : k ∈ coupling.selectModules ks cap t) : k ∈ ks := by
  rw [selectModules_eq] at h
  exact List.mem_of_mem_filter (List.mem_of_mem_take h)

end CouplingMap

/-! ## Clusters or their parts -/

namespace Clustering

variable {c : Clustering α} {k : Cluster α} {s : NameSet} {t : α}

theorem modulesOf_eq (c : Clustering α) (t : α) (k : Cluster α) :
    c.modulesOf t k = if t ≤ c.cohesion k then [k.members]
      else ((Walk.next c.children k).filter fun part => decide (t ≤ c.cohesion part)).map Cluster.members := by
  rw [modulesOf, Walk.next]
  cases c.children k <;> rfl

theorem mem_modulesOf : s ∈ c.modulesOf t k ↔ (t ≤ c.cohesion k ∧ s = k.members) ∨
    (¬ t ≤ c.cohesion k ∧ ∃ part ∈ Walk.next c.children k, t ≤ c.cohesion part ∧ s = part.members) := by
  rw [modulesOf_eq]
  by_cases hk : t ≤ c.cohesion k
  · simp [hk]
  · simp [hk, and_assoc, eq_comm]

theorem mem_modulesAtThreshold : s ∈ c.modulesAtThreshold t ↔ ∃ k ∈ c.clusters, s ∈ c.modulesOf t k := List.mem_flatMap

variable [LawfulScalar α]

theorem above_sublist (hone : (0 : α) ≤ 1) (c : Clustering α) (t : α) (ks : List (Cluster α)) :
    ((c.coupling.above t ks).map Cluster.members).Sublist (ks.flatMap (c.modulesOf t)) := by
  induction ks with
  | nil => exact List.Sublist.slnil
  | cons k ks ih =>
    rw [List.flatMap_cons]
    by_cases hk : t < c.coupling.average k.members
    · -- the cluster gives itself and not its parts
      have hcohesion : t ≤ c.cohesion k := CouplingMap.le_cohesion_of_lt_average hone hk
      rw [CouplingMap.above_cons_of_pos hk, modulesOf_eq, if_pos hcohesion]
      exact ih.cons_cons _
    · rw [CouplingMap.above_cons_of_neg hk]
      exact ih.trans (List.sublist_append_right _ _)

theorem selected_sublist (hone : (0 : α) ≤ 1) (c : Clustering α) (cap : Int) (t : α) :
    ((c.coupling.selectModules c.clusters cap t).map Cluster.members).Sublist (c.modulesAtThreshold t) := by
  rw [CouplingMap.selectModules_eq]
  exact ((List.take_sublist _ _).map _).trans (above_sublist hone c t c.clusters)

end Clustering

/-! ## Two selections in a report -/

namespace Clustering

/-- One selector takes the first clusters whose members couple above the threshold, on the average that the other one computes
as well, and all of them if a report has no cap. The other one gives them in the same order, with more sets in between. -/
structure SelectorsAgree (c : Clustering Float) (threshold : Float) : Prop where
  selected_eq : ∀ cap : Int, c.coupling.selectModules c.clusters cap threshold =
    (c.clusters.filter fun k => decide (threshold < c.coupling.average k.members)).take cap.toNat
  average_eq : ∀ s, c.coupling.average s = c.coupling.within s
  sublist : ∀ cap : Int,
    ((c.coupling.selectModules c.clusters cap threshold).map Cluster.members).Sublist (c.modulesAtThreshold threshold)
  uncapped : ∀ (g : CallGraph) (r : Report Float), Report.of g c threshold none = .ok r →
    r.selectedModules = (c.clusters.filter fun k => decide (threshold < c.coupling.average k.members)).map Cluster.names

theorem length_clusters_le {α : Type} (c : Clustering α) : c.clusters.length ≤ c.active.length := List.length_filterMap_le _ _

/-- **The selectors agree** on every clustering, also on one that no run ends with, and at every threshold. -/
theorem selectors_agree (c : Clustering Float) (threshold : Float) : SelectorsAgree c threshold := by
  have hone : (0 : Float) ≤ 1 := by decide +kernel
  refine ⟨fun cap => CouplingMap.selectModules_eq _ _ cap threshold, CouplingMap.average_eq _,
    fun cap => selected_sublist hone c cap threshold, fun g r hr => ?_⟩
  rw [(Report.tells_of hr).selectedModules_eq, Option.getD_none,
    CouplingMap.selectModules_of_length_le (Int.ofNat_le.2 c.length_clusters_le)]
  rfl

/-- Four clusters of three classes: one alone, two that overlap, and one of them again. -/
def overlapping : Clustering Float where
  coupling := .ofList [(("A", "B"), 0.5), (("B", "C"), 0.25)]
  arena := [⟨0, .singleton "A", none, 0⟩, ⟨1, .ofList ["A", "B"], none, 0⟩, ⟨2, .ofList ["B", "C"], none, 0⟩,
    ⟨3, .ofList ["A", "B"], none, 0⟩]
  active := [0, 1, 2, 3]
  history := []

/-- Both selectors keep what is listed twice, and only one of them counts a class alone as a module. -/
theorem overlapping_selected :
    SelectorsAgree overlapping 0.25 ∧ (∃ r, Report.of .empty overlapping 0.25 none = .ok r ∧
      r.selectedModules = [["A", "B"], ["A", "B"]]) ∧
      overlapping.modulesAtThreshold 0.25 = [.ofList ["A"], .ofList ["A", "B"], .ofList ["B", "C"], .ofList ["A", "B"]] := by
  have hagree := selectors_agree overlapping 0.25
  have hreport : (Report.of .empty overlapping 0.25 none).toOption.isSome = true := by decide +kernel
  obtain ⟨r, hr⟩ := Option.isSome_iff_exists.1 hreport
  rw [toOption_eq_some_iff] at hr
  exact ⟨hagree, ⟨r, hr, (hagree.uncapped _ r hr).trans (by decide +kernel)⟩, by decide +kernel⟩

end Clustering

/-! ## Two thresholds -/

namespace Clustering

variable {coupling : CouplingMap α} {c : Clustering α} {k : Cluster α} {s : NameSet} {t low high : α}

namespace Forest

theorem mem_members_of_mem_modulesOf (h : Forest coupling c) (hk : k ∈ c.arena) (hs : s ∈ c.modulesOf t k) :
    ∀ x ∈ s, x ∈ k.members := by
  rcases mem_modulesOf.1 hs with ⟨-, rfl⟩ | ⟨-, part, hpart, -, rfl⟩
  · exact fun _ hx => hx
  · exact h.mem_members_of_next hk hpart

theorem nonempty_of_mem_modulesOf (h : Forest coupling c) (hk : k ∈ c.arena) (hs : s ∈ c.modulesOf t k) : ∃ x, x ∈ s := by
  rcases mem_modulesOf.1 hs with ⟨-, rfl⟩ | ⟨-, part, hpart, -, rfl⟩
  · exact List.exists_mem_of_ne_nil _ (h.nonempty k hk)
  · exact List.exists_mem_of_ne_nil _ (h.nonempty part (h.next_subset_arena hk hpart))

theorem pairwise_modulesOf (h : Forest coupling c) (hk : k ∈ c.arena) : (c.modulesOf t k).Pairwise NameSet.Apart := by
  rw [modulesOf_eq]
  split
  · exact List.pairwise_singleton _ _
  · exact List.pairwise_map.2 ((h.pairwise_next hk).filter _)

theorem exists_coarser [LawfulScalar α] (h : Forest coupling c) (hle : low ≤ high) (hk : k ∈ c.arena)
    (hs : s ∈ c.modulesOf high k) : ∃ t ∈ c.modulesOf low k, ∀ x ∈ s, x ∈ t := by
  by_cases hlow : low ≤ c.cohesion k
  · -- the whole cluster, whether it or a part of it reaches the higher threshold
    exact ⟨k.members, mem_modulesOf.2 (Or.inl ⟨hlow, rfl⟩), h.mem_members_of_mem_modulesOf hk hs⟩
  · rcases mem_modulesOf.1 hs with ⟨hhigh, -⟩ | ⟨-, part, hpart, hhigh, rfl⟩
    · exact absurd (LawfulScalar.trans low high _ hle hhigh) hlow
    · exact ⟨part.members, mem_modulesOf.2 (Or.inr ⟨hlow, part, hpart, LawfulScalar.trans low high _ hle hhigh, rfl⟩),
        fun _ hx => hx⟩

theorem pairwise_modules (h : Forest coupling c) : (c.modulesAtThreshold t).Pairwise NameSet.Apart := by
  have harena := fun k hk => (h.mem_clusters (k := k)).1 hk |>.1
  refine List.pairwise_flatMap.2 ⟨fun k hk => h.pairwise_modulesOf (harena k hk), ?_⟩
  refine h.pairwise_apart.imp_of_mem fun hk hl hapart s hs s' hs' x hx hx' => ?_
  exact hapart x (h.mem_members_of_mem_modulesOf (harena _ hk) hs x hx) (h.mem_members_of_mem_modulesOf (harena _ hl) hs' x hx')

end Forest

/-- Sets of classes, none of them empty and no two with a class in common. Each is a cluster at top level that reaches the
threshold, or a part that reaches it of one that does not. -/
structure Extracts (c : Clustering α) (t : α) (sets : List NameSet) : Prop where
  nonempty : ∀ s ∈ sets, ∃ x, x ∈ s
  apart : sets.Pairwise NameSet.Apart
  mem_iff : ∀ s, s ∈ sets ↔ ∃ k ∈ c.clusters, (t ≤ c.cohesion k ∧ s = k.members) ∨
    (¬ t ≤ c.cohesion k ∧ ∃ part ∈ Walk.next c.children k, t ≤ c.cohesion part ∧ s = part.members)

/-- Each set lies in exactly one of the others. Those have all its classes, and no class of it in different sets. -/
structure Refines (fine coarse : List NameSet) : Prop where
  within_one : ∀ s ∈ fine, ∃! t, t ∈ coarse ∧ ∀ x ∈ s, x ∈ t
  covered : ∀ x, (∃ s ∈ fine, x ∈ s) → ∃ t ∈ coarse, x ∈ t
  together : ∀ s ∈ fine, ∀ x ∈ s, ∀ y ∈ s, ∀ t ∈ coarse, x ∈ t → y ∈ t

theorem Forest.extracts (h : Forest coupling c) (t : α) : Extracts c t (c.modulesAtThreshold t) where
  nonempty s hs := by
    obtain ⟨k, hk, hs⟩ := mem_modulesAtThreshold.1 hs
    exact h.nonempty_of_mem_modulesOf (h.mem_clusters.1 hk).1 hs
  apart := h.pairwise_modules
  mem_iff s := mem_modulesAtThreshold.trans (exists_congr fun k => and_congr_right fun _ => mem_modulesOf)

theorem Forest.refines [LawfulScalar α] (h : Forest coupling c) (hle : low ≤ high) :
    Refines (c.modulesAtThreshold high) (c.modulesAtThreshold low) := by
  have hexists : ∀ s ∈ c.modulesAtThreshold high, ∃ t ∈ c.modulesAtThreshold low, ∀ x ∈ s, x ∈ t := by
    intro s hs
    obtain ⟨k, hk, hs⟩ := mem_modulesAtThreshold.1 hs
    obtain ⟨t, ht, hsub⟩ := h.exists_coarser hle (h.mem_clusters.1 hk).1 hs
    exact ⟨t, mem_modulesAtThreshold.2 ⟨k, hk, ht⟩, hsub⟩
  refine ⟨fun s hs => ?_, fun x ⟨s, hs, hx⟩ => ?_, fun s hs x hx y hy t ht hxt => ?_⟩
  · obtain ⟨t, ht, hsub⟩ := hexists s hs
    obtain ⟨x, hx⟩ := (h.extracts high).nonempty s hs
    exact ⟨t, ⟨ht, hsub⟩, fun t' ⟨ht', hsub'⟩ => NameSet.eq_of_shared (f := id) h.pairwise_modules ht' ht (hsub' x hx) (hsub x hx)⟩
  · obtain ⟨t, ht, hsub⟩ := hexists s hs
    exact ⟨t, ht, hsub x hx⟩
  · obtain ⟨t', ht', hsub⟩ := hexists s hs
    rw [NameSet.eq_of_shared (f := id) h.pairwise_modules ht ht' hxt (hsub x hx)]
    exact hsub y hy

/-- **A higher threshold refines the modules of a run.** For each threshold the modules share no class. Where one threshold is at
most another one, each module for the higher one lies in exactly one for the lower one, so that no class is added and no classes
are joined. -/
theorem run_modules_refine [LawfulScalar α] (rule : StopRule α) (coupling : CouplingMap α) :
    (∀ t, Extracts (run rule coupling).clustering t ((run rule coupling).clustering.modulesAtThreshold t)) ∧
    ∀ low high, low ≤ high → Refines ((run rule coupling).clustering.modulesAtThreshold high)
      ((run rule coupling).clustering.modulesAtThreshold low) :=
  ⟨(forest_run rule coupling).extracts, fun _ _ => (forest_run rule coupling).refines⟩

/-- The whole chain coheres less than either part of it, so that a threshold between the two splits it. -/
theorem slackChain_modules_refine :
    (run ⟨0, 1⟩ slackChain).clustering.modulesAtThreshold 0.25 = [.ofList ["A", "B", "C"]] ∧
      (run ⟨0, 1⟩ slackChain).clustering.modulesAtThreshold 0.5 = [.ofList ["C"], .ofList ["A", "B"]] ∧
      Refines ((run ⟨0, 1⟩ slackChain).clustering.modulesAtThreshold 0.5)
        ((run ⟨0, 1⟩ slackChain).clustering.modulesAtThreshold 0.25) ∧
      Extracts (run ⟨0, 1⟩ slackChain).clustering 0.5 ((run ⟨0, 1⟩ slackChain).clustering.modulesAtThreshold 0.5) := by
  have hle : (0.25 : Float) ≤ 0.5 := by decide +kernel
  obtain ⟨hextracts, hrefines⟩ := run_modules_refine ⟨0, 1⟩ slackChain
  exact ⟨by decide +kernel, by decide +kernel, hrefines _ _ hle, hextracts _⟩

end Clustering

end CouplingTree
