import CouplingTree.Proofs.Report.Basic

/-!
# Every call graph is decomposed

With rational numbers nothing on the way from a call graph to its report can fail but the layout of the leaves, and the rows
that are laid out show one tree without negative distances. The report shares out the classes.

* `decomposeBy_farApart` : a layout that accepts such rows never keeps a call graph from its report.
* `decompose_returns` : this follows from how couplings are normalized.
* `Report.SharesOut r names` : the clusters of a report are a partition of some classes.
* `Report.Tells.sharesOut_iff` : the clusters of a report share out the classes of the call graph exactly when it has not
  only one, since the coupling names a class only together with another one.
* `decompose_sharesOut` : the same of every decomposition that is returned.
-/

namespace CouplingTree

/-- All distances of the linkage, if there is one, are at least a half and less than one. -/
def Decomposition.FarApart (d : Decomposition Rat) : Prop :=
  ∀ rows, d.run.clustering.linkage = .ok rows → ∀ row ∈ rows, 1 / 2 ≤ row.distance ∧ row.distance < 1

variable {g : CallGraph}

theorem Decomposition.farApart_of_run {d : Decomposition Rat} {p : Parameters Rat}
    (h : d.run = Clustering.run ⟨p.minCoupling, p.maxModules⟩ g.normalizedCoupling) : d.FarApart := by
  intro rows hrows
  rw [h] at hrows
  exact g.distance_bounds _ hrows

theorem decomposeBy_farApart {layout : Layout Rat} (hlayout : layout.Accepts) (p : Parameters Rat) :
    ∃ d, decomposeBy layout g p = .ok d ∧ d.FarApart := by
  have hforest := Clustering.forest_run ⟨p.minCoupling, p.maxModules⟩ (g.normalizedCoupling : CouplingMap Rat)
  have hreturns := decomposeBy_eq_ok_of layout p (fun n d _ _ _ => ratio?_rat n d) fun rows hrows =>
    hlayout rows (hforest.rows_ne_nil hrows) (hforest.oneTree hrows) (g.distance_nonneg _ hrows)
  exact hreturns.imp fun d hd => ⟨hd.1, Decomposition.farApart_of_run hd.2⟩

theorem decompose_farApart (hbound : 2 * g.size ≤ LinkageRow.numberBound) (p : Parameters Rat) :
    ∃ d, decompose g p = .ok d ∧ d.FarApart :=
  (decompose_eq_ok p hbound).imp fun _ hd => ⟨hd, Decomposition.farApart_of_run (decompose_eq_ok_iff.1 hd).1⟩

/-- **Couplings are shares of one, so that every call graph is decomposed.** Two sets that share no class couple at most one
over the number of pairs across them, and a set of two classes or more coheres at most one over the number of pairs inside it.
A report is always returned, by every layout that accepts what is to be laid out, and by the one in use as long as numbers of
clusters fit into 64 bits. -/
theorem decompose_returns (g : CallGraph) :
    (g.normalizedCoupling : CouplingMap Rat).Normalized g.names g.totalRelations ∧
      (∀ s t : NameSet, s.Apart t → (∀ x ∈ s, x ∈ g.names) → (∀ x ∈ t, x ∈ g.names) →
        (g.normalizedCoupling : CouplingMap Rat).between s t ≤ 1 / (2 * s.size * t.size)) ∧
      (∀ s : NameSet, (∀ x ∈ s, x ∈ g.names) → 2 ≤ s.size →
        (g.normalizedCoupling : CouplingMap Rat).cohesion s ≤ 1 / (s.size * (s.size - 1))) ∧
      (∀ layout : Layout Rat, layout.Accepts → ∀ p, ∃ d, decomposeBy layout g p = .ok d ∧ d.FarApart) ∧
      (2 * g.size ≤ LinkageRow.numberBound → ∀ p : Parameters Rat, ∃ d, decompose g p = .ok d ∧ d.FarApart) :=
  ⟨g.normalized_normalizedCoupling, fun _ _ => CallGraph.between_normalizedCoupling_le,
    fun _ => CallGraph.cohesion_normalizedCoupling_le, fun _ => decomposeBy_farApart, decompose_farApart⟩

/-- Three classes with two relations, decomposed by the layout that goes from left to right. -/
theorem three_classes_decomposed :
    let g := CallGraph.ofFacts [.call "A" "m", .method "B" "m", .call "B" "k", .method "C" "k"]
    (g.normalizedCoupling : CouplingMap Rat).Normalized ["A", "B", "C"] 2 ∧
      (g.normalizedCoupling : CouplingMap Rat).between (.ofList ["A", "C"]) (.singleton "B") ≤ 1 / (2 * 2 * 1) ∧
      (g.normalizedCoupling : CouplingMap Rat).cohesion (.ofList ["A", "B"]) ≤ 1 / (2 * (2 - 1)) ∧
      (∃ d, decomposeBy (fun rows => .ok (LinkageRow.tree rows).leaves) g ⟨0, 1, 0, none⟩ = .ok d ∧ d.FarApart) ∧
      ∃ d : Decomposition Rat, decompose g ⟨0, 1, 0, none⟩ = .ok d ∧ d.FarApart := by
  intro g
  obtain ⟨hnormalized, hbetween, hcohesion, hby, hreturns⟩ := decompose_returns g
  have hac : ∀ x ∈ (NameSet.ofList ["A", "C"]).toList, x ∈ g.names := by decide
  have hb : ∀ x ∈ (NameSet.singleton "B").toList, x ∈ g.names := by decide
  have hapart : ∀ x ∈ (NameSet.ofList ["A", "C"]).toList, x ∉ NameSet.singleton "B" := by decide
  have hab : ∀ x ∈ (NameSet.ofList ["A", "B"]).toList, x ∈ g.names := by decide
  refine ⟨hnormalized, ?_, ?_, hby _ (fun _ _ _ _ => ⟨_, rfl⟩) _, hreturns (by decide) _⟩
  · exact hbetween _ _ hapart hac hb
  · exact hcohesion _ hab (by decide)

/-! ## Classes of a report -/

variable {α : Type}

namespace Report

/-- The clusters of a report are a partition of some classes, of which there are as many as the report counts. -/
structure SharesOut (r : Report α) (names : List String) : Prop where
  once : ∀ x ∈ names, r.clusters.countP (fun k => decide (x ∈ k.classes)) = 1
  known : ∀ k ∈ r.clusters, ∀ x ∈ k.classes, x ∈ names
  distinct : ∀ k ∈ r.clusters, k.classes.Nodup
  total : (r.clusters.map ClusterSummary.size).sum = r.classCount

variable [Scalar α] [Rounding α] {c : Clustering α} {threshold : α} {maxSelected : Option Int}

/-- A class is in one cluster of the report if the coupling names it, and in none otherwise. -/
theorem Tells.countP_clusters {r : Report α} (h : r.Tells g c threshold maxSelected)
    (hf : Clustering.Forest g.normalizedCoupling c) (x : String) :
    r.clusters.countP (fun k => decide (x ∈ k.classes)) =
      if x ∈ (g.normalizedCoupling : CouplingMap α).classes then 1 else 0 := by
  rw [h.clusters_eq, Clustering.summaries, List.countP_map]
  exact hf.countP_clusters x

theorem Tells.sharesOut_iff {r : Report α} (h : r.Tells g c threshold maxSelected)
    (hf : Clustering.Forest g.normalizedCoupling c) : r.SharesOut g.names ↔ g.size ≠ 1 := by
  constructor
  · intro hs hone
    obtain ⟨x, hx⟩ := List.length_eq_one_iff.1 ((g.length_names).trans hone)
    have honce := hs.once x (hx ▸ List.mem_singleton_self x)
    rw [h.countP_clusters hf, g.classes_normalizedCoupling_eq_nil hone, if_neg List.not_mem_nil] at honce
    exact Nat.zero_ne_one honce
  · intro hsize
    have hperm := g.classes_normalizedCoupling_perm (α := α) hsize
    have hall := hf.shared.trans hperm
    refine ⟨fun x hx => ?_, fun k hk x hx => ?_, fun k hk => ?_, ?_⟩
    · rw [h.countP_clusters hf, if_pos (hperm.mem_iff.2 hx)]
    · rw [h.clusters_eq] at hk
      obtain ⟨l, hl, rfl⟩ := List.mem_map.1 hk
      exact hall.subset (List.mem_flatMap.2 ⟨l, hl, hx⟩)
    · rw [h.clusters_eq] at hk
      obtain ⟨l, -, rfl⟩ := List.mem_map.1 hk
      exact l.members.nodup
    · have hsizes : c.clusters.map (ClusterSummary.size ∘ c.summary) = c.clusters.map fun k => k.names.length := rfl
      rw [h.clusters_eq, h.classCount_eq, Clustering.summaries, List.map_map, hsizes, ← List.length_flatMap,
        hall.length_eq, g.length_names]

end Report

/-- **The clusters of a report share out the classes, unless there is only one.** For rational numbers a report is
returned, as long as numbers of clusters fit into 64 bits. -/
theorem decompose_sharesOut (g : CallGraph) :
    (2 * g.size ≤ LinkageRow.numberBound → ∀ p : Parameters Rat, ∃ d, decompose g p = .ok d) ∧
      ∀ {α : Type} [Scalar α] [Rounding α] (p : Parameters α) (d : Decomposition α), decompose g p = .ok d →
        (d.report.SharesOut g.names ↔ g.size ≠ 1) := by
  refine ⟨fun hbound p => decompose_eq_ok p hbound, fun p d h => ?_⟩
  obtain ⟨hrun, hreport⟩ := decompose_eq_ok_iff.1 h
  refine (Report.tells_of hreport).sharesOut_iff ?_
  rw [hrun]
  exact Clustering.forest_run _ _

theorem two_classes_shared_out :
    ∃ d : Decomposition Rat, decompose (.ofFacts [.call "A" "m", .method "B" "m"]) ⟨0, 1, 0, none⟩ = .ok d ∧
      d.report.SharesOut ["A", "B"] := by
  have h := decompose_sharesOut (.ofFacts [.call "A" "m", .method "B" "m"])
  obtain ⟨d, hd⟩ := h.1 (by decide) ⟨0, 1, 0, none⟩
  exact ⟨d, hd, (h.2 _ d hd).2 (by decide)⟩

/-- The only class of a call graph is in no cluster. -/
theorem only_class_lost :
    ∃ d : Decomposition Rat, decompose (.ofFacts [.mention "A"]) ⟨0, 1, 0, none⟩ = .ok d ∧
      "A" ∈ (CallGraph.ofFacts [.mention "A"]).names ∧ ¬ d.report.SharesOut ["A"] := by
  refine ⟨⟨⟨⟨.empty, [], [], []⟩, []⟩, ⟨1, 0, [], [], [], [], [], [], []⟩⟩, by rfl, by decide, fun h => ?_⟩
  exact Nat.zero_ne_one (h.once "A" (List.mem_singleton_self _))

end CouplingTree
