import CouplingTree.Proofs.Facts
import CouplingTree.Proofs.RelationMatrix
import CouplingTree.Proofs.Report.Fractions
import CouplingTree.Proofs.Relations

/-!
# The order of facts does not matter to the relations

Call graphs that hold the same facts have the same relations, in whatever order their classes stand.

* `CallGraph.Agrees.pairs_perm` : the pairs of classes are the same, up to their order.
* `CallGraph.Agrees.count?_relationMatrix_eq`, `CallGraph.Agrees.mem_keys_relationMatrix_iff` : so the relation matrices are
  the same as maps.
* `CallGraph.Agrees.find?_normalizedCoupling_eq`, `CallGraph.Agrees.entries_normalizedCoupling_perm` : and the couplings.
* `CallGraph.Agrees.classCoupling_eq` : the accounts of the classes are the same, also in their order.
* `CallGraph.SameRelations` : what call graphs have in common that hold the same facts.
* `Report.SameOverview` : what the reports on them have in common, whatever they were decomposed with.
* `decompose_regrouped` : facts in another order, or some of them more than once, make such call graphs and such reports.
-/

namespace CouplingTree

namespace CallGraph.Agrees

variable {g h : CallGraph}

theorem declared_eq (hgh : g.Agrees h) (c : String) : g.declared c = h.declared c := by
  rw [declared, declared, hgh.facts_eq]

theorem called_eq (hgh : g.Agrees h) (c : String) : g.called c = h.called c := by
  rw [called, called, hgh.facts_eq]

theorem size_eq (hgh : g.Agrees h) : g.size = h.size := by
  rw [← length_names, ← length_names, hgh.names_perm.length_eq]

/-! ## Relations -/

theorem relationCount_eq (hgh : g.Agrees h) (a b : String) : g.relationCount a b = h.relationCount a b := by
  rw [relationCount, relationCount, hgh.called_eq, hgh.declared_eq]

theorem pairs_perm (hgh : g.Agrees h) : g.pairs.Perm h.pairs := Lookup.distinctPairs_perm hgh.names_perm hgh.names_perm

theorem totalRelations_eq (hgh : g.Agrees h) : g.totalRelations = h.totalRelations := by
  rw [g.totalRelations_eq, h.totalRelations_eq, (hgh.pairs_perm.map _).sum_eq]
  exact congrArg List.sum (List.map_congr_left fun p _ => hgh.relationCount_eq p.1 p.2)

/-! ## The matrix -/

theorem count?_relationMatrix_eq (hgh : g.Agrees h) (p : String × String) :
    g.relationMatrix.count? p = h.relationMatrix.count? p := by
  obtain ⟨a, b⟩ := p
  refine Option.ext fun n => ?_
  rw [count?_relationMatrix, count?_relationMatrix, hgh.pairs_perm.mem_iff, hgh.relationCount_eq]

theorem cells_relationMatrix_perm (hgh : g.Agrees h) : g.relationMatrix.cells.Perm h.relationMatrix.cells := by
  rw [cells_relationMatrix, cells_relationMatrix]
  simp only [hgh.relationCount_eq]
  exact (hgh.pairs_perm.filter _).map _

theorem mem_keys_relationMatrix_iff (hgh : g.Agrees h) (a : String) :
    a ∈ g.relationMatrix.keys ↔ a ∈ h.relationMatrix.keys := by
  rw [mem_keys_relationMatrix, mem_keys_relationMatrix]
  exact exists_congr fun cell => and_congr_left' hgh.cells_relationMatrix_perm.mem_iff

/-! ## Coupling -/

section Coupling

variable {α : Type} [Scalar α]

theorem share_eq (hgh : g.Agrees h) (p : String × String) : (g.share p : α) = h.share p := by
  rw [share, share, hgh.relationCount_eq, hgh.totalRelations_eq]

theorem find?_normalizedCoupling_eq (hgh : g.Agrees h) (p : String × String) :
    (g.normalizedCoupling : CouplingMap α).find? p = h.normalizedCoupling.find? p := by
  refine Option.ext fun v => ?_
  rw [find?_normalizedCoupling_eq_some_iff, find?_normalizedCoupling_eq_some_iff, hgh.pairs_perm.mem_iff, hgh.share_eq]

theorem entries_normalizedCoupling_perm (hgh : g.Agrees h) :
    (g.normalizedCoupling : CouplingMap α).entries.Perm h.normalizedCoupling.entries := by
  rw [entries_normalizedCoupling, entries_normalizedCoupling]
  simp only [hgh.share_eq]
  exact hgh.pairs_perm.map _

theorem classCoupling_eq [Rounding α] (hgh : g.Agrees h) :
    (g.relationMatrix.classCoupling : Except AccountError (List (String × ClassCoupling α))) = h.relationMatrix.classCoupling :=
  RelationMatrix.classCoupling_eq_of_perm hgh.cells_relationMatrix_perm

end Coupling

end CallGraph.Agrees

/-! ## Reports -/

/-- The same classes with the same names, and the same relations between them, as maps. -/
structure CallGraph.SameRelations (g h : CallGraph) : Prop where
  classes : g.names.Perm h.names
  declared : ∀ c, g.declared c = h.declared c
  called : ∀ c, g.called c = h.called c
  total : g.totalRelations = h.totalRelations
  rows : ∀ a, a ∈ g.relationMatrix.keys ↔ a ∈ h.relationMatrix.keys
  matrix : ∀ p, g.relationMatrix.count? p = h.relationMatrix.count? p
  coupling : ∀ {α : Type} [Scalar α] (p : String × String),
    (g.normalizedCoupling : CouplingMap α).find? p = h.normalizedCoupling.find? p

theorem CallGraph.Agrees.sameRelations {g h : CallGraph} (hgh : g.Agrees h) : g.SameRelations h where
  classes := hgh.names_perm
  declared := hgh.declared_eq
  called := hgh.called_eq
  total := hgh.totalRelations_eq
  rows := hgh.mem_keys_relationMatrix_iff
  matrix := hgh.count?_relationMatrix_eq
  coupling := hgh.find?_normalizedCoupling_eq

namespace Report

variable {α : Type}

/-- Reports with the same counts, the same rows of couplings and the same accounts, in the same order. -/
structure SameOverview (r s : Report α) : Prop where
  classCount : r.classCount = s.classCount
  totalRelations : r.totalRelations = s.totalRelations
  coupling : r.coupling = s.coupling
  classCoupling : r.classCoupling = s.classCoupling

variable [Scalar α] [LawfulScalar α] [Rounding α] {g h : CallGraph} {c c' : Clustering α} {threshold threshold' : α}
  {maxSelected maxSelected' : Option Int}

theorem Tells.sameOverview {r s : Report α} (hr : r.Tells g c threshold maxSelected)
    (hs : s.Tells h c' threshold' maxSelected') (hgh : g.Agrees h) (hc : c.coupling = g.normalizedCoupling)
    (hc' : c'.coupling = h.normalizedCoupling) : r.SameOverview s where
  classCount := by rw [hr.classCount_eq, hs.classCount_eq, hgh.size_eq]
  totalRelations := by rw [hr.totalRelations_eq, hs.totalRelations_eq, hgh.totalRelations_eq]
  coupling := by
    rw [hr.coupling_eq, hs.coupling_eq, hc, hc',
      CouplingMap.positiveRows_eq_of_perm hgh.entries_normalizedCoupling_perm]
  classCoupling := by
    have haccounts := hr.classCoupling_eq
    rw [hgh.classCoupling_eq, hs.classCoupling_eq] at haccounts
    exact (Except.ok.inj haccounts).symm

theorem sameOverview_of_decompose {p p' : Parameters α} {d d' : Decomposition α} (hgh : g.Agrees h)
    (hd : decompose g p = .ok d) (hd' : decompose h p' = .ok d') : d.report.SameOverview d'.report :=
  (tells_of_decompose hd).sameOverview (tells_of_decompose hd') hgh (Clustering.forest_run _ _).coupling_eq
    (Clustering.forest_run _ _).coupling_eq

end Report

theorem CallGraph.Agrees.countable {g h : CallGraph} (hgh : g.Agrees h) (hg : g.Countable) : h.Countable where
  clusters := hgh.size_eq ▸ hg.clusters
  relations := hgh.totalRelations_eq ▸ hg.relations

/-- **The order and the grouping of facts do not matter to the relations.** Lists with the same facts, in whatever order and
however often each, make call graphs that differ in the order of their classes only, and all reports on them show the same
overview. With doubles there are such reports whenever the call graphs can be counted. -/
theorem decompose_regrouped {fs gs : List Fact} (h : ∀ f, f ∈ fs ↔ f ∈ gs) :
    (CallGraph.ofFacts fs).SameRelations (.ofFacts gs) ∧
      ((CallGraph.ofFacts fs).Countable → ∀ p p' : Parameters Float,
        ∃ d d', decompose (.ofFacts fs) p = .ok d ∧ decompose (.ofFacts gs) p' = .ok d' ∧ d.report.SameOverview d'.report) ∧
      ∀ {α : Type} [Scalar α] [LawfulScalar α] [Rounding α] (p p' : Parameters α) (d d' : Decomposition α),
        decompose (.ofFacts fs) p = .ok d → decompose (.ofFacts gs) p' = .ok d' → d.report.SameOverview d'.report := by
  have hgh := CallGraph.agrees_ofFacts h
  refine ⟨hgh.sameRelations, fun hcountable p p' => ?_, fun p p' d d' => Report.sameOverview_of_decompose hgh⟩
  obtain ⟨d, hd, -⟩ := CallGraph.decompose_fractions hcountable p
  obtain ⟨d', hd', -⟩ := CallGraph.decompose_fractions (hgh.countable hcountable) p'
  exact ⟨d, d', hd, hd', Report.sameOverview_of_decompose hgh hd hd'⟩

/-- Three facts, and the same facts from the last to the first with one of them twice. -/
theorem three_facts_regrouped :
    let fs : List Fact := [.method "B" "m", .call "A" "m", .mention "C"]
    let gs : List Fact := [.mention "C", .call "A" "m", .method "B" "m", .call "A" "m"]
    (CallGraph.ofFacts fs).names = ["B", "A", "C"] ∧ (CallGraph.ofFacts gs).names = ["C", "A", "B"] ∧
      (CallGraph.ofFacts fs).totalRelations = 1 ∧ (CallGraph.ofFacts fs).SameRelations (.ofFacts gs) ∧
      ∃ d d', decompose (.ofFacts fs) ⟨0, 1, 0, none⟩ = .ok d ∧ decompose (.ofFacts gs) ⟨1, 2, 1, some 1⟩ = .ok d' ∧
        (d.report : Report Float).SameOverview d'.report := by
  intro fs gs
  have hleft : ∀ f ∈ fs, f ∈ gs := by decide
  have hright : ∀ f ∈ gs, f ∈ fs := by decide
  obtain ⟨hrelations, hreports, -⟩ := decompose_regrouped fun f => ⟨hleft f, hright f⟩
  have htotal : (CallGraph.ofFacts fs).totalRelations = 1 := by decide
  have hcountable : (CallGraph.ofFacts fs).Countable := ⟨by decide, by rw [htotal]; decide +kernel⟩
  exact ⟨by decide, by decide, htotal, hrelations, hreports hcountable _ _⟩

end CouplingTree
