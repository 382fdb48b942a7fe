import CouplingTree.Proofs.Digraph
import CouplingTree.Proofs.RelationMatrix
import CouplingTree.Proofs.Report.Basic
import CouplingTree.Proofs.Report.RowOrder

/-!
# All views of the relations agree

The relations of a call graph are shown by its relation matrix, its coupling, the graph of the coupling and the rows of a
report. With rational numbers a pair of classes stands in all of them or in none.

* `CallGraph.Views` : the matrix, the coupling and its graph show the same pairs, and the same numbers.
* `Report.ListsRelations` : the rows of a report list these pairs, once and in order.
* `decompose_views` : both hold of every call graph and of every report on it.
-/

namespace CouplingTree

namespace CallGraph

/-- The first class calls a name that the second, another one, declares. -/
def Relates (g : CallGraph) (a b : String) : Prop := a ≠ b ∧ ∃ name ∈ g.called a, name ∈ g.declared b

/-- The relation matrix, the coupling and its graph show which classes are related, and how much. -/
structure Views (g : CallGraph) : Prop where
  matrix : ∀ a ∈ g.names, ∀ b ∈ g.names, (∃ n, g.relationMatrix.count? (a, b) = some n) ↔ g.Relates a b
  coupling : ∀ a ∈ g.names, ∀ b ∈ g.names,
    (∃ v : Rat, g.normalizedCoupling.find? (a, b) = some v ∧ 0 < v) ↔ g.Relates a b
  edge : ∀ a ∈ g.names, ∀ b ∈ g.names, (g.normalizedCoupling : CouplingMap Rat).digraph.HasEdge a b ↔ g.Relates a b
  entry_eq : ∀ a b n, ∀ v : Rat, g.relationMatrix.count? (a, b) = some n → g.normalizedCoupling.find? (a, b) = some v →
    (n : Rat) = v * (g.totalRelations : Rat)
  sum_eq : (g.relationMatrix.cells.map fun cell => cell.2.2).sum = (g.totalRelations : Int)

variable (g : CallGraph) {a b : String}

theorem relates_iff (ha : a ∈ g.names) (hb : b ∈ g.names) :
    g.Relates a b ↔ (a, b) ∈ g.pairs ∧ 0 < g.relationCount a b := by
  rw [Relates, mem_pairs, relationCount_pos_iff]
  exact and_congr_left fun _ => ⟨fun hne => ⟨ha, hb, hne⟩, fun h => h.2.2⟩

theorem exists_positive_iff :
    (∃ v : Rat, g.normalizedCoupling.find? (a, b) = some v ∧ 0 < v) ↔ (a, b) ∈ g.pairs ∧ 0 < g.relationCount a b := by
  constructor
  · rintro ⟨v, hv, hpos⟩
    obtain ⟨hp, rfl⟩ := g.find?_normalizedCoupling_eq_some_iff.1 hv
    exact ⟨hp, (g.share_pos_iff hp).1 hpos⟩
  · rintro ⟨hp, hpos⟩
    exact ⟨g.share (a, b), g.find?_normalizedCoupling_eq_some_iff.2 ⟨hp, rfl⟩, (g.share_pos_iff hp).2 hpos⟩

theorem views : g.Views where
  matrix a ha b hb := by
    rw [g.relates_iff ha hb]
    constructor
    · rintro ⟨n, hn⟩
      exact (g.count?_relationMatrix.1 hn).1
    · exact fun h => ⟨_, g.count?_relationMatrix.2 ⟨h, rfl⟩⟩
  coupling a ha b hb := g.exists_positive_iff.trans (g.relates_iff ha hb).symm
  edge a ha b hb := by
    rw [g.relates_iff ha hb, ← exists_positive_iff, Digraph.HasEdge]
    exact exists_congr fun v => CouplingMap.mem_edges_digraph _
  entry_eq a b n v hn hv := by
    obtain ⟨⟨hp, -⟩, rfl⟩ := g.count?_relationMatrix.1 hn
    obtain ⟨-, rfl⟩ := g.find?_normalizedCoupling_eq_some_iff.1 hv
    exact (g.share_mul_totalRelations hp).symm
  sum_eq := g.sum_cells_relationMatrix

end CallGraph

namespace Report

/-- The rows of a report are those of the related pairs of classes. They are ordered by their values before these are rounded. -/
structure ListsRelations (r : Report Rat) (g : CallGraph) : Prop where
  row : ∀ a ∈ g.names, ∀ b ∈ g.names, (∃ row ∈ r.coupling, row.caller = a ∧ row.callee = b) ↔ g.Relates a b
  once : (r.coupling.map fun row => (row.caller, row.callee)).Nodup
  total_eq : r.totalRelations = g.totalRelations
  ordered : ∃ rows : List (CouplingRow Rat), r.coupling = rows.map CouplingRow.round ∧
    (∀ row ∈ rows, g.normalizedCoupling.find? (row.caller, row.callee) = some row.value) ∧
    rows.Pairwise CouplingRow.Precedes
  falling : r.coupling.Pairwise fun row later => later.value ≤ row.value

variable {g : CallGraph} {c : Clustering Rat} {threshold : Rat} {maxSelected : Option Int}

theorem Tells.listsRelations {r : Report Rat} (h : r.Tells g c threshold maxSelected) (hc : c.coupling = g.normalizedCoupling) :
    r.ListsRelations g := by
  have hrows := h.coupling_eq
  rw [hc] at hrows
  have hmem := fun row => (g.normalizedCoupling : CouplingMap Rat).mem_positiveRows (r := row)
  have hordered := (g.normalizedCoupling : CouplingMap Rat).pairwise_positiveRows
  refine ⟨fun a ha b hb => ?_, ?_, h.totalRelations_eq, ⟨_, hrows, fun row hrow => ((hmem row).1 hrow).1, hordered⟩, ?_⟩
  · rw [g.relates_iff ha hb, ← g.exists_positive_iff, hrows]
    constructor
    · rintro ⟨_, hround, rfl, rfl⟩
      obtain ⟨row, hrow, rfl⟩ := List.mem_map.1 hround
      exact ⟨row.value, (hmem row).1 hrow⟩
    · rintro ⟨v, hv⟩
      exact ⟨_, List.mem_map_of_mem ((hmem ⟨a, b, v⟩).2 hv), rfl, rfl⟩
  · rw [hrows, List.map_map]
    exact CouplingMap.nodup_pairs_positiveRows _
  · rw [hrows, List.pairwise_map]
    refine (List.Pairwise.and_mem.1 hordered).imp fun {row later} h => ?_
    obtain ⟨-, hlater, hprecedes⟩ := h
    exact Rat.toPlaces_mono ((hmem later).1 hlater).2.le (hprecedes.elim le_of_lt fun h => h.1.ge) reportPlaces

end Report

/-- **All views of the relations agree.** With rational numbers the relation matrix, the coupling, its graph and the rows of
every report show the same pairs of classes. A report is returned, as long as numbers of clusters fit into 64 bits. -/
theorem decompose_views (g : CallGraph) :
    g.Views ∧ (2 * g.size ≤ LinkageRow.numberBound → ∀ p : Parameters Rat, ∃ d, decompose g p = .ok d) ∧
      ∀ (p : Parameters Rat) (d : Decomposition Rat), decompose g p = .ok d → d.report.ListsRelations g := by
  refine ⟨g.views, fun hbound p => decompose_eq_ok p hbound, fun p d h => ?_⟩
  exact (tells_of_decompose h).listsRelations (Clustering.forest_run _ _).coupling_eq

/-- Three classes with four, one and one relations in a circle: the rows of the latter two are ordered by their callers. -/
theorem circle_viewed :
    let g := CallGraph.ofFacts [.call "A" "k", .call "A" "l", .call "A" "m", .call "A" "n", .method "B" "k", .method "B" "l",
      .method "B" "m", .method "B" "n", .call "B" "o", .method "C" "o", .call "C" "p", .method "A" "p"]
    (g.normalizedCoupling : CouplingMap Rat).digraph.HasEdge "A" "B" ∧
      ∃ d : Decomposition Rat, decompose g ⟨0, 1, 0, none⟩ = .ok d ∧
        d.report.coupling.map (fun row => (row.caller, row.callee, row.value)) =
          [("A", "B", 6667 / 10000), ("B", "C", 1667 / 10000), ("C", "A", 1667 / 10000)] ∧
        ∃ row ∈ d.report.coupling, row.caller = "A" ∧ row.callee = "B" := by
  intro g
  obtain ⟨hviews, hreturns, hlists⟩ := decompose_views g
  obtain ⟨d, hd⟩ := hreturns (by decide) ⟨0, 1, 0, none⟩
  have hrelates : g.Relates "A" "B" := ⟨by decide, "k", by decide, by decide⟩
  refine ⟨(hviews.edge "A" (by decide) "B" (by decide)).2 hrelates, d, hd, ?_,
    ((hlists _ d hd).row "A" (by decide) "B" (by decide)).2 hrelates⟩
  rw [(tells_of_decompose hd).coupling_eq, (Clustering.forest_run _ _).coupling_eq]
  decide +kernel

end CouplingTree
