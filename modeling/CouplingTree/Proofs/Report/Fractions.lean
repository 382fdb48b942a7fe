import CouplingTree.Proofs.Numbers.Finite
import CouplingTree.Proofs.Report.Basic
import CouplingTree.Proofs.Report.RowOrder

/-!
# Decompositions with doubles

With doubles every call graph that can be counted is decomposed, too, and all numbers of its report are doubles from zero
to one, so that they are finite.

* `CallGraph.Countable` : numbers of clusters fit into 64 bits, and the number of relations into a double.
* `CallGraph.fractions_normalizedCoupling` : the shares of such a call graph are from zero to one.
* `Clustering.fractions_run` : so are the couplings of all merges.
* `CallGraph.decompose_fractions` : hence there is a report, and its numbers are of this kind.
-/

namespace CouplingTree

open Doubles

/-- Numbers of clusters fit into 64 bits, and the number of relations into a double. -/
structure CallGraph.Countable (g : CallGraph) : Prop where
  clusters : 2 * g.size ≤ LinkageRow.numberBound
  relations : g.totalRelations < countBound

/-- All numbers of a report are from zero to one. -/
structure Report.Fractions (r : Report Float) : Prop where
  coupling : ∀ row ∈ r.coupling, IsFraction row.value
  instability : ∀ c ∈ r.classCoupling, ∀ q ∈ c.2.instability, IsFraction q
  clusters : ∀ k ∈ r.clusters, IsFraction k.mergeCoupling ∧ IsFraction k.cohesion
  history : ∀ m ∈ r.history, IsFraction m.coupling

/-! ## Couplings -/

/-- All values are doubles from zero to one. -/
def CouplingMap.Fractions (coupling : CouplingMap Float) : Prop := ∀ p v, coupling.find? p = some v → IsFraction v

namespace CouplingMap

variable {coupling : CouplingMap Float}

theorem Fractions.mean (h : coupling.Fractions) (ps : List (String × String)) :
    IsFraction (CouplingTree.mean (ps.filterMap coupling.find?)) := by
  refine isFraction_mean fun v hv => ?_
  obtain ⟨p, -, hp⟩ := List.mem_filterMap.1 hv
  exact h p v hp

theorem Fractions.cohesion (h : coupling.Fractions) (s : NameSet) : IsFraction (coupling.cohesion s) := by
  unfold CouplingMap.cohesion
  split
  · exact isFraction_one
  · exact h.mean _

end CouplingMap

theorem CallGraph.Countable.finite {g : CallGraph} (h : g.Countable) {n : Nat} (hn : n ≤ g.totalRelations) :
    bits (n : Float) < Binary64.infinityBits := bits_natCast_lt (hn.trans h.relations.le)

theorem CallGraph.fractions_normalizedCoupling {g : CallGraph} (h : g.Countable) :
    (g.normalizedCoupling : CouplingMap Float).Fractions := by
  intro p v hv
  obtain ⟨hp, rfl⟩ := g.find?_normalizedCoupling_eq_some_iff.1 hv
  have hle := g.relationCount_le_totalRelations hp
  unfold share
  split
  · next hpos => exact isFraction_share hpos hle (h.finite hle)
  · exact isFraction_zero

/-! ## Merges -/

namespace Clustering

/-- All couplings that merges have found are from zero to one. -/
structure Fractions (coupling : CouplingMap Float) (c : Clustering Float) : Prop where
  coupling_eq : c.coupling = coupling
  arena : ∀ k ∈ c.arena, IsFraction k.mergeCoupling
  history : ∀ m ∈ c.history, IsFraction m.coupling

variable {coupling : CouplingMap Float}

theorem fractions_run (rule : StopRule Float) (h : coupling.Fractions) : (run rule coupling).clustering.Fractions coupling := by
  refine run_induction ⟨rfl, ?_, ?_⟩ fun c m hc hm => ?_
  · intro k hk
    obtain ⟨i, cls, -, rfl⟩ := mem_leaves.1 hk
    exact isFraction_zero
  · exact fun m hm => absurd hm List.not_mem_nil
  · have hvalue : IsFraction m.coupling := hm.coupling_eq ▸ h.mean _
    have hresult : IsFraction m.result.mergeCoupling := by
      rw [hm.result_eq]
      exact hvalue
    refine ⟨hc.coupling_eq, ?_, ?_⟩
    · rw [apply_arena]
      exact List.forall_mem_append.2 ⟨hc.arena, List.forall_mem_singleton.2 hresult⟩
    · rw [apply_history]
      exact List.forall_mem_append.2 ⟨hc.history, List.forall_mem_singleton.2 hvalue⟩

end Clustering

/-! ## Reports -/

namespace CallGraph

variable {g : CallGraph}

theorem noNegativeDistance_fractions (h : g.Countable) (rule : StopRule Float) : g.NoNegativeDistance rule := by
  intro rows hrows
  rw [(Clustering.linkage_eq_ok_iff.1 hrows).2.2]
  exact List.forall_mem_map.2 fun m hm =>
    not_one_sub_lt_zero ((Clustering.fractions_run rule (fractions_normalizedCoupling h)).history m hm)

theorem classCoupling_fractions (g : CallGraph) :
    ∃ accounts : List (String × ClassCoupling Float),
      g.relationMatrix.classCoupling = .ok accounts ∧ ∀ c ∈ accounts, ∀ q ∈ c.2.instability, IsFraction q :=
  RelationMatrix.classCoupling_eq_ok_of g.cells_relationMatrix_nonneg fun _ _ hn hle hd =>
    (ratio?_isFraction hn hle hd).imp fun _ hq => ⟨hq.1, isFraction_toPlaces hq.2 3⟩

theorem fractions_of_tells {r : Report Float} {rule : StopRule Float} {threshold : Float} {maxSelected : Option Int}
    (h : g.Countable) (hr : r.Tells g (Clustering.run rule g.normalizedCoupling).clustering threshold maxSelected) :
    r.Fractions := by
  have hvalues := fractions_normalizedCoupling h
  have hrun := Clustering.fractions_run rule hvalues
  have hplaces : ∀ {x : Float}, IsFraction x → IsFraction (Rounding.toPlaces reportPlaces x) :=
    fun hx => isFraction_toPlaces hx reportPlaces
  refine ⟨?_, ?_, ?_, ?_⟩
  · rw [hr.coupling_eq, hrun.coupling_eq]
    exact List.forall_mem_map.2 fun row hrow => hplaces (hvalues _ _ ((CouplingMap.mem_positiveRows _).1 hrow).1)
  · obtain ⟨accounts, haccounts, hfractions⟩ := g.classCoupling_fractions
    cases haccounts.symm.trans hr.classCoupling_eq
    exact hfractions
  · rw [hr.clusters_eq]
    refine List.forall_mem_map.2 fun k hk => ⟨hplaces ?_, hplaces ?_⟩
    · obtain ⟨id, -, hid⟩ := List.mem_filterMap.1 hk
      exact hrun.arena k (List.mem_of_getElem? hid)
    · unfold Clustering.cohesion
      rw [hrun.coupling_eq]
      exact hvalues.cohesion _
  · rw [hr.history_eq]
    intro entry hentry
    obtain ⟨i, hi, rfl⟩ := List.mem_mapIdx.1 hentry
    exact hplaces (hrun.history _ (List.getElem_mem hi))

/-- **Every call graph that can be counted is decomposed with doubles.** -/
theorem decompose_fractions (h : g.Countable) (p : Parameters Float) :
    ∃ d, decompose g p = .ok d ∧ d.report.Fractions := by
  obtain ⟨d, hd⟩ := decompose_eq_ok_of p h.clusters
    (fun _ _ hn hle hd => (ratio?_isFraction hn hle hd).imp fun _ hq => hq.1) (noNegativeDistance_fractions h _)
  exact ⟨d, hd, fractions_of_tells h (tells_of_decompose hd)⟩

end CallGraph

end CouplingTree
