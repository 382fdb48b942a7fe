import CouplingTree.Proofs.Clustering.Descent
import CouplingTree.Proofs.Clustering.Groups
import CouplingTree.Proofs.Report.Renaming
import CouplingTree.Proofs.Relations

/-!
# Runs on another scale

With rational numbers it does not matter in which unit couplings are measured. If all values and the least coupling of a
merge are multiplied by the same positive number, a run makes the same steps, with all their couplings multiplied. So the
relations of a call graph can be counted, in place of taking shares of them.

* `Run.scale` : the same run, with its couplings multiplied; numbers, parts and member sets stay as they are.
* `Lookup.between_scale`, `foremost_mul_iff` : means are multiplied, and a multiplied list has the same foremost item.
* `next_scale`, `advance_scale` : hence each step is the same, and so are all of them.
* `CallGraph.relationCounts_eq` : counts are shares multiplied by the number of relations.
* `run_scaled` : runs over multiplied values and over counts.
-/

namespace CouplingTree

variable {c : Rat}

/-! ## Multiplied values -/

theorem mean_map_mul (c : Rat) (values : List Rat) : mean (values.map fun v => c * v) = c * mean values := by
  rw [mean_eq, mean_eq, List.sum_map_mul_left, List.length_map, List.map_id', mul_div_assoc]

/-- A positive factor keeps the order, and what is above zero. -/
theorem foremost_mul_iff {β : Type} {f : β → Rat} {l : List β} {p : β} (hc : 0 < c) :
    Foremost (fun q => c * f q) l p ↔ Foremost f l p := by
  constructor
  · rintro ⟨hpos, before, after, rfl, hbefore, hafter⟩
    refine ⟨(mul_pos_iff_of_pos_left hc).1 hpos, before, after, rfl, fun q hq hle => ?_, fun q hq hlt => ?_⟩
    · exact hbefore q hq (mul_le_mul_of_nonneg_left hle hc.le)
    · exact hafter q hq (mul_lt_mul_of_pos_left hlt hc)
  · rintro ⟨hpos, before, after, rfl, hbefore, hafter⟩
    refine ⟨mul_pos hc hpos, before, after, rfl, fun q hq hle => ?_, fun q hq hlt => ?_⟩
    · exact hbefore q hq (le_of_mul_le_mul_left hle hc)
    · exact hafter q hq (lt_of_mul_lt_mul_left hlt hc.le)

namespace Lookup

/-- The look-up of multiplied values. -/
def scale (c : Rat) (value? : Lookup Rat) : Lookup Rat := fun p => (value? p).map fun v => c * v

theorem between_scale (c : Rat) (value? : Lookup Rat) (s t : NameSet) :
    (value?.scale c).between s t = c * value?.between s t := by
  have hcross : (value?.scale c).cross s t = (value?.cross s t).map fun v => c * v := (List.map_filterMap ..).symm
  rw [between_eq, between_eq, hcross, mean_map_mul]

end Lookup

namespace CouplingMap

/-- The coupling map with all values multiplied. -/
def scale (c : Rat) (coupling : CouplingMap Rat) : CouplingMap Rat := coupling.mapValues fun v => c * v

variable (c) (coupling : CouplingMap Rat)

theorem keys_scale : (coupling.scale c).keys = coupling.keys := OrderedMap.keys_mapValues _ coupling

theorem classes_scale : (coupling.scale c).classes = coupling.classes := by
  rw [classes_eq, classes_eq, mentions, keys_scale, mentions]

theorem find?_scale : (coupling.scale c).find? = Lookup.scale c coupling.find? := by
  funext k
  exact coupling.find?_mapValues _ k

end CouplingMap

/-! ## Multiplied runs -/

def Cluster.scale (c : Rat) (k : Cluster Rat) : Cluster Rat := { k with mergeCoupling := c * k.mergeCoupling }

def Merge.scale (c : Rat) (m : Merge Rat) : Merge Rat := ⟨m.first.scale c, m.second.scale c, c * m.coupling, m.result.scale c⟩

def StopRule.scale (c : Rat) (rule : StopRule Rat) : StopRule Rat := { rule with minCoupling := c * rule.minCoupling }

def Event.scale (c : Rat) : Event Rat → Event Rat
  | merged m => merged (m.scale c)
  | stopped best minimum => stopped (c * best) (c * minimum)

/-- The clustering with all couplings multiplied; numbers, parts and member sets stay as they are. -/
def Clustering.scale (c : Rat) (k : Clustering Rat) : Clustering Rat where
  coupling := k.coupling.scale c
  arena := k.arena.map (Cluster.scale c)
  active := k.active
  history := k.history.map (Merge.scale c)

def Run.scale (c : Rat) (r : Run Rat) : Run Rat := ⟨r.clustering.scale c, r.events.map (Event.scale c)⟩

namespace Clustering

def Next.scale (c : Rat) : Next Rat → Next Rat
  | enough => enough
  | uncoupled => uncoupled
  | weak best => weak (c * best)
  | join m => join (m.scale c)

theorem clusters_scale (c : Rat) (k : Clustering Rat) : (k.scale c).clusters = k.clusters.map (Cluster.scale c) := by
  unfold clusters
  rw [List.map_filterMap]
  refine List.filterMap_congr fun i _ => ?_
  show (k.arena.map (Cluster.scale c))[i]? = _
  rw [List.getElem?_map]

theorem apply_scale (c : Rat) (k : Clustering Rat) (m : Merge Rat) : (k.apply m).scale c = (k.scale c).apply (m.scale c) := by
  unfold scale apply
  simp only [List.map_append, List.map_singleton]
  rfl

theorem mergeOf_scale (c : Rat) (k : Clustering Rat) (first second : Cluster Rat) (v : Rat) :
    (k.scale c).mergeOf (first.scale c) (second.scale c) (c * v) = (k.mergeOf first second v).scale c := by
  unfold mergeOf Merge.scale Cluster.scale scale
  simp only [List.length_map]

theorem mostCoupled?_scale (hc : 0 < c) (value? : Lookup Rat) (clusters : List (Cluster Rat)) :
    (value?.scale c).mostCoupled? (clusters.map (Cluster.scale c)) =
      (value?.mostCoupled? clusters).map (Prod.map (Cluster.scale c) (Cluster.scale c)) := by
  refine Lookup.mostCoupled?_map fun p => ?_
  have hvalue : (fun p => (value?.scale c).ofPair (Lookup.memberPair (p.map (Cluster.scale c) (Cluster.scale c)))) =
      fun p => c * value?.ofPair (Lookup.memberPair p) := funext fun p => value?.between_scale c _ _
  rw [hvalue]
  exact foremost_mul_iff hc

/-- The same clusters are joined, or the step stops for the same reason. -/
theorem next_scale (hc : 0 < c) (value? : Lookup Rat) (rule : StopRule Rat) (k : Clustering Rat) :
    (k.scale c).next (value?.scale c) (rule.scale c) = (k.next value? rule).scale c := by
  have hactive : (k.scale c).active = k.active := rfl
  have hmost : (rule.scale c).maxModules = rule.maxModules := rfl
  unfold next
  rw [clusters_scale, mostCoupled?_scale hc, hactive, hmost]
  split
  · rfl
  cases value?.mostCoupled? k.clusters with
  | none => rfl
  | some p =>
    have hvalue : (value?.scale c).between (p.1.scale c).members (p.2.scale c).members =
        c * value?.between p.1.members p.2.members := value?.between_scale c _ _
    have hweak : c * value?.between p.1.members p.2.members < (rule.scale c).minCoupling ↔
        value?.between p.1.members p.2.members < rule.minCoupling := mul_lt_mul_iff_right₀ hc
    simp only [Option.map_some, Prod.map, hvalue, hweak, mergeOf_scale]
    split <;> rfl

theorem advance_scale (hc : 0 < c) (value? : Lookup Rat) (rule : StopRule Rat) (fuel : Nat) (k : Clustering Rat) :
    advance (value?.scale c) (rule.scale c) fuel (k.scale c) = (advance value? rule fuel k).scale c := by
  induction fuel generalizing k with
  | zero => rfl
  | succ fuel ih =>
    rw [advance, advance, next_scale hc]
    cases k.next value? rule with
    | join m =>
      change (advance _ _ fuel ((k.scale c).apply (m.scale c))).after _ = _
      rw [← apply_scale, ih]
      rfl
    | _ => rfl

theorem initial_scale (c : Rat) (coupling : CouplingMap Rat) : initial (coupling.scale c) = (initial coupling).scale c := by
  have hleaves : leaves (coupling.scale c) = (leaves coupling).map (Cluster.scale c) := by
    refine List.ext_getElem? fun i => ?_
    rw [getElem?_leaves, CouplingMap.classes_scale, List.getElem?_map, getElem?_leaves, Option.map_map]
    refine congrArg (Option.map · _) (funext fun cls => ?_)
    rw [Function.comp_apply, Cluster.scale, Cluster.leaf, mul_zero]
  show Clustering.mk (coupling.scale c) (leaves (coupling.scale c)) (List.range (leaves (coupling.scale c)).length) [] = _
  rw [hleaves, List.length_map]
  rfl

theorem run_scale (hc : 0 < c) (rule : StopRule Rat) (coupling : CouplingMap Rat) :
    run (rule.scale c) (coupling.scale c) = (run rule coupling).scale c := by
  unfold run
  rw [CouplingMap.rows_find?, CouplingMap.rows_find?, CouplingMap.find?_scale, initial_scale]
  exact advance_scale hc _ rule _ _

end Clustering

/-! ## Counts of relations -/

namespace CallGraph

variable (g : CallGraph)

/-- The number of relations of each ordered pair of distinct classes. -/
def relationCounts : CouplingMap Rat where
  entries := g.pairs.map fun p => (p, ((g.relationCount p.1 p.2 : Nat) : Rat))
  nodup := by
    rw [List.map_map]
    exact g.nodup_pairs.map fun _ _ e => e

theorem relationCounts_eq : g.relationCounts = g.normalizedCoupling.scale ((g.totalRelations : Nat) : Rat) := by
  refine OrderedMap.ext_entries ?_
  change _ = (g.normalizedCoupling : CouplingMap Rat).entries.map _
  rw [entries_normalizedCoupling, List.map_map]
  refine List.map_congr_left fun p hp => ?_
  rw [Function.comp_apply, ← g.share_mul_totalRelations hp, mul_comm]

end CallGraph

namespace Clustering

/-- **The scale of the couplings does not matter.** A run over multiplied values, with the least coupling of a merge
multiplied likewise, is the run over the values as they were, with its couplings multiplied. So a run over the counts of
relations is the one over their shares, on the scale of the number of all relations. -/
theorem run_scaled (minimum : Rat) (most : Int) :
    (∀ (coupling : CouplingMap Rat) (c : Rat), 0 < c →
      run ⟨c * minimum, most⟩ (coupling.scale c) = (run ⟨minimum, most⟩ coupling).scale c) ∧
    ∀ g : CallGraph, 0 < g.totalRelations →
      run ⟨minimum * ((g.totalRelations : Nat) : Rat), most⟩ g.relationCounts =
        (run ⟨minimum, most⟩ g.normalizedCoupling).scale ((g.totalRelations : Nat) : Rat) := by
  have hscale : ∀ (coupling : CouplingMap Rat) (c : Rat), 0 < c →
      run ⟨c * minimum, most⟩ (coupling.scale c) = (run ⟨minimum, most⟩ coupling).scale c :=
    fun coupling c hc => run_scale hc ⟨minimum, most⟩ coupling
  refine ⟨hscale, fun g hg => ?_⟩
  rw [g.relationCounts_eq, mul_comm]
  exact hscale _ _ (Nat.cast_pos.2 hg)

/-- One class calls two methods of a second one and one of a third. The least coupling of a merge is just reached by the
second merge, on either scale. -/
theorem three_classes_scaled :
    let g := CallGraph.ofFacts
      [.call "Shop" "save", .call "Shop" "load", .method "Store" "save", .method "Store" "load", .method "Cache" "load"]
    (0 : Rat) < 4 ∧ run ⟨4 * (1 / 4), 1⟩ (chain.scale 4) = (run ⟨1 / 4, 1⟩ chain).scale 4 ∧
      0 < g.totalRelations ∧
      run ⟨1 / 12 * ((g.totalRelations : Nat) : Rat), 1⟩ g.relationCounts =
        (run ⟨1 / 12, 1⟩ g.normalizedCoupling).scale ((g.totalRelations : Nat) : Rat) ∧
      (run ⟨1 / 12, 1⟩ g.normalizedCoupling).clustering.history.map Merge.coupling = [(1 / 3 : Rat), 1 / 12] ∧
      (run ⟨1 / 12 * ((g.totalRelations : Nat) : Rat), 1⟩ g.relationCounts).clustering.history.map Merge.coupling =
        [(1 : Rat), 1 / 4] := by
  intro g
  have hfour : (0 : Rat) < 4 := by decide
  have htotal : 0 < g.totalRelations := by decide +kernel
  have hgraph := (run_scaled (1 / 12) 1).2 g htotal
  have hshares : (run ⟨1 / 12, 1⟩ g.normalizedCoupling).clustering.history.map Merge.coupling = [(1 / 3 : Rat), 1 / 12] := by
    decide +kernel
  have hcounts : (run ⟨1 / 12 * ((g.totalRelations : Nat) : Rat), 1⟩ g.relationCounts).clustering.history.map
      Merge.coupling = [1, 1 / 4] := by
    decide +kernel
  exact ⟨hfour, (run_scaled (1 / 4) 1).1 chain 4 hfour, htotal, hgraph, hshares, hcounts⟩

end Clustering

end CouplingTree
