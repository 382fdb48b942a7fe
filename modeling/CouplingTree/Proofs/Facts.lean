import CouplingTree.CallGraph
import CouplingTree.Proofs.Names

/-!
# What facts make of a call graph

* `CallGraph.names_ofFacts` : the classes stand in the order in which the facts first name them.
* `CallGraph.mem_declared_ofFacts`, `CallGraph.mem_called_ofFacts` : a class declares and calls what the facts say.
* `CallGraph.Agrees g h` : two call graphs hold the same, but for the order of the classes.
* `CallGraph.agrees_ofFacts` : this is so when they are made of the same facts, in whatever order and however often.
* `CallGraph.ext_names` : with the same order they are the same.
* `CallGraph.add_of_mem` : a fact that was told before changes nothing.
-/

namespace CouplingTree.CallGraph

variable {g h : CallGraph} {f : Fact} {c x : String}

/-! ## One more fact -/

theorem names_add (g : CallGraph) (f : Fact) :
    (g.add f).names = if f.cls ∈ g.names then g.names else g.names ++ [f.cls] := by
  cases f <;> exact g.names_update _ _

theorem facts_mention (g : CallGraph) (c d : String) : (g.add (.mention d)).facts c = g.facts c := by
  simp only [add, addClass, facts_update, id_eq]
  split
  · next h => rw [h]
  · rfl

theorem mem_declared_add : x ∈ (g.add f).declared c ↔ f = .method c x ∨ x ∈ g.declared c := by
  cases f with
  | mention d => simp [declared, facts_mention]
  | method d name =>
    by_cases hd : c = d
    · subst hd
      simp [add, addMethod, declared, facts_update, ClassFacts.declare, NameSet.mem_insert, eq_comm (a := x)]
    · simp [add, addMethod, declared, facts_update, hd, Ne.symm hd]
  | call d name =>
    by_cases hd : c = d
    · subst hd
      simp [add, addCall, declared, facts_update, ClassFacts.call]
    · simp [add, addCall, declared, facts_update, hd]

theorem mem_called_add : x ∈ (g.add f).called c ↔ f = .call c x ∨ x ∈ g.called c := by
  cases f with
  | mention d => simp [called, facts_mention]
  | method d name =>
    by_cases hd : c = d
    · subst hd
      simp [add, addMethod, called, facts_update, ClassFacts.declare]
    · simp [add, addMethod, called, facts_update, hd]
  | call d name =>
    by_cases hd : c = d
    · subst hd
      simp [add, addCall, called, facts_update, ClassFacts.call, NameSet.mem_insert, eq_comm (a := x)]
    · simp [add, addCall, called, facts_update, hd, Ne.symm hd]

/-! ## All facts -/

theorem addAll_append (g : CallGraph) (fs gs : List Fact) : g.addAll (fs ++ gs) = (g.addAll fs).addAll gs :=
  List.foldl_append

theorem names_addAll_of_mem : ∀ {fs : List Fact} {g : CallGraph}, (∀ f ∈ fs, f.cls ∈ g.names) →
    (g.addAll fs).names = g.names
  | [], _, _ => rfl
  | f :: fs, g, h => by
    obtain ⟨hf, hfs⟩ := List.forall_mem_cons.1 h
    have hadd : (g.add f).names = g.names := by rw [names_add, if_pos hf]
    rw [addAll, List.foldl_cons, ← addAll, names_addAll_of_mem (by rwa [hadd]), hadd]

theorem ofFacts_append (fs : List Fact) (f : Fact) : ofFacts (fs ++ [f]) = (ofFacts fs).add f := by
  rw [ofFacts, addAll, List.foldl_append]
  rfl

theorem names_ofFacts (fs : List Fact) : (ofFacts fs).names = (fs.map Fact.cls).eraseDups := by
  induction fs using List.reverseRecOn with
  | nil => rfl
  | append_singleton fs f ih =>
    rw [ofFacts_append, names_add, ih, List.map_append, List.map_singleton, eraseDups_append_singleton]
    exact if_congr List.mem_eraseDups rfl rfl

theorem mem_declared_ofFacts {fs : List Fact} : x ∈ (ofFacts fs).declared c ↔ .method c x ∈ fs := by
  induction fs using List.reverseRecOn with
  | nil => exact iff_of_false (NameSet.not_mem_empty x) List.not_mem_nil
  | append_singleton fs f ih =>
    rw [ofFacts_append, mem_declared_add, ih, List.mem_append, List.mem_singleton, or_comm, eq_comm (a := f)]

theorem mem_called_ofFacts {fs : List Fact} : x ∈ (ofFacts fs).called c ↔ .call c x ∈ fs := by
  induction fs using List.reverseRecOn with
  | nil => exact iff_of_false (NameSet.not_mem_empty x) List.not_mem_nil
  | append_singleton fs f ih =>
    rw [ofFacts_append, mem_called_add, ih, List.mem_append, List.mem_singleton, or_comm, eq_comm (a := f)]

/-! ## Call graphs that agree -/

theorem facts_ext (hdeclared : ∀ x, x ∈ g.declared c ↔ x ∈ h.declared c) (hcalled : ∀ x, x ∈ g.called c ↔ x ∈ h.called c) :
    g.facts c = h.facts c := by
  have hd : (g.facts c).declares = (h.facts c).declares := NameSet.ext_mem hdeclared
  have hc : (g.facts c).calls = (h.facts c).calls := NameSet.ext_mem hcalled
  cases hg : g.facts c
  cases hh : h.facts c
  rw [hg, hh] at hd hc
  rw [ClassFacts.mk.injEq]
  exact ⟨hd, hc⟩

/-- The same classes, which declare and call the same names. The order of the classes may differ. -/
structure Agrees (g h : CallGraph) : Prop where
  names_perm : g.names.Perm h.names
  facts_eq : ∀ c, g.facts c = h.facts c

theorem agrees_ofFacts {fs gs : List Fact} (hmem : ∀ f, f ∈ fs ↔ f ∈ gs) : (ofFacts fs).Agrees (ofFacts gs) where
  names_perm := by
    have hn : ∀ fs, (ofFacts fs).names.Nodup := fun fs => (ofFacts fs).classes.nodup
    rw [List.perm_ext_iff_of_nodup (hn fs) (hn gs)]
    intro c
    rw [names_ofFacts, names_ofFacts, List.mem_eraseDups, List.mem_eraseDups, List.mem_map, List.mem_map]
    exact exists_congr fun f => and_congr_left' (hmem f)
  facts_eq c := by
    refine facts_ext (fun x => ?_) fun x => ?_
    · rw [mem_declared_ofFacts, mem_declared_ofFacts, hmem]
    · rw [mem_called_ofFacts, mem_called_ofFacts, hmem]

theorem facts_of_not_mem (h : c ∉ g.names) : g.facts c = .none := by
  rw [facts, OrderedMap.find?, Entries.find?_eq_none_iff.2 h]
  rfl

theorem mem_names_of_mem_declared {name : String} (h : name ∈ g.declared c) : c ∈ g.names := by
  by_contra hc
  rw [declared, facts_of_not_mem hc] at h
  exact NameSet.not_mem_empty _ h

theorem mem_names_of_mem_called {name : String} (h : name ∈ g.called c) : c ∈ g.names := by
  by_contra hc
  rw [called, facts_of_not_mem hc] at h
  exact NameSet.not_mem_empty _ h

/-- A call graph is made up of the order of its classes and their facts. -/
theorem describe_eq (g : CallGraph) : g.describe = g.names.map fun c => (c, g.facts c) := by
  have hvalue : ∀ e ∈ g.classes.entries, e = (e.1, g.facts e.1) := fun e he => by
    rw [facts, (g.classes.find?_eq_some_iff e.1 e.2).2 he]
    rfl
  rw [describe, names, OrderedMap.keys, List.map_map]
  exact (List.map_id _).symm.trans (List.map_congr_left hvalue)

theorem ext_names (hnames : g.names = h.names) (hfacts : ∀ c, g.facts c = h.facts c) : g.describe = h.describe := by
  rw [describe_eq, describe_eq, hnames]
  exact List.map_congr_left fun c _ => by rw [hfacts c]

theorem ext_describe (h' : g.describe = h.describe) : g = h := congrArg mk (OrderedMap.ext_entries h')

/-- What was told before changes nothing. -/
theorem add_of_mem {fs : List Fact} (hf : f ∈ fs) : (ofFacts fs).add f = ofFacts fs := by
  refine ext_describe (ext_names ?_ fun c => facts_ext (fun x => ?_) fun x => ?_)
  · have hcls : f.cls ∈ (ofFacts fs).names := by
      rw [names_ofFacts, List.mem_eraseDups]
      exact List.mem_map_of_mem hf
    rw [names_add, if_pos hcls]
  · rw [mem_declared_add, mem_declared_ofFacts]
    exact or_iff_right_of_imp fun h => h ▸ hf
  · rw [mem_called_add, mem_called_ofFacts]
    exact or_iff_right_of_imp fun h => h ▸ hf

/-- Facts that tell what a call graph holds, in an order that names the classes in theirs, give it back. -/
theorem describe_ofFacts {fs : List Fact} (hnames : (ofFacts fs).names = g.names)
    (hmethods : ∀ c x, .method c x ∈ fs ↔ x ∈ g.declared c) (hcalls : ∀ c x, .call c x ∈ fs ↔ x ∈ g.called c) :
    (ofFacts fs).describe = g.describe :=
  ext_names hnames fun c =>
    facts_ext (fun x => mem_declared_ofFacts.trans (hmethods c x)) fun x => mem_called_ofFacts.trans (hcalls c x)

end CouplingTree.CallGraph
