import CouplingTree.NameMaps
import CouplingTree.Proofs.Facts
import CouplingTree.Proofs.Outcomes

/-!
# The two maps do not drift apart

A step of the maps never misses a key, as it puts the class into both of them first. Step by step the maps are those of one
call graph, taken apart, so that they have the same classes in the same order, whatever is looked up in which of them.

* `CallGraph.nameMaps` : a call graph taken apart; `CallGraph.add_nameMaps` : one more fact goes to both sides alike.
* `NameMaps.ofFacts_eq` : so do all facts.
* `NameMaps.Keeps` : what is looked up after some facts; `NameMaps.ofFacts_keeps` : this is so for all facts.
-/

namespace CouplingTree

/-! ## Steps -/

namespace NameMaps

variable (m : NameMaps) (names : OrderedMap String NameSet) (c x : String)

theorem reserve_eq : reserve names c = names.insert c ((names.find? c).getD .empty) := by
  unfold reserve OrderedMap.contains
  cases h : names.find? c with
  | none => rfl
  | some s => exact (OrderedMap.insert_of_find? h).symm

theorem put_insert (s : NameSet) : put (names.insert c s) c x = .ok (names.insert c (s.insert x)) := by
  have hget : get (names.insert c s) c = .ok s := by
    unfold get
    rw [OrderedMap.find?_insert, if_pos rfl]
  unfold put
  rw [hget]
  exact congrArg Except.ok (names.insert_insert c _ _)

/-! Whatever the maps hold, a class is put into both of them before its set is taken. So no step fails. -/

theorem addClass_eq : m.addClass c = ⟨m.declares.insert c (m.declared c), m.calls.insert c (m.called c)⟩ := by
  unfold addClass
  rw [reserve_eq, reserve_eq]
  rfl

theorem addMethod_eq :
    m.addMethod c x = .ok ⟨m.declares.insert c ((m.declared c).insert x), m.calls.insert c (m.called c)⟩ := by
  unfold addMethod
  rw [addClass_eq]
  dsimp only
  rw [put_insert]
  rfl

theorem addCall_eq :
    m.addCall c x = .ok ⟨m.declares.insert c (m.declared c), m.calls.insert c ((m.called c).insert x)⟩ := by
  unfold addCall
  rw [addClass_eq]
  dsimp only
  rw [put_insert]
  rfl

end NameMaps

/-! ## A call graph taken apart -/

namespace CallGraph

open NameMaps

variable (g : CallGraph)

def nameMaps : NameMaps := ⟨g.classes.mapValues ClassFacts.declares, g.classes.mapValues ClassFacts.calls⟩

theorem names_nameMaps : g.nameMaps.names = g.names := OrderedMap.keys_mapValues _ _

theorem keys_calls_nameMaps : g.nameMaps.calls.keys = g.names := OrderedMap.keys_mapValues _ _

theorem declared_nameMaps (c : String) : g.nameMaps.declared c = g.declared c := by
  unfold NameMaps.declared nameMaps CallGraph.declared facts
  rw [OrderedMap.find?_mapValues]
  cases g.classes.find? c <;> rfl

theorem called_nameMaps (c : String) : g.nameMaps.called c = g.called c := by
  unfold NameMaps.called nameMaps CallGraph.called facts
  rw [OrderedMap.find?_mapValues]
  cases g.classes.find? c <;> rfl

theorem nameMaps_update (c : String) (change : ClassFacts → ClassFacts) :
    (g.update c change).nameMaps =
      ⟨g.nameMaps.declares.insert c (change (g.facts c)).declares, g.nameMaps.calls.insert c (change (g.facts c)).calls⟩ := by
  unfold nameMaps update
  rw [OrderedMap.mapValues_insert, OrderedMap.mapValues_insert]

/-- One more fact goes to both sides alike. -/
theorem add_nameMaps (f : Fact) : g.nameMaps.add f = .ok (g.add f).nameMaps := by
  cases f with
  | mention c =>
    have hupdate := g.nameMaps_update c id
    rw [NameMaps.add, addClass_eq, declared_nameMaps, called_nameMaps]
    exact congrArg Except.ok hupdate.symm
  | method c x =>
    have hupdate := g.nameMaps_update c fun k => k.declare x
    rw [NameMaps.add, addMethod_eq, declared_nameMaps, called_nameMaps]
    exact congrArg Except.ok hupdate.symm
  | call c x =>
    have hupdate := g.nameMaps_update c fun k => k.call x
    rw [NameMaps.add, addCall_eq, declared_nameMaps, called_nameMaps]
    exact congrArg Except.ok hupdate.symm

theorem addAll_nameMaps (fs : List Fact) : g.nameMaps.addAll fs = .ok (g.addAll fs).nameMaps := by
  induction fs generalizing g with
  | nil => rfl
  | cons f fs ih =>
    unfold NameMaps.addAll at ih ⊢
    rw [List.foldlM_cons, add_nameMaps]
    exact ih (g.add f)

/-- A description finds every class in both maps. -/
theorem describe_nameMaps : g.nameMaps.describe = .ok g.describe := by
  have hget : ∀ c ∈ g.names, ∃ k : ClassFacts, g.classes.find? c = some k ∧ g.facts c = k := by
    intro c hc
    obtain ⟨k, hk⟩ := (g.classes.mem_keys_iff c).1 hc
    refine ⟨k, hk, ?_⟩
    unfold facts
    rw [hk]
    rfl
  unfold NameMaps.describe
  rw [names_nameMaps, describe_eq]
  refine mapM_eq_ok_map fun c hc => ?_
  obtain ⟨k, hk, hfacts⟩ := hget c hc
  unfold NameMaps.get nameMaps
  dsimp only
  rw [OrderedMap.find?_mapValues, OrderedMap.find?_mapValues, hk, hfacts]
  rfl

end CallGraph

/-! ## All steps -/

namespace NameMaps

variable (fs : List Fact)

theorem ofFacts_eq : ofFacts fs = .ok (CallGraph.ofFacts fs).nameMaps := CallGraph.addAll_nameMaps .empty fs

/-- What is looked up in the maps is what some facts told. -/
structure Keeps (m : NameMaps) (fs : List Fact) : Prop where
  keys_eq : m.calls.keys = m.declares.keys
  names_eq : m.names = (fs.map Fact.cls).eraseDups
  nodup_names : m.names.Nodup
  mem_declared : ∀ c x, x ∈ m.declared c ↔ .method c x ∈ fs
  mem_called : ∀ c x, x ∈ m.called c ↔ .call c x ∈ fs
  eq_empty : ∀ c, (∀ f ∈ fs, f.cls ≠ c) → m.declared c = .empty ∧ m.called c = .empty
  size_eq : m.size = m.names.length
  contains_iff : ∀ c, m.contains c = true ↔ c ∈ m.names
  describe_eq : m.describe = .ok (m.names.map fun c => (c, ⟨m.declared c, m.called c⟩))
  add_eq : ∀ f ∈ fs, m.add f = .ok m

/-- Whatever facts are told to empty maps, one after another, the maps keep them. They are the call graph of the facts,
taken apart. -/
theorem ofFacts_keeps (fs : List Fact) :
    ∃ m, ofFacts fs = .ok m ∧ m.Keeps fs ∧ m.describe = .ok (CallGraph.ofFacts fs).describe := by
  refine ⟨_, ofFacts_eq fs, ?_, CallGraph.describe_nameMaps _⟩
  have hnames := CallGraph.names_nameMaps (CallGraph.ofFacts fs)
  exact {
    keys_eq := (CallGraph.keys_calls_nameMaps _).trans hnames.symm
    names_eq := hnames.trans (CallGraph.names_ofFacts fs)
    nodup_names := OrderedMap.nodup _
    mem_declared := fun c x => by rw [CallGraph.declared_nameMaps, CallGraph.mem_declared_ofFacts]
    mem_called := fun c x => by rw [CallGraph.called_nameMaps, CallGraph.mem_called_ofFacts]
    eq_empty := fun c hc => by
      have hmissing : c ∉ (CallGraph.ofFacts fs).names := by
        rw [CallGraph.names_ofFacts, List.mem_eraseDups]
        exact fun hmem => by
          obtain ⟨f, hf, rfl⟩ := List.mem_map.1 hmem
          exact hc f hf rfl
      rw [CallGraph.declared_nameMaps, CallGraph.called_nameMaps, CallGraph.declared, CallGraph.called,
        CallGraph.facts_of_not_mem hmissing]
      exact ⟨rfl, rfl⟩
    size_eq := (List.length_map _).symm
    contains_iff := fun c => OrderedMap.contains_iff _ c
    describe_eq := by
      rw [CallGraph.describe_nameMaps, CallGraph.describe_eq, hnames]
      refine congrArg Except.ok (List.map_congr_left fun c _ => ?_)
      rw [CallGraph.declared_nameMaps, CallGraph.called_nameMaps]
      rfl
    add_eq := fun f hf => by rw [CallGraph.add_nameMaps, CallGraph.add_of_mem hf] }

theorem three_facts_kept : ∃ m, ofFacts [.method "B" "f", .call "A" "f", .mention "B"] = .ok m ∧ m.names = ["B", "A"] ∧
    m.called "C" = .empty ∧ m.add (.call "A" "f") = .ok m := by
  obtain ⟨m, hm, hkeeps, -⟩ := ofFacts_keeps [.method "B" "f", .call "A" "f", .mention "B"]
  exact ⟨m, hm, hkeeps.names_eq, (hkeeps.eq_empty "C" (by decide)).2, hkeeps.add_eq _ (by decide)⟩

end NameMaps

end CouplingTree
