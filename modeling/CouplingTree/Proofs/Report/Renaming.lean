import CouplingTree.Proofs.Clustering.Renaming
import CouplingTree.Proofs.Facts
import CouplingTree.Proofs.Relations
import CouplingTree.Report.Basic

/-!
# Names do not matter

A decomposition depends on the classes of a call graph and on how many relations there are between them, and a run on the
places of the classes. So nothing depends on how methods are called, nor, with rational numbers, on how classes are called.

* `CallGraph.renameMethods` : the call graph with other names for methods, whether declared or called.
* `CallGraph.renameMethods_ofFacts` : it is made of the facts with those names.
* `CallGraph.relationCount_renameMethods` : there are as many relations as before.
* `decompose_congr` : hence the decomposition is the same.
-/

namespace CouplingTree

variable {f : String → String}

/-! ## Names of methods -/

def Fact.renameMethod (f : String → String) : Fact → Fact
  | mention c => mention c
  | method c name => method c (f name)
  | call c name => call c (f name)

def ClassFacts.rename (f : String → String) (k : ClassFacts) : ClassFacts := ⟨k.declares.map f, k.calls.map f⟩

namespace CallGraph

/-- The call graph with other names for what is declared and called. -/
def renameMethods (f : String → String) (g : CallGraph) : CallGraph where
  classes := ⟨g.classes.entries.map fun e => (e.1, e.2.rename f), by rw [List.map_map]; exact g.classes.nodup⟩

/-- All names that some class declares or calls. -/
def methodNames (g : CallGraph) : List String := g.classes.values.flatMap fun k => k.declares.toList ++ k.calls.toList

variable {g h : CallGraph}

theorem names_renameMethods (f : String → String) (g : CallGraph) : (g.renameMethods f).names = g.names :=
  List.map_map

theorem facts_renameMethods (f : String → String) (g : CallGraph) (c : String) :
    (g.renameMethods f).facts c = (g.facts c).rename f := by
  have hfind : (g.renameMethods f).classes.find? c = (g.classes.find? c).map (ClassFacts.rename f) :=
    Entries.find?_map_snd _ c _
  unfold facts
  rw [hfind]
  cases g.classes.find? c <;> rfl

theorem update_renameMethods {change change' : ClassFacts → ClassFacts} (c : String)
    (h : ∀ k, (change k).rename f = change' (k.rename f)) :
    (g.update c change).renameMethods f = (g.renameMethods f).update c change' := by
  refine ext_describe (ext_names ?_ fun d => ?_)
  · rw [names_renameMethods, names_update, names_update, names_renameMethods]
  · rw [facts_renameMethods, facts_update, facts_update, facts_renameMethods, facts_renameMethods]
    split
    · exact h _
    · rfl

theorem add_renameMethods (f : String → String) (g : CallGraph) (x : Fact) :
    (g.add x).renameMethods f = (g.renameMethods f).add (x.renameMethod f) := by
  cases x with
  | mention c => exact update_renameMethods c fun _ => rfl
  | method c name =>
    show (g.update c fun k => k.declare name).renameMethods f = (g.renameMethods f).update c fun k => k.declare (f name)
    refine update_renameMethods c fun k => ?_
    simp only [ClassFacts.rename, ClassFacts.declare, NameSet.map_insert]
  | call c name =>
    show (g.update c fun k => k.call name).renameMethods f = (g.renameMethods f).update c fun k => k.call (f name)
    refine update_renameMethods c fun k => ?_
    simp only [ClassFacts.rename, ClassFacts.call, NameSet.map_insert]

theorem renameMethods_ofFacts (f : String → String) (fs : List Fact) :
    (ofFacts fs).renameMethods f = ofFacts (fs.map (Fact.renameMethod f)) := by
  induction fs using List.reverseRecOn with
  | nil => rfl
  | append_singleton fs x ih =>
    rw [ofFacts_append, add_renameMethods, ih, List.map_append, List.map_singleton, ofFacts_append]

/-! ## Relations -/

theorem mem_methodNames {c x : String} (h : x ∈ g.declared c ∨ x ∈ g.called c) : x ∈ g.methodNames := by
  by_cases hc : c ∈ g.names
  · obtain ⟨k, hk⟩ := (g.classes.mem_keys_iff c).1 hc
    have hfacts : g.facts c = k := by rw [facts, hk]; rfl
    refine List.mem_flatMap.2 ⟨k, List.mem_map_of_mem (f := Prod.snd) ((g.classes.find?_eq_some_iff c k).1 hk), ?_⟩
    rw [declared, called, hfacts] at h
    exact List.mem_append.2 h
  · rw [declared, called, facts_of_not_mem hc] at h
    exact absurd h (not_or.2 ⟨NameSet.not_mem_empty x, NameSet.not_mem_empty x⟩)

theorem relationCount_renameMethods (hf : Set.InjOn f {x | x ∈ g.methodNames}) (a b : String) :
    (g.renameMethods f).relationCount a b = g.relationCount a b := by
  unfold relationCount called declared
  rw [facts_renameMethods, facts_renameMethods]
  exact NameSet.sharedCount_map hf (fun x hx => mem_methodNames (Or.inr hx)) fun x hx => mem_methodNames (Or.inl hx)

/-! ## What depends on relations only -/

section Congruence

variable (hnames : g.names = h.names) (hcount : ∀ a b, g.relationCount a b = h.relationCount a b)

include hnames

theorem others_congr : g.others = h.others := by
  funext c
  rw [others, others, hnames]

include hcount

theorem totalRelations_congr : g.totalRelations = h.totalRelations := by
  unfold totalRelations
  rw [hnames, others_congr hnames]
  simp only [hcount]

theorem relationMatrix_congr : g.relationMatrix = h.relationMatrix := by
  have hrow : g.relationRow = h.relationRow := by
    funext a
    unfold relationRow
    rw [others_congr hnames]
    simp only [hcount]
  rw [relationMatrix, relationMatrix, hnames, hrow]

theorem normalizedCoupling_congr {α : Type} [Scalar α] :
    (g.normalizedCoupling : CouplingMap α) = h.normalizedCoupling := by
  unfold normalizedCoupling
  rw [hnames, others_congr hnames, totalRelations_congr hnames hcount]
  simp only [hcount]

end Congruence

end CallGraph

/-- The classes in order and the numbers of their relations are all that a decomposition looks at. -/
theorem decompose_congr {α : Type} [Scalar α] [Rounding α] {g h : CallGraph} (hnames : g.names = h.names)
    (hcount : ∀ a b, g.relationCount a b = h.relationCount a b) (p : Parameters α) : decompose g p = decompose h p := by
  have hsize : g.size = h.size := by rw [← g.length_names, ← h.length_names, hnames]
  unfold decompose Report.of
  rw [CallGraph.normalizedCoupling_congr hnames hcount, CallGraph.relationMatrix_congr hnames hcount,
    CallGraph.totalRelations_congr hnames hcount, hsize]

/-! ## Both -/

/-- **Names do not matter.** With rational numbers, a run over classes under other names makes the same clusters, with their
numbers, couplings and parts, out of the renamed classes. With any numbers, a call graph in which methods have other names,
whether they are declared or called, has the same decomposition. -/
theorem names_do_not_matter :
    (∀ (rule : StopRule Rat) (coupling : CouplingMap Rat) (f : String → String), Set.InjOn f {x | x ∈ coupling.classes} →
      (Clustering.run rule (coupling.rename f)).clustering = (Clustering.run rule coupling).clustering.rename f) ∧
    ∀ {α : Type} [Scalar α] [Rounding α] (p : Parameters α) (g : CallGraph) (f : String → String),
      Set.InjOn f {x | x ∈ g.methodNames} → decompose (g.renameMethods f) p = decompose g p :=
  ⟨fun rule _ _ hf => Clustering.run_clustering_rename hf rule,
    fun p g f hf => decompose_congr (g.names_renameMethods f) (CallGraph.relationCount_renameMethods hf) p⟩

/-- Calls `x` by a name that stands behind most others. -/
def asLast (x y : String) : String := if y = x then "z" else y

/-- One relation, besides a method that is not called. -/
def oneRelation : CallGraph := .ofFacts [.method "A" "get", .method "A" "put", .call "B" "get"]

theorem injOn_of_forall {l : List String} (h : ∀ x ∈ l, ∀ y ∈ l, f x = f y → x = y) : Set.InjOn f {x | x ∈ l} :=
  fun x hx y hy => h x hx y hy

/-- With another name the first class of a chain stands last among its members, and still is the first one to be joined. -/
theorem chain_renamed :
    ((Clustering.run ⟨0, 1⟩ (Clustering.chain.rename (asLast "A"))).clustering.arena.map fun k => (k.id, k.names)) =
        [(0, ["z"]), (1, ["B"]), (2, ["C"]), (3, ["B", "z"]), (4, ["B", "C", "z"])] ∧
      (Clustering.run ⟨0, 1⟩ (Clustering.chain.rename (asLast "A"))).clustering =
        (Clustering.run ⟨0, 1⟩ Clustering.chain).clustering.rename (asLast "A") ∧
      (oneRelation.renameMethods (asLast "get")).describe =
        [("A", ⟨.ofList ["put", "z"], .empty⟩), ("B", ⟨.empty, .ofList ["z"]⟩)] ∧
      decompose (oneRelation.renameMethods (asLast "get")) (⟨0, 1, 0, none⟩ : Parameters Rat) =
        decompose oneRelation ⟨0, 1, 0, none⟩ := by
  have hclasses : Set.InjOn (asLast "A") {x | x ∈ Clustering.chain.classes} := injOn_of_forall (by decide +kernel)
  have hmethods : Set.InjOn (asLast "get") {x | x ∈ oneRelation.methodNames} := injOn_of_forall (by decide +kernel)
  have hrun := names_do_not_matter.1 ⟨0, 1⟩ Clustering.chain (asLast "A") hclasses
  refine ⟨?_, hrun, by decide +kernel, names_do_not_matter.2 _ _ _ hmethods⟩
  rw [hrun]
  decide +kernel

end CouplingTree
