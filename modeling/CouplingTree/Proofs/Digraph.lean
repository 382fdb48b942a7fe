import Mathlib.Combinatorics.SimpleGraph.Connectivity.Subgraph
import Mathlib.Data.List.Nodup
import Mathlib.Data.List.Perm.Basic
import Mathlib.Logic.Relation
import CouplingTree.Digraph
import CouplingTree.Proofs.Relations
import CouplingTree.Proofs.Names

/-!
# Graphs that grow

A row is a node with its label and the edges that leave it. Where rows are added one after the other, a node may be mentioned
at the end of an edge long before its own row comes and gives it a label.

* `Digraph.addRow g r` : adds a row to a graph, first the node, then its edges.
* `Digraph.Shows g rows` : the graph tells of these rows; `Digraph.shows_rows` : so it does when it is made from them.
* `Digraph.Shows.entries_perm`, `Digraph.Shows.edges_perm` : where edges lead to rows only, its nodes and edges are theirs.
* `Digraph.IsTree g root` : each node but the root has exactly one edge to it, and the root leads to all of them.

The graph of a coupling map has all its nodes before its edges.

* `Digraph.mem_edges` : an edge is listed if its source is a node and it has a label.
* `CouplingMap.keys_nodes_digraph`, `CouplingMap.mem_edges_digraph` : the graph of a coupling map has its classes as nodes
  and its positive values as edges.
* `Digraph.undirected` : a graph when the directions of its edges are ignored; `Digraph.Connects` : what it connects.
* `supp_eq_of_closed` : a connected set of nodes that no edge leaves is a component.
-/

namespace CouplingTree

theorem Entries.foldl_insert_nil {κ β : Type} [DecidableEq κ] {es : List (κ × β)} (h : (es.map Prod.fst).Nodup) :
    es.foldl (fun l e => Entries.insert e.1 e.2 l) [] = es :=
  (List.foldl_hom OrderedMap.entries fun _ _ => rfl).trans (OrderedMap.entries_ofList h)

/-- A node with its label and the edges that leave it. -/
structure Digraph.Row (κ ν ε : Type) where
  key : κ
  label : ν
  targets : List (κ × ε)

namespace Digraph

variable {κ ν ε : Type} [DecidableEq κ] {g : Digraph κ ν ε} {a b j k : κ} {label : ν} {side : ε} {r : Row κ ν ε}
  {rows : List (Row κ ν ε)} {targets : List (κ × ε)}

/-! ## Nodes and edges -/

theorem mention_of_mem (h : a ∈ g.nodes.keys) : g.mention a = g := by
  obtain ⟨v, hv⟩ := (g.nodes.mem_keys_iff a).1 h
  exact if_pos (by rw [OrderedMap.contains, hv, Option.isSome_some])

theorem targets_mention (g : Digraph κ ν ε) (a : κ) : (g.mention a).targets = g.targets := by
  unfold mention
  split <;> rfl

/-- A mention keeps the label that a node has. -/
theorem find?_mention (g : Digraph κ ν ε) (a j : κ) :
    (g.mention a).nodes.find? j = (g.nodes.find? j).or (if j = a then some none else none) := by
  by_cases ha : a ∈ g.nodes.keys
  · rw [mention_of_mem ha]
    by_cases hj : j = a
    · obtain ⟨v, hv⟩ := (g.nodes.mem_keys_iff a).1 ha
      rw [hj, hv, Option.some_or]
    · rw [if_neg hj, Option.or_none]
  · have hnone : g.nodes.find? a = none := by
      rw [← Option.not_isSome_iff_eq_none, Option.isSome_iff_exists, ← OrderedMap.mem_keys_iff]
      exact ha
    rw [mention, if_neg (by rw [OrderedMap.contains, hnone]; exact Bool.false_ne_true)]
    dsimp only
    rw [OrderedMap.find?_insert]
    by_cases hj : j = a
    · rw [if_pos hj, if_pos hj, hj, hnone, Option.none_or]
    · rw [if_neg hj, if_neg hj, Option.or_none]

theorem find?_addNode (g : Digraph κ ν ε) (a j : κ) (label : ν) :
    (g.addNode a label).nodes.find? j = if j = a then some (some label) else g.nodes.find? j :=
  g.nodes.find?_insert a j (some label)

/-- The end of an edge that starts at a node is mentioned. -/
theorem find?_addEdge_of_mem (ha : a ∈ g.nodes.keys) (b j : κ) (side : ε) :
    (g.addEdge a b side).nodes.find? j = (g.nodes.find? j).or (if j = b then some none else none) := by
  rw [addEdge]
  dsimp only
  rw [mention_of_mem ha, find?_mention]

theorem edgesFrom_addEdge (g : Digraph κ ν ε) (a b j : κ) (side : ε) :
    (g.addEdge a b side).edgesFrom j =
      if j = a then Entries.insert b side (g.edgesFrom a) else g.edgesFrom j := by
  rw [addEdge, edgesFrom]
  dsimp only
  rw [targets_mention, targets_mention, OrderedMap.find?_insert]
  split
  · rfl
  · rfl

/-! ## Rows -/

/-- Adds edges from a node, from left to right. -/
def addEdges (g : Digraph κ ν ε) (a : κ) (targets : List (κ × ε)) : Digraph κ ν ε :=
  targets.foldl (fun g e => g.addEdge a e.1 e.2) g

def addRow (g : Digraph κ ν ε) (r : Row κ ν ε) : Digraph κ ν ε := (g.addNode r.key r.label).addEdges r.key r.targets

theorem find?_addEdges (ha : a ∈ g.nodes.keys) (targets : List (κ × ε)) (j : κ) :
    (g.addEdges a targets).nodes.find? j =
      (g.nodes.find? j).or (if j ∈ targets.map Prod.fst then some none else none) := by
  unfold addEdges
  induction targets generalizing g with
  | nil => exact (Option.or_none).symm
  | cons e targets ih =>
    have hfind := find?_addEdge_of_mem ha e.1 a e.2
    obtain ⟨v, hv⟩ := (g.nodes.mem_keys_iff a).1 ha
    rw [hv, Option.some_or] at hfind
    rw [List.foldl_cons, ih ((OrderedMap.mem_keys_iff _ _).2 ⟨v, hfind⟩), find?_addEdge_of_mem ha, Option.or_assoc,
      List.map_cons]
    by_cases hj : j = e.1
    · rw [if_pos hj, Option.some_or, if_pos (hj ▸ List.mem_cons_self ..)]
    · rw [if_neg hj, Option.none_or]
      simp only [List.mem_cons, hj, false_or]

theorem edgesFrom_addEdges (g : Digraph κ ν ε) (a : κ) (targets : List (κ × ε)) (j : κ) :
    (g.addEdges a targets).edgesFrom j =
      if j = a then targets.foldl (fun l e => Entries.insert e.1 e.2 l) (g.edgesFrom a) else g.edgesFrom j := by
  unfold addEdges
  induction targets generalizing g with
  | nil =>
    split
    · next hj => rw [hj]; rfl
    · rfl
  | cons e targets ih =>
    rw [List.foldl_cons, ih, edgesFrom_addEdge, edgesFrom_addEdge, if_pos rfl, List.foldl_cons]
    split <;> rfl

theorem find?_addRow (g : Digraph κ ν ε) (r : Row κ ν ε) (j : κ) :
    (g.addRow r).nodes.find? j =
      if j = r.key then some (some r.label)
      else (g.nodes.find? j).or (if j ∈ r.targets.map Prod.fst then some none else none) := by
  have hmem : r.key ∈ (g.addNode r.key r.label).nodes.keys :=
    (OrderedMap.mem_keys_iff _ _).2 ⟨_, (g.find?_addNode r.key r.key r.label).trans (if_pos rfl)⟩
  rw [addRow, find?_addEdges hmem, find?_addNode]
  split
  · rw [Option.some_or]
  · rfl

theorem edgesFrom_addRow (hnew : g.edgesFrom r.key = []) (hn : (r.targets.map Prod.fst).Nodup) (j : κ) :
    (g.addRow r).edgesFrom j = if j = r.key then r.targets else g.edgesFrom j := by
  have hnode : ∀ i, (g.addNode r.key r.label).edgesFrom i = g.edgesFrom i := fun _ => rfl
  rw [addRow, edgesFrom_addEdges, hnode, hnode, hnew, Entries.foldl_insert_nil hn]

/-- The graph has the labels and the edges of these rows, and no others. -/
structure Shows (g : Digraph κ ν ε) (rows : List (Row κ ν ε)) : Prop where
  label : ∀ r ∈ rows, g.nodes.find? r.key = some (some r.label)
  mem_keys : ∀ j, j ∈ g.nodes.keys ↔ ∃ r ∈ rows, j = r.key ∨ j ∈ r.targets.map Prod.fst
  edgesFrom : ∀ r ∈ rows, g.edgesFrom r.key = r.targets
  others : ∀ j, j ∉ rows.map Row.key → g.edgesFrom j = []

theorem shows_empty : (empty : Digraph κ ν ε).Shows [] where
  label _ hr := absurd hr (List.not_mem_nil)
  mem_keys j := by simp [empty, OrderedMap.keys, OrderedMap.empty]
  edgesFrom _ hr := absurd hr (List.not_mem_nil)
  others _ _ := rfl

theorem Shows.addRow (h : g.Shows rows) (hnew : r.key ∉ rows.map Row.key) (hn : (r.targets.map Prod.fst).Nodup) :
    (g.addRow r).Shows (rows ++ [r]) := by
  have hedges := fun j => edgesFrom_addRow (j := j) (h.others r.key hnew) hn
  have hne : ∀ r' ∈ rows, r'.key ≠ r.key := fun r' hr' heq => hnew (heq ▸ List.mem_map_of_mem hr')
  refine ⟨List.forall_mem_append.2 ⟨fun r' hr' => ?_, ?_⟩, fun j => ?_, List.forall_mem_append.2 ⟨fun r' hr' => ?_, ?_⟩,
    fun j hj => ?_⟩
  · rw [find?_addRow, if_neg (hne r' hr'), h.label r' hr', Option.some_or]
  · rw [List.forall_mem_singleton, find?_addRow, if_pos rfl]
  · -- a node is there if it was before or is mentioned by the new row
    have hkeys : j ∈ (g.addRow r).nodes.keys ↔ j ∈ g.nodes.keys ∨ j = r.key ∨ j ∈ r.targets.map Prod.fst := by
      rw [OrderedMap.mem_keys_iff, OrderedMap.mem_keys_iff, find?_addRow]
      by_cases hj : j = r.key
      · simp [hj]
      · by_cases hmem : j ∈ r.targets.map Prod.fst
        · cases g.nodes.find? j <;> simp [hj, hmem]
        · cases g.nodes.find? j <;> simp [hj, hmem]
    rw [hkeys, h.mem_keys]
    simp only [List.mem_append, List.mem_singleton, or_and_right, exists_or, exists_eq_left]
  · rw [hedges, if_neg (hne r' hr'), h.edgesFrom r' hr']
  · rw [List.forall_mem_singleton, hedges, if_pos rfl]
  · rw [List.map_append, List.mem_append, not_or, List.map_singleton, List.mem_singleton] at hj
    rw [hedges, if_neg hj.2, h.others j hj.1]

/-- A graph that is made from rows with different keys shows them. -/
theorem shows_rows (hkeys : (rows.map Row.key).Nodup) (hn : ∀ r ∈ rows, (r.targets.map Prod.fst).Nodup) :
    (rows.foldl addRow (empty : Digraph κ ν ε)).Shows rows := by
  induction rows using List.reverseRecOn with
  | nil => exact shows_empty
  | append_singleton rows r ih =>
    rw [List.map_append, List.map_singleton, List.nodup_append] at hkeys
    obtain ⟨hrows, hr⟩ := List.forall_mem_append.1 hn
    rw [List.foldl_append, List.foldl_cons, List.foldl_nil]
    refine (ih hkeys.1 hrows).addRow (fun hmem => ?_) (hr r (List.mem_singleton_self r))
    exact hkeys.2.2 _ hmem _ (List.mem_singleton_self _) rfl

/-! ## Nodes and edges of rows -/

section Closed

variable (hkeys : (rows.map Row.key).Nodup) (hclosed : ∀ r ∈ rows, ∀ e ∈ r.targets, e.1 ∈ rows.map Row.key)

include hclosed in
theorem Shows.mem_keys_iff (h : g.Shows rows) : j ∈ g.nodes.keys ↔ j ∈ rows.map Row.key := by
  rw [h.mem_keys]
  constructor
  · rintro ⟨r, hr, rfl | hj⟩
    · exact List.mem_map_of_mem hr
    · obtain ⟨e, he, rfl⟩ := List.mem_map.1 hj
      exact hclosed r hr e he
  · intro hj
    obtain ⟨r, hr, rfl⟩ := List.mem_map.1 hj
    exact ⟨r, hr, Or.inl rfl⟩

include hkeys hclosed

theorem Shows.keys_perm (h : g.Shows rows) : g.nodes.keys.Perm (rows.map Row.key) :=
  (List.perm_ext_iff_of_nodup g.nodes.nodup hkeys).2 fun _ => h.mem_keys_iff hclosed

theorem Shows.entries_perm (h : g.Shows rows) : g.nodes.entries.Perm (rows.map fun r => (r.key, some r.label)) := by
  have hrows : (rows.map fun r => (r.key, some r.label)).Nodup := by
    refine List.Nodup.of_map Prod.fst ?_
    rwa [List.map_map]
  rw [List.perm_ext_iff_of_nodup (List.Nodup.of_map Prod.fst g.nodes.nodup) hrows]
  rintro ⟨j, v⟩
  rw [← OrderedMap.find?_eq_some_iff, List.mem_map]
  constructor
  · intro hv
    obtain ⟨r, hr, rfl⟩ := List.mem_map.1 ((h.mem_keys_iff hclosed).1 ((OrderedMap.mem_keys_iff _ _).2 ⟨v, hv⟩))
    exact ⟨r, hr, congrArg (Prod.mk r.key) (Option.some.inj ((h.label r hr).symm.trans hv))⟩
  · rintro ⟨r, hr, heq⟩
    cases heq
    exact h.label r hr

theorem Shows.edges_perm (h : g.Shows rows) :
    g.edges.Perm (rows.flatMap fun r => r.targets.map fun e => (r.key, e)) := by
  refine ((h.keys_perm hkeys hclosed).flatMap_right _).trans (List.Perm.of_eq ?_)
  rw [List.flatMap_map]
  exact List.flatMap_congr fun r hr => by rw [h.edgesFrom r hr]

end Closed

/-! ## Trees -/

/-- How many edges lead to a node. -/
def inDegree (g : Digraph κ ν ε) (k : κ) : Nat := g.edges.countP fun e => decide (e.2.1 = k)

/-- A graph in which each node has one predecessor, apart from a root, from which all nodes can be reached. -/
structure IsTree (g : Digraph κ ν ε) (root : κ) : Prop where
  root_mem : root ∈ g.nodes.keys
  closed : ∀ e ∈ g.edges, e.1 ∈ g.nodes.keys ∧ e.2.1 ∈ g.nodes.keys
  inDegree_eq : ∀ k ∈ g.nodes.keys, g.inDegree k = if k = root then 0 else 1
  reached : ∀ k ∈ g.nodes.keys, Relation.ReflTransGen (fun a b => ∃ side, (a, b, side) ∈ g.edges) root k

end Digraph

/-! ## Labels -/

namespace Digraph

variable {ν ε : Type} {g : Digraph String ν ε} {a b c : String}

/-- The label of an edge, if it is there. -/
def label? (g : Digraph String ν ε) (a b : String) : Option ε := CouplingMap.Rows.find? g.targets (a, b)

theorem mem_edgesFrom {label : ε} : (b, label) ∈ g.edgesFrom a ↔ g.label? a b = some label := by
  rw [edgesFrom, label?, CouplingMap.Rows.find?]
  cases g.targets.find? a with
  | none => simp [OrderedMap.empty]
  | some row => exact (row.find?_eq_some_iff b label).symm

theorem mem_edges {label : ε} : (a, b, label) ∈ g.edges ↔ a ∈ g.nodes.keys ∧ g.label? a b = some label := by
  rw [← mem_edgesFrom]
  simp [edges]

theorem targets_addEdge (g : Digraph String ν ε) (a b : String) (label : ε) :
    (g.addEdge a b label).targets = CouplingMap.Rows.insert g.targets ((a, b), label) := by
  rw [addEdge]
  dsimp only
  rw [targets_mention, targets_mention]
  rfl

theorem nodes_addEdge_of_mem (ha : a ∈ g.nodes.keys) (hb : b ∈ g.nodes.keys) (label : ε) :
    (g.addEdge a b label).nodes = g.nodes := by
  rw [addEdge]
  dsimp only
  rw [mention_of_mem ha, mention_of_mem hb]

/-! ## Without directions -/

def HasEdge (g : Digraph String ν ε) (a b : String) : Prop := ∃ label, (a, b, label) ∈ g.edges

/-- The graph in which two nodes are adjacent if an edge leads from one to the other. -/
def undirected (g : Digraph String ν ε) : SimpleGraph {k // k ∈ g.nodes.keys} :=
  SimpleGraph.fromRel fun a b => g.HasEdge a.1 b.1

/-- The nodes in a set of names. -/
def within (g : Digraph String ν ε) (s : NameSet) : Set {k // k ∈ g.nodes.keys} := {x | x.1 ∈ s}

theorem within_union (g : Digraph String ν ε) (s t : NameSet) : g.within (s.union t) = g.within s ∪ g.within t :=
  Set.ext fun _ => NameSet.mem_union

/-- The nodes in a set of names are connected by edges between them, whatever the directions. -/
def Connects (g : Digraph String ν ε) (s : NameSet) : Prop := (g.undirected.induce (g.within s)).Connected

theorem connects_singleton (h : a ∈ g.nodes.keys) : g.Connects (.singleton a) := by
  have : Nonempty (g.within (.singleton a)) := ⟨⟨a, h⟩, NameSet.mem_singleton.2 rfl⟩
  have : Subsingleton (g.within (.singleton a)) := by
    refine ⟨fun x y => Subtype.ext (Subtype.ext ?_)⟩
    exact (NameSet.mem_singleton.1 x.2).trans (NameSet.mem_singleton.1 y.2).symm
  exact .of_subsingleton

/-- Two connected sets with an edge between them are connected together. -/
theorem Connects.union {s t : NameSet} (hs : g.Connects s) (ht : g.Connects t) {x y : {k // k ∈ g.nodes.keys}}
    (hx : x ∈ g.within s) (hy : y ∈ g.within t) (hadj : g.undirected.Adj x y) : g.Connects (s.union t) := by
  rw [Connects, within_union]
  exact SimpleGraph.connected_induce_union hs.preconnected ht.preconnected hx hy hadj

end Digraph

/-- A connected set that no edge leaves is a component. -/
theorem supp_eq_of_closed {V : Type} {G : SimpleGraph V} {s : Set V} (hconn : (G.induce s).Preconnected)
    (hclosed : ∀ x ∈ s, ∀ y, G.Adj x y → y ∈ s) {v : V} (hv : v ∈ s) : (G.connectedComponentMk v).supp = s := by
  ext x
  rw [SimpleGraph.ConnectedComponent.mem_supp_iff, SimpleGraph.ConnectedComponent.eq]
  constructor
  · -- along a path from a node of the set
    intro h
    rw [SimpleGraph.reachable_comm, SimpleGraph.reachable_iff_reflTransGen] at h
    induction h with
    | refl => exact hv
    | tail _ hadj ih => exact hclosed _ ih _ hadj
  · exact fun hx => (hconn ⟨x, hx⟩ ⟨v, hv⟩).map (SimpleGraph.Embedding.induce s).toHom

/-! ## Classes and positive values -/

namespace CouplingMap

variable {α : Type} [Scalar α]

/-- Adds an edge for a positive value. -/
def addPositive (g : Digraph String Unit α) (e : (String × String) × α) : Digraph String Unit α :=
  if 0 < e.2 then g.addEdge e.1.1 e.1.2 e.2 else g

/-- The classes without edges between them. -/
def nodesOnly (coupling : CouplingMap α) : Digraph String Unit α :=
  coupling.classes.foldl (fun g c => g.addNode c ()) .empty

theorem digraph_eq (coupling : CouplingMap α) :
    coupling.digraph = coupling.entries.foldl addPositive coupling.nodesOnly := rfl

theorem targets_addPositive (g : Digraph String Unit α) (e : (String × String) × α) :
    (addPositive g e).targets = if decide (0 < e.2) then Rows.insert g.targets e else g.targets := by
  unfold addPositive
  by_cases h : 0 < e.2
  · rw [if_pos h, if_pos (decide_eq_true h), Digraph.targets_addEdge]
  · rw [if_neg h, if_neg (by simpa using h)]

theorem targets_foldl_addPositive (es : List ((String × String) × α)) (g : Digraph String Unit α) :
    (es.foldl addPositive g).targets = (es.filter fun e => decide (0 < e.2)).foldl Rows.insert g.targets := by
  rw [List.foldl_filter]
  exact (List.foldl_hom Digraph.targets fun g e => (targets_addPositive g e).symm).symm

theorem nodes_foldl_addPositive {es : List ((String × String) × α)} {g : Digraph String Unit α}
    (h : ∀ e ∈ es, e.1.1 ∈ g.nodes.keys ∧ e.1.2 ∈ g.nodes.keys) : (es.foldl addPositive g).nodes = g.nodes := by
  induction es generalizing g with
  | nil => rfl
  | cons e es ih =>
    obtain ⟨he, hes⟩ := List.forall_mem_cons.1 h
    have hnodes : (addPositive g e).nodes = g.nodes := by
      unfold addPositive
      split
      · exact Digraph.nodes_addEdge_of_mem he.1 he.2 e.2
      · rfl
    rw [List.foldl_cons, ih (hnodes ▸ hes), hnodes]

variable (coupling : CouplingMap α)

omit [Scalar α] in
theorem nodes_nodesOnly : coupling.nodesOnly.nodes = .ofList (coupling.classes.map fun c => (c, some ())) := by
  rw [OrderedMap.ofList, List.foldl_map]
  exact (List.foldl_hom Digraph.nodes fun _ _ => rfl).symm

omit [Scalar α] in
theorem keys_nodes_nodesOnly : coupling.nodesOnly.nodes.keys = coupling.classes := by
  have hkeys : ((coupling.classes.map fun c => (c, some ())).map Prod.fst) = coupling.classes := by
    rw [List.map_map]
    exact List.map_id _
  have hn := hkeys.symm ▸ coupling.nodup_classes
  rw [nodes_nodesOnly, OrderedMap.keys, OrderedMap.entries_ofList hn, hkeys]

omit [Scalar α] in
theorem targets_nodesOnly : coupling.nodesOnly.targets = .empty := by
  have key : ∀ (cs : List String) (g : Digraph String Unit α),
      (cs.foldl (fun g c => g.addNode c ()) g).targets = g.targets := by
    intro cs
    induction cs with
    | nil => exact fun _ => rfl
    | cons c cs ih => exact fun g => ih (g.addNode c ())
  exact key _ _

theorem keys_nodes_digraph : coupling.digraph.nodes.keys = coupling.classes := by
  rw [digraph_eq, nodes_foldl_addPositive, keys_nodes_nodesOnly]
  intro e he
  rw [keys_nodes_nodesOnly, mem_classes, mem_classes]
  have hk := List.mem_map_of_mem (f := Prod.fst) he
  exact ⟨⟨e.1, hk, Or.inl rfl⟩, ⟨e.1, hk, Or.inr rfl⟩⟩

theorem mem_nodes_digraph {a : String} : a ∈ coupling.digraph.nodes.keys ↔ a ∈ coupling.classes := by
  rw [keys_nodes_digraph]

theorem label?_digraph {a b : String} {v : α} :
    coupling.digraph.label? a b = some v ↔ coupling.find? (a, b) = some v ∧ 0 < v := by
  -- the positive entries are a coupling map themselves
  let positive : CouplingMap α :=
    ⟨coupling.entries.filter fun e => decide (0 < e.2), coupling.nodup.sublist (List.filter_sublist.map Prod.fst)⟩
  have hfind : coupling.digraph.label? a b = positive.find? (a, b) := by
    rw [Digraph.label?, digraph_eq, targets_foldl_addPositive, targets_nodesOnly]
    exact congrFun positive.rows_find? (a, b)
  rw [hfind, OrderedMap.find?_eq_some_iff, OrderedMap.find?_eq_some_iff, List.mem_filter, decide_eq_true_iff]

theorem mem_edges_digraph {a b : String} {v : α} :
    (a, b, v) ∈ coupling.digraph.edges ↔ coupling.find? (a, b) = some v ∧ 0 < v := by
  rw [Digraph.mem_edges, label?_digraph, mem_nodes_digraph, and_iff_right_iff_imp, mem_classes]
  rintro ⟨hv, -⟩
  exact ⟨(a, b), (coupling.mem_keys_iff _).2 ⟨v, hv⟩, Or.inl rfl⟩

end CouplingMap

end CouplingTree
