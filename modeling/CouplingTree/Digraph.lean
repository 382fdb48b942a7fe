import CouplingTree.CouplingMap

/-!
# Directed graphs

A graph lists its nodes by their first mention, and the targets of a node likewise. A node may be mentioned as an end of
an edge before it is given its label.

`CouplingMap.digraph` has the classes of a coupling map as nodes and its positive values as edges.
-/

namespace CouplingTree

structure Digraph (κ ν ε : Type) where
  nodes : OrderedMap κ (Option ν)
  targets : OrderedMap κ (OrderedMap κ ε)

namespace Digraph

variable {κ ν ε : Type} [DecidableEq κ]

def empty : Digraph κ ν ε := ⟨.empty, .empty⟩

/-- Lists a node, unless it is there. -/
def mention (g : Digraph κ ν ε) (k : κ) : Digraph κ ν ε :=
  if g.nodes.contains k then g else { g with nodes := g.nodes.insert k none }

/-- Gives a node its label. -/
def addNode (g : Digraph κ ν ε) (k : κ) (label : ν) : Digraph κ ν ε :=
  { g with nodes := g.nodes.insert k (some label) }

/-- The labelled edges that leave a node. -/
def edgesFrom (g : Digraph κ ν ε) (k : κ) : List (κ × ε) := ((g.targets.find? k).getD .empty).entries

/-- Adds an edge, or gives the edge that is there a new label. -/
def addEdge (g : Digraph κ ν ε) (source target : κ) (label : ε) : Digraph κ ν ε :=
  let g := (g.mention source).mention target
  { g with targets := g.targets.insert source (((g.targets.find? source).getD .empty).insert target label) }

/-- All edges, grouped by their sources in the order of the nodes. -/
def edges (g : Digraph κ ν ε) : List (κ × κ × ε) :=
  g.nodes.keys.flatMap fun k => (g.edgesFrom k).map fun e => (k, e)

end Digraph

variable {α : Type} [Scalar α]

/-- Nodes for all classes, edges for the pairs with a positive value. -/
def CouplingMap.digraph (coupling : CouplingMap α) : Digraph String Unit α :=
  let nodes := coupling.classes.foldl (fun g c => g.addNode c ()) Digraph.empty
  coupling.entries.foldl (fun g e => if 0 < e.2 then g.addEdge e.1.1 e.1.2 e.2 else g) nodes

end CouplingTree
