import CouplingTree.Clustering.Walk

/-!
# The trees and the merges as text

`Clustering.dendrogramText` draws the trees of all clusters at top level, `Clustering.historyText` tells the merges.
-/

namespace CouplingTree

variable {α : Type} [Rounding α]

/-- A cluster in a drawing: how far it is indented and what stands above it. -/
structure Branch (α : Type) where
  cluster : Cluster α
  depth : Nat
  heading : String

namespace Branch

def indent (b : Branch α) : String := String.ofList (List.replicate (4 * b.depth) ' ')

def lines (b : Branch α) : List String :=
  [b.indent ++ b.heading,
    b.indent ++ "  Classes: " ++ quotedList b.cluster.names,
    b.indent ++ "  Coupling: " ++ Rounding.fixedText 3 b.cluster.mergeCoupling]

/-- The branches of the two parts, one level deeper. -/
def parts (c : Clustering α) (b : Branch α) : Option (Branch α × Branch α) :=
  (c.children b.cluster).map fun p =>
    (⟨p.1, b.depth + 1, "Left sub-cluster:"⟩, ⟨p.2, b.depth + 1, "Right sub-cluster:"⟩)

end Branch

namespace Clustering

/-- The branches of the clusters at top level, numbered from one. -/
def trunks (c : Clustering α) : List (Branch α) :=
  c.clusters.mapIdx fun i k => ⟨k, 0, s!"Cluster {i + 1}:"⟩

def dendrogramLines (c : Clustering α) : List String :=
  "Clustering dendrogram:" ::
    (Walk.visits (Branch.parts c) (c.trunks.map fun b => (c.arena.length, b))).flatMap Branch.lines

def dendrogramText (c : Clustering α) : String := "\n".intercalate c.dendrogramLines

def historyLines (c : Clustering α) : List String :=
  "Clustering history:" :: c.history.flatMap fun m =>
    [m.describe, "  Result: " ++ quotedList m.result.names, "  Coupling: " ++ Rounding.fixedText 3 m.coupling, ""]

def historyText (c : Clustering α) : String := "\n".intercalate c.historyLines

end Clustering

end CouplingTree
