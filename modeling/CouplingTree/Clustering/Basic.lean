import CouplingTree.CouplingMap
import CouplingTree.OtherName

/-!
# Clusterings

A cluster is a set of classes, either a single class or joined from two others, which it refers to by their numbers.

A clustering keeps every cluster that ever was in its arena, where a cluster's number is its place; the numbers of those
that are not part of another one are active. The history lists the merges.
-/

namespace CouplingTree

/-! ## Clusters and merges -/

structure Cluster (α : Type) where
  id : Nat
  members : NameSet
  /-- The left and the right part, if the cluster was joined. -/
  children : Option (Nat × Nat)
  mergeCoupling : α

namespace Cluster

variable {α : Type}

def isLeaf (c : Cluster α) : Bool := c.children.isNone

/-- The cluster of a single class. -/
def leaf [Scalar α] (id : Nat) (cls : String) : Cluster α := ⟨id, .singleton cls, none, 0⟩

/-- The members in ascending order. -/
def names (c : Cluster α) : List String := c.members.toList

def size (c : Cluster α) : Nat := c.members.size

def describe [Rounding α] (c : Cluster α) : String :=
  "Cluster\x7bclasses=" ++ quotedList c.names ++ ", merge_coupling=" ++ Rounding.fixedText 3 c.mergeCoupling ++ "\x7d"

end Cluster

/-- Two clusters joined into one. -/
structure Merge (α : Type) where
  first : Cluster α
  second : Cluster α
  coupling : α
  result : Cluster α

def Merge.describe {α : Type} [Rounding α] (m : Merge α) : String :=
  "Merged " ++ quotedList m.first.names ++ " and " ++ quotedList m.second.names ++
    " (coupling: " ++ Rounding.fixedText 3 m.coupling ++ ")"

/-! ## Clusterings -/

structure Clustering (α : Type) where
  coupling : CouplingMap α
  arena : List (Cluster α)
  active : List Nat
  history : List (Merge α)

/-- There is no cluster of this number. -/
structure UnknownCluster where
  id : Int
deriving DecidableEq, Repr

def UnknownCluster.message (e : UnknownCluster) : String := s!"Unknown cluster id {e.id}"

namespace Clustering

variable {α : Type}

/-- The cluster of a number, which may come from outside. -/
def cluster (c : Clustering α) (id : Int) : Except UnknownCluster (Cluster α) :=
  if id < 0 then .error ⟨id⟩
  else
    match c.arena[id.toNat]? with
    | some k => .ok k
    | none => .error ⟨id⟩

/-- The clusters at top level, in active order. -/
def clusters (c : Clustering α) : List (Cluster α) := c.active.filterMap fun id => c.arena[id]?

def leafCount (c : Clustering α) : Nat := c.arena.countP Cluster.isLeaf

/-- The two parts of a joined cluster. -/
def children (c : Clustering α) (k : Cluster α) : Option (Cluster α × Cluster α) :=
  match k.children with
  | none => none
  | some (left, right) =>
    match c.arena[left]?, c.arena[right]? with
    | some l, some r => some (l, r)
    | _, _ => none

/-- The cluster at top level, if there is exactly one. -/
def root (c : Clustering α) : Option (Cluster α) :=
  match c.active with
  | [id] => c.arena[id]?
  | _ => none

variable [Scalar α]

def cohesion (c : Clustering α) (k : Cluster α) : α := c.coupling.cohesion k.members

/-- The cohesion of each cluster at top level, under its number. -/
def cohesions (c : Clustering α) : OrderedMap Nat α := .ofList (c.clusters.map fun k => (k.id, c.cohesion k))

end Clustering

end CouplingTree
