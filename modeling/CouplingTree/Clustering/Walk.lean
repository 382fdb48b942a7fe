import CouplingTree.Clustering.Basic
import CouplingTree.Digraph

/-!
# Walking the merge trees

`Walk.visits` takes items off a stack and puts what they lead to on top of it, so the items below one are visited right
after it, the left part first. Each item carries how many levels below it may still be visited; a tree of clusters is
not deeper than the arena is long.

`Clustering.treeGraph` is the graph of the trees, with the clusters as nodes and a labelled edge to each of their parts.
-/

namespace CouplingTree

namespace Walk

variable {β : Type}

/-- Bounds the visits still to come: an item with `d` levels below it accounts for `3 ^ d` of them. -/
def weight (stack : List (Nat × β)) : Nat := stack.foldr (fun x n => Nat.pow 3 x.1 + n) 0

/-- The items visited from a stack, where each item leads to two others or to none. -/
def visits (parts : β → Option (β × β)) (stack : List (Nat × β)) : List β :=
  match stack with
  | [] => []
  | (0, x) :: rest => x :: visits parts rest
  | (depth + 1, x) :: rest =>
    match parts x with
    | none => x :: visits parts rest
    | some (left, right) => x :: visits parts ((depth, left) :: (depth, right) :: rest)
termination_by weight stack
decreasing_by
  · simp [weight]
  · have := Nat.pow_pos (n := depth + 1) (show 0 < 3 by decide)
    simp only [weight, List.foldr_cons, Nat.pow_eq]
    omega
  · have := Nat.pow_pos (n := depth) (show 0 < 3 by decide)
    simp only [weight, List.foldr_cons, Nat.pow_eq, Nat.pow_succ]
    omega

end Walk

/-- What the graph of the trees tells about a cluster. -/
structure TreeNode (α : Type) where
  members : NameSet
  leaf : Bool
  mergeCoupling : α

/-- Which part of a cluster another one is. -/
inductive Side
  | left
  | right
deriving DecidableEq, Repr

def Side.name : Side → String
  | left => "left"
  | right => "right"

namespace Clustering

variable {α : Type}

/-- The given clusters and all clusters below them, each one before its parts. -/
def below (c : Clustering α) (starts : List (Cluster α)) : List (Cluster α) :=
  Walk.visits c.children (starts.map fun k => (c.arena.length, k))

/-- Adds a cluster to a graph, and the edges to its parts. -/
def addToTree (c : Clustering α) (g : Digraph Nat (TreeNode α) Side) (k : Cluster α) : Digraph Nat (TreeNode α) Side :=
  let g := g.addNode k.id ⟨k.members, k.isLeaf, k.mergeCoupling⟩
  match c.children k with
  | none => g
  | some (left, right) => (g.addEdge k.id left.id .left).addEdge k.id right.id .right

/-- The graph of the trees below the given clusters. -/
def treeGraphOf (c : Clustering α) (starts : List (Cluster α)) : Digraph Nat (TreeNode α) Side :=
  (c.below starts).foldl c.addToTree .empty

/-- The graph of the trees of all clusters at top level. -/
def treeGraph (c : Clustering α) : Digraph Nat (TreeNode α) Side := c.treeGraphOf c.clusters

end Clustering

end CouplingTree
