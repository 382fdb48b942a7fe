import CouplingTree.Clustering.Basic

/-!
# Modules

Two ways to select modules from a clustering. `modulesAtThreshold` takes each cluster at top level that coheres enough,
or else those of its two parts that do. `selectModules` takes the first clusters of a list whose members couple above a
threshold, up to a cap.
-/

namespace CouplingTree

variable {α : Type} [Scalar α]

namespace Clustering

/-- The modules that a cluster at top level gives. -/
def modulesOf (c : Clustering α) (threshold : α) (k : Cluster α) : List NameSet :=
  if threshold ≤ c.cohesion k then [k.members]
  else
    match c.children k with
    | none => []
    | some (left, right) =>
      ([left, right].filter fun part => decide (threshold ≤ c.cohesion part)).map Cluster.members

def modulesAtThreshold (c : Clustering α) (threshold : α) : List NameSet :=
  c.clusters.flatMap (c.modulesOf threshold)

end Clustering

namespace CouplingMap

/-- Adds the value of a pair to a running sum and count. -/
def tally (coupling : CouplingMap α) (a : String) (sums : α × Nat) (b : String) : α × Nat :=
  if a = b then sums
  else
    match coupling.find? (a, b) with
    | some v => (sums.1 + v, sums.2 + 1)
    | none => sums

/-- The mean coupling of a set, by a running sum over its pairs. -/
def average (coupling : CouplingMap α) (s : NameSet) : α :=
  let sums := s.toList.foldl (fun sums a => s.toList.foldl (coupling.tally a) sums) (0, 0)
  if 0 < sums.2 then sums.1 / ((sums.2 : Nat) : α) else 0

/-- Adds a cluster to the selected ones, if there is room and it couples above the threshold. -/
def select (coupling : CouplingMap α) (cap : Int) (threshold : α) (selected : List (Cluster α)) (k : Cluster α) :
    List (Cluster α) :=
  if (selected.length : Int) < cap ∧ threshold < coupling.average k.members then selected ++ [k] else selected

/-- The first clusters that couple above the threshold, at most `cap` of them. -/
def selectModules (coupling : CouplingMap α) (clusters : List (Cluster α)) (cap : Int) (threshold : α) :
    List (Cluster α) :=
  clusters.foldl (coupling.select cap threshold) []

end CouplingMap

end CouplingTree
