import CouplingTree.ClassCoupling
import CouplingTree.Clustering.Linkage
import CouplingTree.Clustering.Run
import CouplingTree.Modules

/-!
# Decomposition reports

A report puts together what is known about the classes of a call graph and about a clustering of them: counts, couplings,
clusters, merges, modules and the order of the leaves. Numbers are rounded for reading.

`decompose` goes from a call graph to a run and its report.
-/

namespace CouplingTree

variable {α : Type} [Scalar α] [Rounding α]

/-- Couplings are shown with so many places. -/
def reportPlaces : Nat := 4

structure CouplingRow (α : Type) where
  caller : String
  callee : String
  value : α

/-- A cluster at top level, with the members of its two parts, if it has any. -/
structure ClusterSummary (α : Type) where
  id : Nat
  classes : List String
  size : Nat
  mergeCoupling : α
  cohesion : α
  children : List (List String)

structure HistoryEntry (α : Type) where
  step : Nat
  first : List String
  second : List String
  coupling : α
  result : List String

structure Report (α : Type) where
  classCount : Nat
  totalRelations : Nat
  coupling : List (CouplingRow α)
  classCoupling : List (String × ClassCoupling α)
  clusters : List (ClusterSummary α)
  history : List (HistoryEntry α)
  modules : List (List String)
  selectedModules : List (List String)
  leafOrder : List String

inductive ReportError
  | account (e : AccountError)
  | layout (e : LayoutError)
deriving DecidableEq, Repr

/-! ## Coupling rows -/

namespace CouplingRow

/-- Whether a row stands before another one: the greater value first, then by caller and callee. -/
def before (r s : CouplingRow α) : Bool :=
  if s.value < r.value then true
  else if r.value < s.value then false
  else decide (r.caller < s.caller ∨ r.caller = s.caller ∧ r.callee < s.callee)

/-- Puts a row before the first one that stands not before it. -/
def insert (r : CouplingRow α) : List (CouplingRow α) → List (CouplingRow α)
  | [] => [r]
  | s :: rest => if s.before r then s :: insert r rest else r :: s :: rest

def sort (rows : List (CouplingRow α)) : List (CouplingRow α) := rows.foldr insert []

def round (r : CouplingRow α) : CouplingRow α := { r with value := Rounding.toPlaces reportPlaces r.value }

end CouplingRow

/-- The pairs with a positive value, sorted. -/
def CouplingMap.positiveRows (coupling : CouplingMap α) : List (CouplingRow α) :=
  CouplingRow.sort ((coupling.entries.filter fun e => decide (0 < e.2)).map fun e => ⟨e.1.1, e.1.2, e.2⟩)

/-! ## Clusters and merges -/

namespace Clustering

def summary (c : Clustering α) (k : Cluster α) : ClusterSummary α where
  id := k.id
  classes := k.names
  size := k.size
  mergeCoupling := Rounding.toPlaces reportPlaces k.mergeCoupling
  cohesion := Rounding.toPlaces reportPlaces (c.cohesion k)
  children :=
    match c.children k with
    | none => []
    | some (left, right) => [left.names, right.names]

/-- The clusters at top level. -/
def summaries (c : Clustering α) : List (ClusterSummary α) := c.clusters.map c.summary

/-- The merges in their order, numbered from one. -/
def entries (c : Clustering α) : List (HistoryEntry α) :=
  c.history.mapIdx fun i m =>
    ⟨i + 1, m.first.names, m.second.names, Rounding.toPlaces reportPlaces m.coupling, m.result.names⟩

end Clustering

/-! ## The report -/

/-- Reports on a clustering. Without a cap every cluster at top level may be selected. -/
def Report.of (g : CallGraph) (c : Clustering α) (threshold : α) (maxSelected : Option Int) :
    Except ReportError (Report α) := do
  let cap : Int := maxSelected.getD c.active.length
  let classCoupling ← g.relationMatrix.classCoupling.mapError ReportError.account
  let leafOrder ← c.leafOrder.mapError ReportError.layout
  .ok {
    classCount := g.size
    totalRelations := g.totalRelations
    coupling := c.coupling.positiveRows.map CouplingRow.round
    classCoupling
    clusters := c.summaries
    history := c.entries
    modules := (c.modulesAtThreshold threshold).map NameSet.toList
    selectedModules := (c.coupling.selectModules c.clusters cap threshold).map Cluster.names
    leafOrder }

/-- What a decomposition depends on besides the call graph. -/
structure Parameters (α : Type) where
  minCoupling : α
  maxModules : Int
  threshold : α
  maxSelected : Option Int

/-- A run with its report. -/
structure Decomposition (α : Type) where
  run : Run α
  report : Report α

def decompose (g : CallGraph) (p : Parameters α) : Except ReportError (Decomposition α) := do
  let run := Clustering.run ⟨p.minCoupling, p.maxModules⟩ g.normalizedCoupling
  let report ← Report.of g run.clustering p.threshold p.maxSelected
  .ok ⟨run, report⟩

end CouplingTree
