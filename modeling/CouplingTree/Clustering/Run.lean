import CouplingTree.Clustering.Basic

/-!
# Agglomerative clustering

`Clustering.run` starts with one cluster for each class and joins the two most coupled clusters again and again: the
first pair with the greatest mean coupling, if it is positive. It stops when few enough clusters are left, when no two of
them couple, or when the best coupling is below a minimum.

`next` says what comes after a clustering, `advance` makes the steps; the events tell what each step did.
-/

namespace CouplingTree

variable {α : Type} [Scalar α]

/-- The pairs of items at different places, the earlier one first, in lexicographic order of their places. -/
def pairsOf {β : Type} : List β → List (β × β)
  | [] => []
  | x :: rest => rest.map (fun y => (x, y)) ++ pairsOf rest

namespace Lookup

/-- Keeps the best pair so far with its coupling, unless a pair couples more. -/
def better (value? : Lookup α) (best : Option (Cluster α × Cluster α) × α) (pair : Cluster α × Cluster α) :
    Option (Cluster α × Cluster α) × α :=
  let value := value?.between pair.1.members pair.2.members
  if best.2 < value then (some pair, value) else best

/-- The first pair with the greatest coupling above zero. -/
def mostCoupled? (value? : Lookup α) (clusters : List (Cluster α)) : Option (Cluster α × Cluster α) :=
  ((pairsOf clusters).foldl value?.better (none, 0)).1

end Lookup

/-- When to stop joining clusters. -/
structure StopRule (α : Type) where
  /-- The least coupling of a merge. -/
  minCoupling : α
  /-- So many clusters are few enough; one always is. -/
  maxModules : Int

/-- What a step of a run did. -/
inductive Event (α : Type)
  | merged (merge : Merge α)
  | stopped (best minimum : α)

/-- The line that reports an event. -/
def Event.line [Rounding α] : Event α → String
  | merged m => "  " ++ m.describe
  | stopped best minimum =>
    "  Stop: best coupling " ++ Rounding.fixedText 3 best ++ " < " ++ Rounding.fixedText 3 minimum

/-- A clustering with the events that led to it. -/
structure Run (α : Type) where
  clustering : Clustering α
  events : List (Event α)

def Run.log [Rounding α] (r : Run α) : String := String.join (r.events.map fun e => e.line ++ "\n")

/-- Puts an event in front of those of a run. -/
def Run.after (event : Event α) (r : Run α) : Run α := { r with events := event :: r.events }

namespace Clustering

/-- One cluster for each class of a coupling map. -/
def initial (coupling : CouplingMap α) : Clustering α :=
  let leaves := coupling.classes.mapIdx fun i c => Cluster.leaf i c
  { coupling, arena := leaves, active := List.range leaves.length, history := [] }

/-- The merge of two clusters into a new one. -/
def mergeOf (c : Clustering α) (first second : Cluster α) (value : α) : Merge α where
  first := first
  second := second
  coupling := value
  result :=
    { id := c.arena.length, members := first.members.union second.members, children := some (first.id, second.id),
      mergeCoupling := value }

/-- Puts the result of a merge in the place of its two parts. -/
def apply (c : Clustering α) (m : Merge α) : Clustering α :=
  { c with
    arena := c.arena ++ [m.result]
    active := (c.active.erase m.first.id).erase m.second.id ++ [m.result.id]
    history := c.history ++ [m] }

/-- What comes after a clustering. -/
inductive Next (α : Type)
  | enough
  | uncoupled
  | weak (best : α)
  | join (merge : Merge α)

def next (value? : Lookup α) (rule : StopRule α) (c : Clustering α) : Next α :=
  if (c.active.length : Int) ≤ rule.maxModules ∨ c.active.length ≤ 1 then .enough
  else
    match value?.mostCoupled? c.clusters with
    | none => .uncoupled
    | some (first, second) =>
      let value := value?.between first.members second.members
      if value < rule.minCoupling then .weak value else .join (c.mergeOf first second value)

/-- Makes steps until one stops, at most `fuel` of them. -/
def advance (value? : Lookup α) (rule : StopRule α) : Nat → Clustering α → Run α
  | 0, c => ⟨c, []⟩
  | fuel + 1, c =>
    match c.next value? rule with
    | .enough => ⟨c, []⟩
    | .uncoupled => ⟨c, []⟩
    | .weak best => ⟨c, [.stopped best rule.minCoupling]⟩
    | .join m => (advance value? rule fuel (c.apply m)).after (.merged m)

/-- The run from single classes on. Each merge leaves one cluster less, so there are fewer steps than classes. -/
def run (rule : StopRule α) (coupling : CouplingMap α) : Run α :=
  let start := initial coupling
  advance (CouplingMap.Rows.find? coupling.rows) rule start.active.length start

end Clustering

end CouplingTree
