import CouplingTree.Proofs.Clustering.LeafOrder
import CouplingTree.Proofs.Clustering.Trees

/-!
# The drawing of the trees

A drawing is made with a stack of branches. It is the recursion over the trees, in which the parts of a cluster stand four blanks
further to the right.

* `Branch.lines_eq` : the lines of a branch are the caption of its cluster, indented.
* `lines_grow` : below a branch the stack gives the lines that the recursion gives.
* `dendrogramLines_eq_sketch` : so the drawing consists of a sketch for each cluster at top level.
* `Forest.trunks_pops_iff` : work on the branches ends with an empty stack, and takes the branches of the drawing off.
* `run_drawn` : all this of the clustering that a run ends with, where each cluster of the arena is drawn once.
-/

namespace CouplingTree

variable {α : Type} [Rounding α]

/-- What a drawing tells about a cluster. -/
def Cluster.caption (heading : String) (k : Cluster α) : List String :=
  [heading, "  Classes: " ++ quotedList k.names, "  Coupling: " ++ Rounding.fixedText 3 k.mergeCoupling]

/-- A tree of clusters by recursion: first the cluster on top, then its left part and then its right one, both indented. -/
def BinaryTree.sketch (heading : String) : BinaryTree (Cluster α) → List String
  | leaf k => k.caption heading
  | node k left right => k.caption heading ++
      ((left.sketch "Left sub-cluster:" ++ right.sketch "Right sub-cluster:").map fun line => "    " ++ line)

theorem BinaryTree.sketch_leaf (heading : String) (k : Cluster α) : (leaf k).sketch heading = k.caption heading := rfl

namespace Branch

variable {c : Clustering α} {b : Branch α}

omit [Rounding α] in
theorem indent_succ (k : Cluster α) (d : Nat) (heading : String) :
    (⟨k, d + 1, heading⟩ : Branch α).indent = String.ofList (List.replicate (4 * d) ' ') ++ "    " := by
  rw [indent, Nat.mul_succ, List.replicate_add, String.ofList_append]
  rfl

theorem lines_eq (b : Branch α) : b.lines = (b.cluster.caption b.heading).map fun line => b.indent ++ line := by
  simp only [lines, Cluster.caption, List.map_cons, List.map_nil, String.append_assoc]

end Branch

namespace Clustering

open CouplingTree.BinaryTree

variable {c : Clustering α}

/-! ## Lines -/

theorem lines_grow (c : Clustering α) (depth : Nat) (b : Branch α) :
    (grow (Branch.parts c) depth b).preorder.flatMap Branch.lines =
      ((grow c.children depth b.cluster).sketch b.heading).map fun line => b.indent ++ line := by
  -- both go down level by level, and the parts of a branch are branches of their own
  induction depth generalizing b with
  | zero => rw [grow, grow, preorder, List.flatMap_singleton, Branch.lines_eq, sketch_leaf]
  | succ depth ih =>
    cases hparts : c.children b.cluster with
    | none =>
      have hbranch : Branch.parts c b = none := by rw [Branch.parts, hparts, Option.map_none]
      rw [grow_of_none hparts, grow_of_none hbranch, preorder, List.flatMap_singleton, Branch.lines_eq, sketch_leaf]
    | some p =>
      obtain ⟨left, right⟩ := p
      have hbranch : Branch.parts c b =
          some (⟨left, b.depth + 1, "Left sub-cluster:"⟩, ⟨right, b.depth + 1, "Right sub-cluster:"⟩) := by
        rw [Branch.parts, hparts, Option.map_some]
      rw [grow_of_some hparts, grow_of_some hbranch, preorder, sketch, List.flatMap_cons, List.flatMap_append, ih, ih,
        Branch.lines_eq]
      simp only [Branch.indent_succ, List.map_append, List.map_map, Function.comp_def, String.append_assoc]
      rfl

theorem dendrogramLines_eq_sketch (c : Clustering α) :
    c.dendrogramLines = "Clustering dendrogram:" ::
      (c.clusters.mapIdx fun i k => (c.tree k).sketch s!"Cluster {i + 1}:").flatten := by
  have htrunk : ∀ (i : Nat) (k : Cluster α), (grow (Branch.parts c) c.arena.length ⟨k, 0, s!"Cluster {i + 1}:"⟩).preorder.flatMap
      Branch.lines = (c.tree k).sketch s!"Cluster {i + 1}:" := by
    intro i k
    -- branches at top level are not indented
    have hindent : (⟨k, 0, s!"Cluster {i + 1}:"⟩ : Branch α).indent = "" := rfl
    rw [lines_grow, hindent, funext fun _ => String.empty_append, List.map_id']
    rfl
  rw [dendrogramLines_eq, branches, Walk.visits_eq, List.flatMap_map, List.flatMap_assoc, trunks, List.mapIdx_eq_zipIdx_map,
    List.mapIdx_eq_zipIdx_map, List.flatMap_map]
  simp only [htrunk]
  rfl

theorem length_lines (b : Branch α) : b.lines.length = 3 := rfl

theorem length_dendrogramLines (c : Clustering α) : c.dendrogramLines.length = 1 + 3 * c.branches.length := by
  rw [dendrogramLines_eq, List.length_cons, List.length_flatMap, List.map_congr_left fun b _ => length_lines b, List.map_const',
    List.sum_replicate_nat]
  omega

/-! ## Branches -/

variable [Scalar α] {coupling : CouplingMap α} {bs : List (Branch α)}

namespace Forest

omit [Rounding α] in
theorem trunks_pops_iff (h : Forest coupling c) : Walk.Pops (Branch.parts c) c.trunks bs ↔ bs = c.branches := by
  refine Walk.pops_iff_visits fun b hb => ?_
  obtain ⟨i, hi, rfl⟩ := List.mem_mapIdx.1 hb
  refine complete_grow (f := Branch.cluster) (fun b => ?_) (h.complete_tree (h.mem_clusters.1 (List.getElem_mem hi)).1)
  rw [Branch.parts, Option.map_map]
  exact Option.map_id'.symm

omit [Rounding α] in
theorem branches_perm (h : Forest coupling c) : (c.branches.map Branch.cluster).Perm c.arena := by
  rw [clusters_branches]
  exact h.preorder_perm

end Forest

/-! ## Runs -/

/-- A drawing is made from complete trees by recursion: each cluster of the arena is drawn once, with three lines of its own. -/
structure DrawsTrees (c : Clustering α) : Prop where
  complete : ∀ k ∈ c.arena, (c.tree k).item = k ∧ (c.tree k).Complete c.children
  pops_iff : ∀ bs, Walk.Pops (Branch.parts c) c.trunks bs ↔ bs = c.branches
  stack : c.dendrogramLines = "Clustering dendrogram:" :: c.branches.flatMap Branch.lines
  recursion : c.dendrogramLines =
    "Clustering dendrogram:" :: (c.clusters.mapIdx fun i k => (c.tree k).sketch s!"Cluster {i + 1}:").flatten
  text : c.dendrogramText = "\n".intercalate c.dendrogramLines
  drawn : (c.branches.map Branch.cluster).Perm c.arena
  once : (c.branches.map Branch.cluster).Nodup
  length : c.dendrogramLines.length = 1 + 3 * c.arena.length

/-- **A run is drawn as its trees.** The trees below the clusters of the arena are complete. Work on the branches of those at top
level ends with an empty stack, and the lines it gives are those of the recursion over the trees, with the title first. -/
theorem run_drawn (rule : StopRule α) (coupling : CouplingMap α) : DrawsTrees (run rule coupling).clustering := by
  have h := forest_run rule coupling
  have hperm := h.branches_perm
  refine ⟨fun k hk => ⟨Forest.item_tree _ k, h.complete_tree hk⟩, fun bs => h.trunks_pops_iff, dendrogramLines_eq _,
    dendrogramLines_eq_sketch _, rfl, hperm, hperm.nodup_iff.2 h.nodup_arena, ?_⟩
  rw [length_dendrogramLines, ← hperm.length_eq, List.length_map]

/-- A chain is drawn as one tree: its last class stands beside the two that are joined first. -/
theorem chain_drawn :
    DrawsTrees (run ⟨0, 1⟩ chain).clustering ∧ (run ⟨0, 1⟩ chain).clustering.dendrogramLines =
      ["Clustering dendrogram:",
        "Cluster 1:", "  Classes: ['A', 'B', 'C']", "  Coupling: 0.250",
        "    Left sub-cluster:", "      Classes: ['C']", "      Coupling: 0.000",
        "    Right sub-cluster:", "      Classes: ['A', 'B']", "      Coupling: 0.500",
        "        Left sub-cluster:", "          Classes: ['A']", "          Coupling: 0.000",
        "        Right sub-cluster:", "          Classes: ['B']", "          Coupling: 0.000"] :=
  ⟨run_drawn ⟨0, 1⟩ chain, by decide +kernel⟩

end Clustering

end CouplingTree
