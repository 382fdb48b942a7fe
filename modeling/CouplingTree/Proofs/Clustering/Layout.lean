import CouplingTree.Clustering.Linkage
import CouplingTree.Proofs.Clustering.Consistency
import CouplingTree.Proofs.Outcomes
import CouplingTree.Proofs.Trees

/-!
# The layout of a run

The linkage of a run shows one tree, so that its leaves can be laid out. It is only a negative distance that may keep
them from it, and numbers of clusters beyond 64 bits. `Layout` is any way to do so, and `LinkageRow.leaves` the one in use.

* `LinkageRow.formedInOrder_iff`, `LinkageRow.allDifferent_iff` : what the checks of the rows decide.
* `LinkageRow.OneTree.leaves_eq` : rows that show one tree have its leaves laid out from left to right.
* `Layout.Accepts`, `Layout.LeftFirst` : what may be relied on of another layout.
* `Forest.oneTree` : the linkage of a forest shows one tree.
* `Forest.leafOrderBy_eq_ok` : hence a forest has an order of its leaves.
-/

namespace CouplingTree

variable {α : Type}

namespace LinkageRow

/-! ## Rows that show one tree -/

/-- Each row joins two leaves or results of rows before it, none of them is joined twice, and none has more leaves below
it than there are. -/
structure OneTree (rows : List (LinkageRow α)) : Prop where
  joined : ∀ (j : Nat) (row : LinkageRow α), rows[j]? = some row → ∃ l r : Nat,
    row.left = some (l : Int) ∧ row.right = some (r : Int) ∧ l < rows.length + 1 + j ∧ r < rows.length + 1 + j
  distinct : (rows.flatMap ids).Nodup
  size_le : ∀ row ∈ rows, row.size ≤ rows.length + 1

theorem formedInOrder_iff : ∀ {rows : List (LinkageRow α)} {next : Nat},
    formedInOrder next rows = true ↔
      ∀ (j : Nat) (row : LinkageRow α), rows[j]? = some row → row.joinsBelow ((next + j : Nat) : Int) = true
  | [], next => by simp [formedInOrder]
  | row :: rest, next => by
    rw [formedInOrder, Bool.and_eq_true, formedInOrder_iff]
    constructor
    · rintro ⟨hrow, hrest⟩ j row' hj
      cases j with
      | zero =>
        cases hj
        exact hrow
      | succ j =>
        rw [← Nat.add_assoc, Nat.add_right_comm]
        exact hrest j row' hj
    · intro h
      refine ⟨h 0 row rfl, fun j row' hj => ?_⟩
      rw [Nat.add_right_comm, Nat.add_assoc]
      exact h (j + 1) row' hj

theorem allDifferent_iff : ∀ {is : List Int}, allDifferent is = true ↔ is.Nodup
  | [] => by simp [allDifferent]
  | i :: is => by
    rw [allDifferent, Bool.and_eq_true, allDifferent_iff, List.nodup_cons]
    simp

variable {rows : List (LinkageRow α)}

/-- The two clusters that the row of a cluster joins; leaves have no row. -/
def parts (rows : List (LinkageRow α)) (id : Nat) : Option (Nat × Nat) :=
  if id ≤ rows.length then none
  else
    (rows[id - (rows.length + 1)]?).bind fun row =>
      row.left.bind fun left => row.right.map fun right => (left.toNat, right.toNat)

/-- The tree that rows show, from the result of the last one down. On no way are there more clusters than rows and a leaf. -/
def tree (rows : List (LinkageRow α)) : BinaryTree Nat := .grow (parts rows) (rows.length + 1) (2 * rows.length)

theorem parts_of_le {id : Nat} (h : id ≤ rows.length) : parts rows id = none := if_pos h

theorem parts_of_row {id l r : Nat} {row : LinkageRow α} (h : rows.length < id)
    (hrow : rows[id - (rows.length + 1)]? = some row) (hl : row.left = some (l : Int)) (hr : row.right = some (r : Int)) :
    parts rows id = some (l, r) := by
  rw [parts, if_neg (Nat.not_le.2 h), hrow, Option.bind_some, hl, Option.bind_some, hr]
  rfl

namespace OneTree

theorem ids_nonneg (h : OneTree rows) {row : LinkageRow α} (hrow : row ∈ rows) : ∀ id ∈ row.ids, 0 ≤ id := by
  obtain ⟨j, hj⟩ := List.mem_iff_getElem?.1 hrow
  obtain ⟨l, r, hl, hr, -⟩ := h.joined j row hj
  intro id hid
  rw [ids, hl, hr] at hid
  rcases List.mem_cons.1 hid with rfl | hid
  · exact Int.natCast_nonneg l
  · rw [List.mem_singleton.1 hid]
    exact Int.natCast_nonneg r

theorem formedInOrder (h : OneTree rows) : LinkageRow.formedInOrder (rows.length + 1) rows = true := by
  rw [formedInOrder_iff]
  intro j row hj
  obtain ⟨l, r, hl, hr, hlj, hrj⟩ := h.joined j row hj
  rw [joinsBelow, hl, hr]
  exact decide_eq_true ⟨Int.ofNat_lt.2 hlj, Int.ofNat_lt.2 hrj⟩

theorem fault?_eq_none [Scalar α] (h : OneTree rows) (hdist : ∀ row ∈ rows, ¬ row.distance < 0) : fault? rows = none := by
  unfold fault?
  split
  · rfl
  rw [if_neg, if_neg, if_neg, if_neg, if_neg]
  · rw [allDifferent_iff.2 h.distinct]
    decide
  · rw [h.formedInOrder]
    decide
  · rw [List.any_eq_true]
    rintro ⟨row, hrow, hsize⟩
    exact Nat.not_lt.2 (h.size_le row hrow) (of_decide_eq_true hsize)
  · rw [List.any_eq_true]
    rintro ⟨row, hrow, hneg⟩
    exact hdist row hrow (of_decide_eq_true hneg)
  · rw [List.any_eq_true]
    rintro ⟨row, hrow, hneg⟩
    obtain ⟨id, hid, hneg⟩ := List.any_eq_true.1 hneg
    exact Int.not_lt.2 (h.ids_nonneg hrow id hid) (of_decide_eq_true hneg)

theorem fitting_eq {id : Nat} (h : id < numberBound) : fitting (some (id : Int)) = some (id : Int) := by
  unfold fitting
  rw [Option.filter_some, if_pos (decide_eq_true ?_)]
  omega

theorem rowOf_eq_ok (rows : List (LinkageRow α)) {id : Nat} (hlow : rows.length < id) (hhigh : id ≤ 2 * rows.length) :
    ∃ row, rows[id - (rows.length + 1)]? = some row ∧ leavesBelow.rowOf rows id = .ok row := by
  have hlt : id - (rows.length + 1) < rows.length := by omega
  refine ⟨rows[id - (rows.length + 1)], List.getElem?_eq_getElem hlt, ?_⟩
  rw [leavesBelow.rowOf, List.getElem?_eq_getElem hlt]

theorem checkRow_eq_ok {id : Nat} (h : id ≤ 2 * rows.length) : leavesBelow.checkRow rows (some (id : Int)) = .ok () := by
  unfold leavesBelow.checkRow
  dsimp only
  split
  · rfl
  · obtain ⟨row, -, hrow⟩ := rowOf_eq_ok rows (by omega) h
    rw [Int.toNat_natCast, hrow]
    rfl

/-- The rows lead downwards, so that on the way down from a cluster there are no more of them than lie below it. -/
theorem leavesBelow_eq (h : OneTree rows) (hbound : 2 * rows.length ≤ numberBound) (fuel id : Nat)
    (hid : id ≤ 2 * rows.length) (hfuel : id < rows.length + fuel) (hpos : 0 < fuel) :
    leavesBelow rows fuel (some (id : Int)) = .ok (BinaryTree.grow (parts rows) fuel id).leaves := by
  induction fuel generalizing id with
  | zero => exact absurd hpos (Nat.lt_irrefl 0)
  | succ fuel ih =>
    rw [leavesBelow, if_neg (by omega), if_neg (by omega)]
    split
    · next hleaf =>
      rw [BinaryTree.grow_of_none (parts_of_le (by omega))]
      rfl
    · next hleaf =>
      obtain ⟨row, hat, hrow⟩ := rowOf_eq_ok rows (by omega) hid
      obtain ⟨l, r, hl, hr, hlj, hrj⟩ := h.joined _ row hat
      rw [BinaryTree.grow_of_some (parts_of_row (by omega) hat hl hr), BinaryTree.leaves, Int.toNat_natCast, hrow]
      simp only [bind, Except.bind]
      rw [hl, hr, fitting_eq (by omega), fitting_eq (by omega), checkRow_eq_ok (by omega), checkRow_eq_ok (by omega),
        ih l (by omega) (by omega) (by omega), ih r (by omega) (by omega) (by omega)]

theorem leaves_eq [Scalar α] (h : OneTree rows) (hdist : ∀ row ∈ rows, ¬ row.distance < 0)
    (hbound : 2 * rows.length ≤ numberBound) : leaves rows = .ok (tree rows).leaves := by
  rw [leaves, h.fault?_eq_none hdist]
  exact h.leavesBelow_eq hbound _ (2 * rows.length) (Nat.le_refl _) (by omega) (Nat.succ_pos _)

end OneTree

end LinkageRow

/-! ## Other layouts -/

/-- A way to put the leaves of the tree that rows show in order. -/
abbrev Layout (α : Type) := List (LinkageRow α) → Except LayoutError (List Nat)

namespace Layout

variable [Scalar α]

/-- Rows that show one tree are laid out, if there are any and no distance is negative. -/
def Accepts (layout : Layout α) : Prop :=
  ∀ rows, rows ≠ [] → LinkageRow.OneTree rows → (∀ row ∈ rows, ¬ row.distance < 0) → ∃ places, layout rows = .ok places

/-- The leaves of such rows are those of the tree from left to right. -/
def LeftFirst (layout : Layout α) : Prop :=
  ∀ rows, rows ≠ [] → LinkageRow.OneTree rows → (∀ row ∈ rows, ¬ row.distance < 0) →
    layout rows = .ok (LinkageRow.tree rows).leaves

theorem LeftFirst.accepts {layout : Layout α} (h : layout.LeftFirst) : layout.Accepts :=
  fun rows hne htree hdist => ⟨_, h rows hne htree hdist⟩

end Layout

namespace Clustering

variable [Scalar α] {coupling : CouplingMap α} {c : Clustering α}

/-- The classes in the order in which a layout puts the leaves; none, when there is no single tree. -/
def leafOrderBy (layout : Layout α) (c : Clustering α) : Except LayoutError (List String) :=
  match c.linkage with
  | .error _ => .ok []
  | .ok rows => do
    let names ← c.leafNames
    let places ← layout rows
    .ok (places.filterMap fun i => names[i]?)

theorem leafOrderBy_leaves (c : Clustering α) : c.leafOrderBy LinkageRow.leaves = c.leafOrder := rfl

/-! ## The linkage of a forest -/

theorem linkage_eq_ok_iff {rows : List (LinkageRow α)} :
    c.linkage = .ok rows ↔ 2 ≤ c.leafCount ∧ c.history.length + 1 = c.leafCount ∧ rows = c.history.map Merge.row := by
  unfold linkage
  dsimp only
  split
  · next h =>
    refine ⟨fun e => (by cases e), fun e => ?_⟩
    omega
  · next h =>
    rw [not_or, Nat.not_lt, Decidable.not_not] at h
    exact ⟨fun e => ⟨h.1, h.2, (Except.ok.inj e).symm⟩, fun e => by rw [e.2.2]⟩

namespace Forest

theorem leafCount_eq (h : Forest coupling c) : c.leafCount = coupling.classes.length := by
  have hleaves : ∀ k ∈ leaves coupling, k.isLeaf = true := fun k hk => by
    obtain ⟨i, cls, -, rfl⟩ := mem_leaves.1 hk
    rfl
  have hresults : ∀ k ∈ c.history.map Merge.result, ¬ k.isLeaf = true := fun k hk => by
    obtain ⟨m, hm, rfl⟩ := List.mem_map.1 hk
    rw [Cluster.isLeaf, (h.joins m hm).children_eq]
    exact Bool.false_ne_true
  rw [leafCount, h.arena_eq, List.countP_append, List.countP_eq_length.2 hleaves, List.countP_eq_zero.2 hresults,
    length_leaves, Nat.add_zero]

theorem row_ids (h : Forest coupling c) {m : Merge α} (hm : m ∈ c.history) :
    m.row.ids = m.result.parts.map fun i : Nat => (i : Int) := by
  have hj := h.joins m hm
  rw [hj.parts_eq, LinkageRow.ids, Merge.row, hj.children_eq]
  rfl

/-- The rows join what is a part of a cluster of the arena. -/
theorem flatMap_row_ids (h : Forest coupling c) :
    (c.history.map Merge.row).flatMap LinkageRow.ids = (c.arena.flatMap Cluster.parts).map fun i : Nat => (i : Int) := by
  rw [h.arena_eq, List.flatMap_append, leaves_parts, List.nil_append, List.flatMap_map, List.flatMap_map, List.map_flatMap]
  exact List.flatMap_congr fun m hm => h.row_ids hm

theorem size_le (h : Forest coupling c) {k : Cluster α} (hk : k ∈ c.arena) : k.size ≤ coupling.classes.length :=
  (List.subperm_of_subset k.members.nodup (h.mem_classes_of_mem hk)).length_le

theorem oneTree (h : Forest coupling c) {rows : List (LinkageRow α)} (hrows : c.linkage = .ok rows) :
    LinkageRow.OneTree rows := by
  obtain ⟨-, hlen, rfl⟩ := linkage_eq_ok_iff.1 hrows
  rw [h.leafCount_eq] at hlen
  refine ⟨?_, ?_, ?_⟩
  · intro j row hj
    rw [List.getElem?_map, Option.map_eq_some_iff] at hj
    obtain ⟨m, hm, rfl⟩ := hj
    have hid := h.result_id hm
    have hjoins := h.joins m (List.mem_of_getElem? hm)
    have hfirst := hjoins.first_lt
    have hsecond := hjoins.second_lt
    refine ⟨m.first.id, m.second.id, ?_, ?_, ?_, ?_⟩
    · rw [Merge.row, hjoins.children_eq]
      rfl
    · rw [Merge.row, hjoins.children_eq]
      rfl
    all_goals
      rw [List.length_map]
      omega
  · have hparts := (List.nodup_append.1 (h.accounted.nodup_iff.2 List.nodup_range)).2.1
    rw [h.flatMap_row_ids]
    exact hparts.map fun _ _ e => Int.ofNat_inj.1 e
  · intro row hrow
    obtain ⟨m, hm, rfl⟩ := List.mem_map.1 hrow
    rw [List.length_map, hlen]
    refine h.size_le ?_
    rw [h.arena_eq]
    exact List.mem_append_right _ (List.mem_map_of_mem hm)

theorem length_rows (h : Forest coupling c) {rows : List (LinkageRow α)} (hrows : c.linkage = .ok rows) :
    rows.length + 1 = coupling.classes.length := by
  obtain ⟨-, hlen, rfl⟩ := linkage_eq_ok_iff.1 hrows
  rw [List.length_map, hlen, h.leafCount_eq]

theorem rows_ne_nil (h : Forest coupling c) {rows : List (LinkageRow α)} (hrows : c.linkage = .ok rows) : rows ≠ [] := by
  have hlength := h.length_rows hrows
  have htwo := (linkage_eq_ok_iff.1 hrows).1
  rw [h.leafCount_eq] at htwo
  exact List.ne_nil_of_length_pos (by omega)

theorem leafNames_eq (h : Forest coupling c) : c.leafNames = .ok coupling.classes := by
  have hleaf : ∀ k ∈ leaves coupling, k.names = [k.names.headI] := fun k hk => by
    obtain ⟨i, cls, -, rfl⟩ := mem_leaves.1 hk
    rfl
  have hnames : (leaves coupling).map (fun k => k.names.headI) = coupling.classes := by
    rw [← leaves_names, List.map_eq_flatMap]
    exact (List.flatMap_congr hleaf).symm
  rw [leafNames, h.leafCount_eq, h.arena_eq, ← length_leaves, List.take_left, ← hnames]
  refine mapM_eq_ok_map fun k hk => ?_
  rw [hleaf k hk]
  rfl

/-- The leaves of a forest have an order if its rows are laid out. -/
theorem leafOrderBy_eq_ok (h : Forest coupling c) {layout : Layout α}
    (hlayout : ∀ rows, c.linkage = .ok rows → ∃ places, layout rows = .ok places) :
    ∃ order, c.leafOrderBy layout = .ok order := by
  unfold leafOrderBy
  split
  · exact ⟨[], rfl⟩
  · next rows hrows =>
    obtain ⟨places, hplaces⟩ := hlayout rows hrows
    refine ⟨places.filterMap fun i => coupling.classes[i]?, ?_⟩
    rw [h.leafNames_eq, hplaces]
    rfl

end Forest

end Clustering

end CouplingTree
