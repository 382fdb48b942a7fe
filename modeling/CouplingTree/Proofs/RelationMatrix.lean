import Mathlib.Algebra.BigOperators.Ring.Finset
import Mathlib.Algebra.BigOperators.Group.List.Basic
import CouplingTree.ClassCoupling
import CouplingTree.Proofs.Relations

/-!
# The cells of a relation matrix

* `RelationMatrix.count?_eq_some_iff` : the entry for a caller and a callee is the cell of the two.
* `CallGraph.cells_relationMatrix` : the matrix of a call graph has a cell for each pair with relations, with their number.
* `CallGraph.mem_keys_relationMatrix` : a class has a row when it is the caller of a cell.
* `CallGraph.sum_cells_relationMatrix` : the cells add up to all relations.

What the accounts of the classes hold after all cells are booked.

* `RelationMatrix.balance_foldl_post` : the balance of a class is the sum of what is booked to it.
* `RelationMatrix.efferent_eq`, `RelationMatrix.afferent_eq` : so it is the sum of the cells of a caller or of a callee.
* `RelationMatrix.mem_participants` : a class has an account when it is the caller or the callee of a cell.
* `RelationMatrix.classCoupling_eq_of_perm` : the accounts depend on which cells there are, not on their order.
-/

namespace CouplingTree

/-- What a filter takes out adds nothing, if it is all zero. -/
theorem sum_filter_ne_zero {β : Type} (f : β → Nat) (l : List β) :
    ((l.filter fun x => decide (f x ≠ 0)).map f).sum = (l.map f).sum := by
  induction l with
  | nil => rfl
  | cons x l ih =>
    by_cases h : f x = 0
    · rw [List.filter_cons_of_neg (by simpa using h), ih, List.map_cons, List.sum_cons, h, Nat.zero_add]
    · rw [List.filter_cons_of_pos (by simpa using h), List.map_cons, List.map_cons, List.sum_cons, List.sum_cons, ih]

theorem flatMap_filter_of_nil {β γ : Type} {f : β → List γ} {test : β → Bool} :
    ∀ {l : List β}, (∀ x ∈ l, test x = false → f x = []) → (l.filter test).flatMap f = l.flatMap f
  | [], _ => rfl
  | x :: l, h => by
    obtain ⟨hx, hl⟩ := List.forall_mem_cons.1 h
    cases htest : test x with
    | true => rw [List.filter_cons_of_pos htest, List.flatMap_cons, List.flatMap_cons, flatMap_filter_of_nil hl]
    | false =>
      rw [List.filter_cons_of_neg (Bool.eq_false_iff.1 htest), List.flatMap_cons, hx htest, List.nil_append,
        flatMap_filter_of_nil hl]

namespace RelationMatrix

/-- The entry for a caller and a callee. -/
def count? (matrix : RelationMatrix) (p : String × String) : Option Int := CouplingMap.Rows.find? matrix p

theorem count?_eq_some_iff {matrix : RelationMatrix} {a b : String} {n : Int} :
    matrix.count? (a, b) = some n ↔ (a, b, n) ∈ matrix.cells := by
  rw [count?, CouplingMap.Rows.find?, Option.bind_eq_some_iff, cells, List.mem_flatMap]
  constructor
  · rintro ⟨row, hrow, hcell⟩
    refine ⟨(a, row), (matrix.find?_eq_some_iff a row).1 hrow, ?_⟩
    exact List.mem_map_of_mem ((row.find?_eq_some_iff b n).1 hcell)
  · rintro ⟨⟨a', row⟩, hrow, hcell⟩
    obtain ⟨cell, hcell, e⟩ := List.mem_map.1 hcell
    cases e
    exact ⟨row, (matrix.find?_eq_some_iff _ row).2 hrow, (row.find?_eq_some_iff _ _).2 hcell⟩

end RelationMatrix

namespace CallGraph

variable (g : CallGraph)

theorem relationCount_pos_iff {a b : String} : 0 < g.relationCount a b ↔ ∃ name ∈ g.called a, name ∈ g.declared b := by
  rw [relationCount, NameSet.sharedCount, List.countP_pos_iff]
  simp only [decide_eq_true_iff]
  rfl

theorem entries_relationRow (a : String) :
    (g.relationRow a).entries =
      ((g.others a).filter fun b => decide (g.relationCount a b ≠ 0)).map fun b => (b, (g.relationCount a b : Int)) := by
  refine OrderedMap.entries_ofList ?_
  rw [List.map_map]
  exact (((g.nodup_names.filter _).filter _).map fun _ _ e => e)

theorem entries_relationMatrix :
    g.relationMatrix.entries = (g.names.map fun a => (a, g.relationRow a)).filter fun row => decide (row.2.size ≠ 0) := by
  refine OrderedMap.entries_ofList ((List.filter_sublist.map Prod.fst).nodup ?_)
  rw [List.map_map]
  exact g.nodup_names.map fun _ _ e => e

/-- The rows that are left out have no cells. -/
theorem cells_relationMatrix :
    g.relationMatrix.cells =
      (g.pairs.filter fun p => decide (g.relationCount p.1 p.2 ≠ 0)).map fun p => (p.1, p.2, (g.relationCount p.1 p.2 : Int)) := by
  rw [RelationMatrix.cells, entries_relationMatrix, flatMap_filter_of_nil, List.flatMap_map, pairs, List.filter_flatMap,
    List.map_flatMap]
  · refine List.flatMap_congr fun a _ => ?_
    rw [entries_relationRow, List.filter_map, List.map_map, List.map_map]
    rfl
  · intro row _ htest
    have hsize : row.2.entries.length = 0 := by simpa [OrderedMap.size] using htest
    rw [List.length_eq_zero_iff.1 hsize, List.map_nil]

theorem cells_relationMatrix_nonneg : ∀ cell ∈ g.relationMatrix.cells, 0 ≤ cell.2.2 := by
  rw [cells_relationMatrix]
  exact List.forall_mem_map.2 fun p _ => Int.natCast_nonneg _

/-- A class has a row when it is the caller of a cell. -/
theorem mem_keys_relationMatrix (a : String) :
    a ∈ g.relationMatrix.keys ↔ ∃ cell ∈ g.relationMatrix.cells, cell.1 = a := by
  rw [OrderedMap.keys, RelationMatrix.cells]
  constructor
  · intro ha
    obtain ⟨row, hrow, rfl⟩ := List.mem_map.1 ha
    have hsize : row.2.size ≠ 0 := by
      rw [entries_relationMatrix] at hrow
      exact of_decide_eq_true (List.mem_filter.1 hrow).2
    obtain ⟨cell, hcell⟩ := List.exists_mem_of_length_pos (Nat.pos_of_ne_zero hsize)
    exact ⟨(row.1, cell), List.mem_flatMap.2 ⟨row, hrow, List.mem_map_of_mem hcell⟩, rfl⟩
  · rintro ⟨cell, hcell, rfl⟩
    obtain ⟨row, hrow, hcell⟩ := List.mem_flatMap.1 hcell
    obtain ⟨_, -, rfl⟩ := List.mem_map.1 hcell
    exact List.mem_map_of_mem hrow

theorem count?_relationMatrix {a b : String} {n : Int} :
    g.relationMatrix.count? (a, b) = some n ↔
      ((a, b) ∈ g.pairs ∧ 0 < g.relationCount a b) ∧ n = (g.relationCount a b : Int) := by
  rw [RelationMatrix.count?_eq_some_iff, cells_relationMatrix, List.mem_map]
  constructor
  · rintro ⟨p, hp, e⟩
    cases e
    obtain ⟨hp, hne⟩ := List.mem_filter.1 hp
    exact ⟨⟨hp, Nat.pos_of_ne_zero (of_decide_eq_true hne)⟩, rfl⟩
  · rintro ⟨⟨hp, hpos⟩, rfl⟩
    exact ⟨(a, b), List.mem_filter.2 ⟨hp, decide_eq_true (Nat.ne_of_gt hpos)⟩, rfl⟩

theorem sum_cells_relationMatrix :
    (g.relationMatrix.cells.map fun cell => cell.2.2).sum = (g.totalRelations : Int) := by
  have hcast : (g.relationMatrix.cells.map fun cell => cell.2.2) =
      ((g.pairs.filter fun p => decide (g.relationCount p.1 p.2 ≠ 0)).map fun p => g.relationCount p.1 p.2).map
        fun n : Nat => (n : Int) := by
    rw [cells_relationMatrix, List.map_map, List.map_map]
    rfl
  rw [hcast, ← Nat.cast_list_sum, sum_filter_ne_zero, totalRelations_eq]

end CallGraph

end CouplingTree

namespace CouplingTree.RelationMatrix

/-! ## Balances -/

/-- What is on the account of a class; nothing, where there is none. -/
def balance (accounts : OrderedMap String Int) (c : String) : Int := (accounts.find? c).getD 0

theorem balance_post (accounts : OrderedMap String Int) (d c : String) (n : Int) :
    balance (post accounts d n) c = balance accounts c + if d = c then n else 0 := by
  unfold balance post
  rw [OrderedMap.find?_insert]
  by_cases h : c = d
  · rw [if_pos h, if_pos h.symm, h]
    rfl
  · rw [if_neg h, if_neg (Ne.symm h), add_zero]

section Booking

variable {β : Type} (cls : β → String) (count : β → Int)

theorem balance_foldl_post (c : String) (items : List β) (accounts : OrderedMap String Int) :
    balance (items.foldl (fun accounts x => post accounts (cls x) (count x)) accounts) c =
      balance accounts c + ((items.filter fun x => decide (cls x = c)).map count).sum := by
  induction items generalizing accounts with
  | nil => simp
  | cons x items ih =>
    rw [List.foldl_cons, ih, balance_post, add_assoc]
    by_cases h : cls x = c
    · rw [if_pos h, List.filter_cons_of_pos (by simpa using h), List.map_cons, List.sum_cons]
    · rw [if_neg h, List.filter_cons_of_neg (by simpa using h), zero_add]

theorem mem_keys_foldl_post {c : String} (items : List β) (accounts : OrderedMap String Int) :
    c ∈ (items.foldl (fun accounts x => post accounts (cls x) (count x)) accounts).keys ↔
      c ∈ accounts.keys ∨ ∃ x ∈ items, cls x = c := by
  induction items generalizing accounts with
  | nil => simp
  | cons x items ih =>
    have hpost : c ∈ (post accounts (cls x) (count x)).keys ↔ c ∈ accounts.keys ∨ cls x = c := by
      unfold post
      rw [OrderedMap.keys_insert]
      split
      · next h => exact ⟨Or.inl, fun hc => hc.elim id fun e => e ▸ h⟩
      · rw [List.mem_append, List.mem_singleton, eq_comm (a := c)]
    simp only [List.foldl_cons, ih, hpost, or_assoc, List.mem_cons, exists_eq_or_imp]

end Booking

/-! ## Callers and callees -/

variable (matrix : RelationMatrix) {matrix' : RelationMatrix} {c : String}

theorem efferent_eq (c : String) :
    balance matrix.efferents c = ((matrix.cells.filter fun cell => decide (cell.1 = c)).map fun cell => cell.2.2).sum := by
  rw [efferents, balance_foldl_post]
  exact zero_add _

theorem afferent_eq (c : String) :
    balance matrix.afferents c = ((matrix.cells.filter fun cell => decide (cell.2.1 = c)).map fun cell => cell.2.2).sum := by
  rw [afferents, balance_foldl_post (fun cell : String × String × Int => cell.2.1)]
  exact zero_add _

theorem balance_nonneg (h : ∀ cell ∈ matrix.cells, 0 ≤ cell.2.2) (c : String) :
    0 ≤ balance matrix.afferents c ∧ 0 ≤ balance matrix.efferents c := by
  rw [afferent_eq, efferent_eq]
  constructor
  all_goals
    refine List.sum_nonneg fun n hn => ?_
    obtain ⟨cell, hcell, rfl⟩ := List.mem_map.1 hn
    exact h cell (List.mem_filter.1 hcell).1

theorem mem_participants : c ∈ matrix.participants ↔ ∃ cell ∈ matrix.cells, cell.1 = c ∨ cell.2.1 = c := by
  have hnone : c ∉ (OrderedMap.empty : OrderedMap String Int).keys := List.not_mem_nil
  rw [participants, NameSet.mem_ofList, List.mem_append, afferents, efferents,
    mem_keys_foldl_post (fun cell : String × String × Int => cell.2.1), mem_keys_foldl_post, or_iff_right hnone,
    or_iff_right hnone, ← exists_or]
  refine exists_congr fun cell => ?_
  rw [← and_or_left]
  exact and_congr_right' or_comm

variable {matrix}

theorem efferents_eq_of_perm (h : matrix.cells.Perm matrix'.cells) (c : String) :
    balance matrix.efferents c = balance matrix'.efferents c := by
  rw [efferent_eq, efferent_eq]
  exact ((h.filter _).map _).sum_eq

theorem afferents_eq_of_perm (h : matrix.cells.Perm matrix'.cells) (c : String) :
    balance matrix.afferents c = balance matrix'.afferents c := by
  rw [afferent_eq, afferent_eq]
  exact ((h.filter _).map _).sum_eq

theorem participants_eq_of_perm (h : matrix.cells.Perm matrix'.cells) : matrix.participants = matrix'.participants := by
  refine NameSet.ext_mem fun c => ?_
  rw [mem_participants, mem_participants]
  exact exists_congr fun cell => and_congr_left' h.mem_iff

theorem classCoupling_eq_of_perm {α : Type} [Scalar α] [Rounding α] (h : matrix.cells.Perm matrix'.cells) :
    (matrix.classCoupling : Except AccountError (List (String × ClassCoupling α))) = matrix'.classCoupling := by
  have hafferent := afferents_eq_of_perm h
  have hefferent := efferents_eq_of_perm h
  unfold balance at hafferent hefferent
  unfold classCoupling
  rw [participants_eq_of_perm h]
  simp only [hafferent, hefferent]

end CouplingTree.RelationMatrix
