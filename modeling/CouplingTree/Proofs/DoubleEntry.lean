import Mathlib.Algebra.BigOperators.Group.Finset.Basic
import CouplingTree.Proofs.Facts
import CouplingTree.Proofs.Numbers.Accuracy
import CouplingTree.Proofs.Outcomes
import CouplingTree.Proofs.RelationMatrix
import CouplingTree.Report.Document

/-!
# Double entry

Each entry of a relation matrix is booked twice, with its caller and with its callee. So the accounts hold the sums of the
rows and of the columns, and both add up to the sum of all entries. With doubles there are accounts unless a quotient of two
sums is too large for one, which takes counts of both signs.

* `RelationMatrix.efferent_eq_rowSum`, `RelationMatrix.afferent_eq_columnSum` : the two sides of an account.
* `RelationMatrix.sum_rowSum`, `RelationMatrix.sum_columnSum` : what they add up to.
* `RelationMatrix.BookedTwice` : what is known of all accounts; `RelationMatrix.exists_classCoupling_iff` : when there are
  any.
* `ClassCoupling.Measured` : how close an instability is to the quotient that it shows.
* `RelationMatrix.classCoupling_books` : all of this together, and the accounts of a call graph.
-/

namespace CouplingTree

/-! ## Sums by key -/

section Sums

variable {κ β : Type} [DecidableEq κ]

theorem Entries.filter_key {k : κ} : ∀ {es : List (κ × β)}, (es.map Prod.fst).Nodup →
    (es.filter fun e => decide (e.1 = k)) = (find? k es).toList.map fun v => (k, v)
  | [], _ => rfl
  | (k', v) :: rest, h => by
    obtain ⟨hk', hrest⟩ := List.nodup_cons.1 h
    have ih := filter_key (k := k) hrest
    by_cases hk : k' = k
    · subst hk
      rw [find?_eq_none_iff.2 hk'] at ih
      rw [List.filter_cons_of_pos (by simp), ih]
      simp [find?]
    · rw [List.filter_cons_of_neg (by simpa using hk), ih]
      simp [find?, hk]

theorem OrderedMap.sum_filter_key (m : OrderedMap κ β) (k : κ) (f : β → Int) :
    ((m.entries.filter fun e => decide (e.1 = k)).map fun e => f e.2).sum = (m.find? k).elim 0 f := by
  rw [Entries.filter_key m.nodup, List.map_map, OrderedMap.find?]
  cases Entries.find? k m.entries <;> simp

theorem sum_map_ite {γ : Type} (p : γ → Prop) [DecidablePred p] (f : γ → Int) (l : List γ) :
    (l.map fun x => if p x then f x else 0).sum = ((l.filter fun x => decide (p x)).map f).sum := by
  induction l with
  | nil => rfl
  | cons x l ih =>
    rw [List.map_cons, List.sum_cons, ih]
    by_cases h : p x
    · rw [if_pos h, List.filter_cons_of_pos (by simpa using h), List.map_cons, List.sum_cons]
    · rw [if_neg h, List.filter_cons_of_neg (by simpa using h), zero_add]

/-- Items are shared out among keys without loss. -/
theorem sum_map_sum_filter (key : β → κ) (f : β → Int) {keys : List κ} (hkeys : keys.Nodup) {l : List β}
    (h : ∀ x ∈ l, key x ∈ keys) :
    (keys.map fun k => ((l.filter fun x => decide (key x = k)).map f).sum).sum = (l.map f).sum := by
  induction l with
  | nil => simp
  | cons x l ih =>
    obtain ⟨hx, hl⟩ := List.forall_mem_cons.1 h
    have hcons : ∀ k, (((x :: l).filter fun x => decide (key x = k)).map f).sum =
        (if key x = k then f x else 0) + ((l.filter fun x => decide (key x = k)).map f).sum := by
      intro k
      by_cases hk : key x = k
      · rw [List.filter_cons_of_pos (by simpa using hk), List.map_cons, List.sum_cons, if_pos hk]
      · rw [List.filter_cons_of_neg (by simpa using hk), if_neg hk, zero_add]
    -- the item goes to its own key only
    have hone : (keys.map fun k => if key x = k then f x else 0).sum = f x := by
      rw [← List.sum_toFinset _ hkeys, Finset.sum_ite_eq, if_pos (List.mem_toFinset.2 hx)]
    simp only [hcons]
    rw [List.sum_map_add, hone, ih hl, List.map_cons, List.sum_cons]

end Sums

namespace RelationMatrix

variable (matrix : RelationMatrix) (c : String)

/-! ## Rows and columns -/

def rowSum : Int := (matrix.find? c).elim 0 fun row => row.values.sum

def columnSum : Int := (matrix.values.map fun row => (row.find? c).getD 0).sum

def total : Int := (matrix.values.map fun row => row.values.sum).sum

/-- A class occurs as a callee, or as a caller whose row is not empty. -/
def Occurs : Prop := (∃ row ∈ matrix.values, c ∈ row.keys) ∨ ∃ row, matrix.find? c = some row ∧ row.keys ≠ []

/-- Some of the cells, added up row by row. -/
theorem sum_filter_cells (test : String × String × Int → Bool) :
    ((matrix.cells.filter test).map fun cell => cell.2.2).sum =
      (matrix.entries.map fun row => ((row.2.entries.filter fun cell => test (row.1, cell)).map fun cell => cell.2).sum).sum := by
  rw [cells, List.filter_flatMap, List.map_flatMap, List.flatMap_def, List.sum_flatten, List.map_map]
  congr 1
  refine List.map_congr_left fun row _ => ?_
  rw [Function.comp_apply, List.filter_map, List.map_map]
  rfl

theorem sum_cells : (matrix.cells.map fun cell => cell.2.2).sum = matrix.total := by
  have h := matrix.sum_filter_cells fun _ => true
  simp only [List.filter_true] at h
  rw [h, total, OrderedMap.values, List.map_map]
  rfl

theorem efferent_eq_rowSum : balance matrix.efferents c = matrix.rowSum c := by
  have hrow : ∀ row : String × OrderedMap String Int,
      ((row.2.entries.filter fun _ => decide (row.1 = c)).map fun cell => cell.2).sum =
        if row.1 = c then row.2.values.sum else 0 := by
    intro row
    by_cases h : row.1 = c <;> simp [h, OrderedMap.values]
  rw [efferent_eq, sum_filter_cells]
  simp only [hrow]
  rw [sum_map_ite, OrderedMap.sum_filter_key matrix c fun row => row.values.sum]
  rfl

theorem afferent_eq_columnSum : balance matrix.afferents c = matrix.columnSum c := by
  have hcolumn : ∀ row : OrderedMap String Int,
      ((row.entries.filter fun cell => decide (cell.1 = c)).map fun cell => cell.2).sum = (row.find? c).getD 0 := by
    intro row
    rw [OrderedMap.sum_filter_key row c fun n => n]
    cases row.find? c <;> rfl
  rw [afferent_eq, sum_filter_cells, columnSum, OrderedMap.values, List.map_map]
  simp only [hcolumn]
  rfl

theorem sum_rowSum : (matrix.participants.toList.map matrix.rowSum).sum = matrix.total := by
  have hcaller : ∀ cell ∈ matrix.cells, cell.1 ∈ matrix.participants.toList :=
    fun cell hcell => (matrix.mem_participants).2 ⟨cell, hcell, Or.inl rfl⟩
  rw [← matrix.sum_cells, ← sum_map_sum_filter _ _ matrix.participants.nodup hcaller]
  congr 1
  exact List.map_congr_left fun c _ => (matrix.efferent_eq_rowSum c).symm.trans (matrix.efferent_eq c)

theorem sum_columnSum : (matrix.participants.toList.map matrix.columnSum).sum = matrix.total := by
  have hcallee : ∀ cell ∈ matrix.cells, cell.2.1 ∈ matrix.participants.toList :=
    fun cell hcell => (matrix.mem_participants).2 ⟨cell, hcell, Or.inr rfl⟩
  rw [← matrix.sum_cells, ← sum_map_sum_filter (fun cell : String × String × Int => cell.2.1) _ matrix.participants.nodup hcallee]
  congr 1
  exact List.map_congr_left fun c _ => (matrix.afferent_eq_columnSum c).symm.trans (matrix.afferent_eq c)

theorem mem_participants_iff_occurs : c ∈ matrix.participants ↔ matrix.Occurs c := by
  rw [mem_participants]
  constructor
  · rintro ⟨cell, hcell, hc⟩
    obtain ⟨row, hrow, hmem⟩ := List.mem_flatMap.1 hcell
    obtain ⟨e, he, rfl⟩ := List.mem_map.1 hmem
    rcases hc with rfl | rfl
    · exact Or.inr ⟨row.2, (matrix.find?_eq_some_iff _ _).2 hrow, List.ne_nil_of_mem (List.mem_map_of_mem he)⟩
    · exact Or.inl ⟨row.2, List.mem_map_of_mem hrow, List.mem_map_of_mem he⟩
  · rintro (⟨row, hrow, hc⟩ | ⟨row, hrow, hne⟩)
    · obtain ⟨e, he, rfl⟩ := List.mem_map.1 hrow
      obtain ⟨cell, hcell, rfl⟩ := List.mem_map.1 hc
      exact ⟨(e.1, cell), List.mem_flatMap.2 ⟨e, he, List.mem_map_of_mem hcell⟩, Or.inr rfl⟩
    · obtain ⟨k, hk⟩ := List.exists_mem_of_ne_nil _ hne
      obtain ⟨cell, hcell, -⟩ := List.mem_map.1 hk
      have he := (matrix.find?_eq_some_iff _ _).1 hrow
      exact ⟨(c, cell), List.mem_flatMap.2 ⟨(c, row), he, List.mem_map_of_mem hcell⟩, Or.inl rfl⟩

/-! ## Accounts -/

end RelationMatrix

section Accounts

variable {α : Type} [Scalar α] [Rounding α] {matrix : RelationMatrix} {afferent efferent : Int}
  {accounts : List (String × ClassCoupling α)}

/-- The instability is the efferent part of the account, to three places, and there is none when the account adds up to
zero. -/
structure ClassCoupling.HasInstability (a : ClassCoupling α) : Prop where
  eq_none : a.afferent + a.efferent = 0 → a.instability = none
  eq_some : a.afferent + a.efferent ≠ 0 →
    ∃ q : α, Scalar.ratio? a.efferent (a.afferent + a.efferent) = some q ∧ a.instability = some (Rounding.toPlaces 3 q)

namespace RelationMatrix

theorem of_account_eq_ok {a : ClassCoupling α} (h : account afferent efferent = .ok a) :
    a.afferent = afferent ∧ a.efferent = efferent ∧ a.HasInstability := by
  unfold account at h
  split at h
  · next hzero =>
    cases h
    exact ⟨rfl, rfl, fun _ => rfl, fun hne => absurd hzero hne⟩
  · next hne =>
    split at h
    · next q hq =>
      cases h
      exact ⟨rfl, rfl, fun hzero => absurd hzero hne, fun _ => ⟨q, hq, rfl⟩⟩
    · cases h

theorem exists_account_iff :
    (∃ a : ClassCoupling α, account afferent efferent = .ok a) ↔
      (afferent + efferent ≠ 0 → (Scalar.ratio? efferent (afferent + efferent) : Option α).isSome) := by
  unfold account
  split
  · next hzero => exact iff_of_true ⟨_, rfl⟩ fun hne => absurd hzero hne
  · next hne =>
    rw [imp_iff_right hne]
    cases (Scalar.ratio? efferent (afferent + efferent) : Option α) with
    | none => exact iff_of_false (fun ⟨_, ha⟩ => by cases ha) Bool.false_ne_true
    | some q => exact iff_of_true ⟨_, rfl⟩ rfl

/-- What the accounts of a relation matrix are. -/
structure BookedTwice (matrix : RelationMatrix) (accounts : List (String × ClassCoupling α)) : Prop where
  ascending : (accounts.map Prod.fst).Pairwise (· < ·)
  mem_iff : ∀ c, c ∈ accounts.map Prod.fst ↔ matrix.Occurs c
  efferent_eq : ∀ a ∈ accounts, a.2.efferent = matrix.rowSum a.1
  afferent_eq : ∀ a ∈ accounts, a.2.afferent = matrix.columnSum a.1
  sum_efferent : (accounts.map fun a => a.2.efferent).sum = matrix.total
  sum_afferent : (accounts.map fun a => a.2.afferent).sum = matrix.total
  hasInstability : ∀ a ∈ accounts, a.2.HasInstability

/-- The accounts, by the sums of rows and columns. -/
theorem classCoupling_eq (matrix : RelationMatrix) :
    (matrix.classCoupling : Except AccountError (List (String × ClassCoupling α))) =
      matrix.participants.toList.mapM fun c => (account (matrix.columnSum c) (matrix.rowSum c)).map fun a => (c, a) := by
  have hefferent := matrix.efferent_eq_rowSum
  have hafferent := matrix.afferent_eq_columnSum
  unfold balance at hefferent hafferent
  unfold classCoupling
  simp only [hefferent, hafferent]
  rfl

theorem exists_classCoupling_iff :
    (∃ accounts : List (String × ClassCoupling α), matrix.classCoupling = .ok accounts) ↔
      ∀ c, matrix.Occurs c → matrix.columnSum c + matrix.rowSum c ≠ 0 →
        (Scalar.ratio? (matrix.rowSum c) (matrix.columnSum c + matrix.rowSum c) : Option α).isSome := by
  rw [classCoupling_eq, exists_mapM_iff]
  refine forall_congr' fun c => ?_
  rw [← exists_account_iff, ← mem_participants_iff_occurs]
  refine imp_congr_right fun _ => ?_
  simp only [map_eq_ok_iff]
  exact ⟨fun ⟨_, a, ha, _⟩ => ⟨a, ha⟩, fun ⟨a, ha⟩ => ⟨_, a, ha, rfl⟩⟩

theorem bookedTwice_of_classCoupling (h : matrix.classCoupling = .ok accounts) : matrix.BookedTwice accounts := by
  rw [classCoupling_eq] at h
  have hnames : matrix.participants.toList = accounts.map Prod.fst := by
    refine List.forall₂_eq_eq_eq ▸ List.forall₂_map_right_iff.2 ((mapM_eq_ok_iff.1 h).imp fun c a hca => ?_)
    obtain ⟨_, -, rfl⟩ := map_eq_ok_iff.1 hca
    rfl
  have hsides : ∀ a ∈ accounts,
      a.2.afferent = matrix.columnSum a.1 ∧ a.2.efferent = matrix.rowSum a.1 ∧ a.2.HasInstability := by
    intro a ha
    obtain ⟨c, -, hca⟩ := exists_of_mapM h a ha
    obtain ⟨_, haccount, rfl⟩ := map_eq_ok_iff.1 hca
    exact of_account_eq_ok haccount
  have hefferents : (accounts.map fun a => a.2.efferent) = matrix.participants.toList.map matrix.rowSum := by
    rw [hnames, List.map_map]
    exact List.map_congr_left fun a ha => (hsides a ha).2.1
  have hafferents : (accounts.map fun a => a.2.afferent) = matrix.participants.toList.map matrix.columnSum := by
    rw [hnames, List.map_map]
    exact List.map_congr_left fun a ha => (hsides a ha).1
  exact {
    ascending := hnames ▸ matrix.participants.sorted
    mem_iff := fun c => by rw [← hnames]; exact matrix.mem_participants_iff_occurs c
    efferent_eq := fun a ha => (hsides a ha).2.1
    afferent_eq := fun a ha => (hsides a ha).1
    sum_efferent := hefferents ▸ matrix.sum_rowSum
    sum_afferent := hafferents ▸ matrix.sum_columnSum
    hasInstability := fun a ha => (hsides a ha).2.2 }

end RelationMatrix

end Accounts

/-! ## Accounts in doubles -/

/-- Counts that are not negative make an instability from zero to one, close to the efferent part of the account. -/
structure ClassCoupling.Measured (a : ClassCoupling Float) : Prop where
  toJson_of_zero : a.afferent = 0 → a.efferent = 0 →
    a.toJson = .object [("afferent", .int 0), ("efferent", .int 0), ("instability", .int 0)]
  close : ¬(a.afferent = 0 ∧ a.efferent = 0) → ∃ q v, Binary64.ratio? a.efferent (a.afferent + a.efferent) = some q ∧
    a.instability = some (Binary64.toPlaces 3 q) ∧ Doubles.StandsFor (Binary64.toPlaces 3 q) v ∧ (0 ≤ v ∧ v ≤ 1) ∧
    |v - (a.efferent : ℚ) / (a.afferent + a.efferent : Int)| ≤ 1 / 2000 + 1 / 2 ^ 52

theorem ClassCoupling.HasInstability.measured {a : ClassCoupling Float} (h : a.HasInstability) (hafferent : 0 ≤ a.afferent)
    (hefferent : 0 ≤ a.efferent) : a.Measured where
  toJson_of_zero ha he := by
    unfold ClassCoupling.toJson
    rw [h.eq_none (by omega), ha, he]
    rfl
  close hne := by
    have hsum : a.afferent + a.efferent ≠ 0 := by omega
    obtain ⟨q, hq, hinstability⟩ := h.eq_some hsum
    obtain ⟨q', v, hq', hv, hbounds, hclose⟩ := Doubles.ratio?_close hefferent (by omega) hsum 3
    obtain rfl : q = q' := Option.some.inj (hq.symm.trans hq')
    have hunit : (1 / (2 * tenTo 3 : Nat) : ℚ) = 1 / 2000 := by norm_num [tenTo]
    exact ⟨q, v, hq, hinstability, hv, hbounds, hunit ▸ hclose⟩

namespace RelationMatrix

variable {matrix : RelationMatrix}

theorem exists_measured (hcells : ∀ cell ∈ matrix.cells, 0 ≤ cell.2.2) :
    ∃ accounts : List (String × ClassCoupling Float), matrix.classCoupling = .ok accounts ∧ ∀ a ∈ accounts, a.2.Measured := by
  have hsides : ∀ c, 0 ≤ matrix.columnSum c ∧ 0 ≤ matrix.rowSum c := by
    intro c
    rw [← afferent_eq_columnSum, ← efferent_eq_rowSum]
    exact matrix.balance_nonneg hcells c
  have hratio : ∀ c, matrix.Occurs c → matrix.columnSum c + matrix.rowSum c ≠ 0 →
      (Scalar.ratio? (matrix.rowSum c) (matrix.columnSum c + matrix.rowSum c) : Option Float).isSome := by
    intro c _ hne
    obtain ⟨hafferent, hefferent⟩ := hsides c
    obtain ⟨q, hq, -⟩ := Doubles.ratio?_isFraction hefferent (by omega) hne
    exact Option.isSome_iff_exists.2 ⟨q, hq⟩
  obtain ⟨accounts, haccounts⟩ := exists_classCoupling_iff.2 hratio
  have hbooked := bookedTwice_of_classCoupling haccounts
  refine ⟨accounts, haccounts, fun a ha => (hbooked.hasInstability a ha).measured ?_ ?_⟩
  · exact hbooked.afferent_eq a ha ▸ (hsides a.1).1
  · exact hbooked.efferent_eq a ha ▸ (hsides a.1).2

end RelationMatrix

namespace CallGraph

variable (g : CallGraph)

theorem total_relationMatrix : g.relationMatrix.total = g.totalRelations := by
  rw [← RelationMatrix.sum_cells, sum_cells_relationMatrix]

/-- A class occurs in the matrix of a call graph when it and another class share a name that one calls and the other
declares. -/
theorem occurs_relationMatrix {c : String} :
    g.relationMatrix.Occurs c ↔ ∃ d, d ≠ c ∧
      ((∃ name ∈ g.called c, name ∈ g.declared d) ∨ ∃ name ∈ g.called d, name ∈ g.declared c) := by
  have hcell : ∀ {a b : String} {n : Int}, (a, b, n) ∈ g.relationMatrix.cells ↔
      ((a, b) ∈ g.pairs ∧ 0 < g.relationCount a b) ∧ n = (g.relationCount a b : Int) := by
    intro a b n
    rw [← RelationMatrix.count?_eq_some_iff, count?_relationMatrix]
  have hpair : ∀ {a b : String}, a ≠ b → 0 < g.relationCount a b → (a, b) ∈ g.pairs := by
    intro a b hne hpos
    obtain ⟨name, hcalled, hdeclared⟩ := g.relationCount_pos_iff.1 hpos
    exact g.mem_pairs.2 ⟨mem_names_of_mem_called hcalled, mem_names_of_mem_declared hdeclared, hne⟩
  rw [← RelationMatrix.mem_participants_iff_occurs, RelationMatrix.mem_participants]
  simp only [← relationCount_pos_iff]
  constructor
  · rintro ⟨⟨a, b, n⟩, hmem, hc⟩
    obtain ⟨⟨hp, hpos⟩, -⟩ := hcell.1 hmem
    obtain ⟨-, -, hne⟩ := g.mem_pairs.1 hp
    rcases hc with rfl | rfl
    · exact ⟨b, hne.symm, Or.inl hpos⟩
    · exact ⟨a, hne, Or.inr hpos⟩
  · rintro ⟨d, hne, hpos | hpos⟩
    · exact ⟨_, hcell.2 ⟨⟨hpair hne.symm hpos, hpos⟩, rfl⟩, Or.inl rfl⟩
    · exact ⟨_, hcell.2 ⟨⟨hpair hne hpos, hpos⟩, rfl⟩, Or.inr rfl⟩

end CallGraph

/-! ## The books -/

namespace RelationMatrix

/-- Whatever the counts, what `classCoupling` gives is booked twice, and it gives nothing just when a quotient is too large for
a double. Counts that are not negative always have accounts, and those of a call graph add up to its relations. -/
theorem classCoupling_books (matrix : RelationMatrix) :
    (∀ accounts : List (String × ClassCoupling Float), matrix.classCoupling = .ok accounts → matrix.BookedTwice accounts) ∧
      ((∃ accounts : List (String × ClassCoupling Float), matrix.classCoupling = .ok accounts) ↔
        ∀ c, matrix.Occurs c → matrix.columnSum c + matrix.rowSum c ≠ 0 →
          (matrix.rowSum c).natAbs < Binary64.overflowBound * (matrix.columnSum c + matrix.rowSum c).natAbs) ∧
      ((∀ cell ∈ matrix.cells, 0 ≤ cell.2.2) → ∃ accounts : List (String × ClassCoupling Float),
        matrix.classCoupling = .ok accounts ∧ ∀ a ∈ accounts, a.2.Measured) ∧
      ∀ g : CallGraph, ∃ accounts : List (String × ClassCoupling Float), g.relationMatrix.classCoupling = .ok accounts ∧
        (accounts.map fun a => a.2.efferent).sum = g.totalRelations ∧
        (accounts.map fun a => a.2.afferent).sum = g.totalRelations ∧
        ∀ c, c ∈ accounts.map Prod.fst ↔ ∃ d, d ≠ c ∧
          ((∃ name ∈ g.called c, name ∈ g.declared d) ∨ ∃ name ∈ g.called d, name ∈ g.declared c) := by
  refine ⟨fun accounts => bookedTwice_of_classCoupling, ?_, exists_measured, fun g => ?_⟩
  · rw [exists_classCoupling_iff]
    refine forall_congr' fun c => imp_congr_right fun _ => imp_congr_right fun hne => ?_
    exact Binary64.isSome_ratio?_iff _ hne
  · obtain ⟨accounts, haccounts, -⟩ := exists_measured g.cells_relationMatrix_nonneg
    have hbooked := bookedTwice_of_classCoupling haccounts
    refine ⟨accounts, haccounts, ?_, ?_, fun c => ?_⟩
    · rw [hbooked.sum_efferent, g.total_relationMatrix]
    · rw [hbooked.sum_afferent, g.total_relationMatrix]
    · rw [hbooked.mem_iff, g.occurs_relationMatrix]

/-- A row is empty, a count is zero, and a class has relations to itself. -/
def sparse : RelationMatrix := .ofList [("A", .ofList [("B", 2), ("A", 1)]), ("E", .empty), ("C", .ofList [("B", 0)])]

theorem sparse_booked : ∃ accounts : List (String × ClassCoupling Float), sparse.classCoupling = .ok accounts ∧
    (accounts.map fun a => a.2.efferent).sum = 3 ∧ "C" ∈ accounts.map Prod.fst ∧ "E" ∉ accounts.map Prod.fst ∧
    ∀ a ∈ accounts, a.2.Measured := by
  obtain ⟨hbooked, -, hmeasured, -⟩ := classCoupling_books sparse
  have hcells : ∀ cell ∈ sparse.cells, 0 ≤ cell.2.2 := by decide
  obtain ⟨accounts, haccounts, hall⟩ := hmeasured hcells
  have hbook := hbooked accounts haccounts
  have hlisted : ∀ c, c ∈ accounts.map Prod.fst ↔ c ∈ sparse.participants.toList := fun c =>
    (hbook.mem_iff c).trans (sparse.mem_participants_iff_occurs c).symm
  refine ⟨accounts, haccounts, hbook.sum_efferent.trans (by decide), ?_, ?_, hall⟩
  · rw [hlisted]
    decide
  · rw [hlisted]
    decide

/-- Both sides of the accounts are too large for doubles, and almost cancel out. -/
def cancelling : RelationMatrix := .ofList [("a", .ofList [("b", tenTo 309)]), ("b", .ofList [("a", 1 - tenTo 309)])]

theorem cancelling_unbooked : ¬∃ accounts : List (String × ClassCoupling Float),
    cancelling.classCoupling = .ok accounts ∧ cancelling.BookedTwice accounts := by
  have hnone : (cancelling.classCoupling : Except AccountError (List (String × ClassCoupling Float))).toOption.isSome = false := by
    decide +kernel
  rintro ⟨accounts, haccounts, -⟩
  rw [haccounts] at hnone
  cases hnone

end RelationMatrix

end CouplingTree
