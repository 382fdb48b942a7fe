import Mathlib.Data.Prod.Lex
import Mathlib.Data.String.Basic
import CouplingTree.Report.Basic
import CouplingTree.Proofs.Numbers.Comparison
import CouplingTree.Proofs.Numbers.Nearest

/-!
# The order of rows does not depend on how they come

Rows for different pairs with values that can be compared stand in a strict order, so there is one way only to sort them.

* `CouplingRow.before_iff` : a row stands before another one by its value, else by its pair.
* `CouplingRow.Comparable` : the rows that are in a strict order.
* `CouplingRow.sort_eq_of_perm` : sorting them forgets in which order they came.
* `CouplingMap.mem_positiveRows` : a coupling map has a row for each positive value.
* `CouplingMap.positiveRows_eq_of_perm` : so the rows of a coupling map do not depend on the order of its entries.
* `CouplingRow.Precedes` : with rational numbers, which of two rows stands first; `CouplingRow.precedes_of_before`,
  `CouplingMap.pairwise_positiveRows` : the rows of a coupling map are sorted by this order.
-/

namespace CouplingTree

variable {α : Type} [Scalar α]

namespace CouplingRow

/-- The pair of a row, compared by code points. -/
def pairKey (r : CouplingRow α) : Lex (String × String) := toLex (r.caller, r.callee)

theorem before_iff {r s : CouplingRow α} :
    r.before s = true ↔ s.value < r.value ∨ ¬ r.value < s.value ∧ r.pairKey < s.pairKey := by
  have hpair : (r.caller < s.caller ∨ r.caller = s.caller ∧ r.callee < s.callee) ↔ r.pairKey < s.pairKey := by
    rw [pairKey, pairKey, Prod.Lex.toLex_lt_toLex]
  unfold before
  split
  · next hgt => exact ⟨fun _ => Or.inl hgt, fun _ => rfl⟩
  · next hle =>
    split
    · next hlt =>
      exact ⟨fun h => absurd h Bool.false_ne_true, fun h => h.elim (fun h => absurd h hle) fun h => absurd hlt h.1⟩
    · next hge =>
      rw [decide_eq_true_iff, hpair]
      exact ⟨fun h => Or.inr ⟨hge, h⟩, fun h => h.elim (fun h => absurd h hle) And.right⟩

section Lawful

variable [LawfulScalar α] {r s t : CouplingRow α}

omit [LawfulScalar α] in
theorem before_total (h : r.pairKey ≠ s.pairKey) (hnot : ¬ s.before r = true) : r.before s = true := by
  rw [before_iff] at hnot ⊢
  rw [not_or, not_and] at hnot
  by_cases hlt : s.value < r.value
  · exact Or.inl hlt
  · exact Or.inr ⟨hnot.1, lt_of_le_of_ne (not_lt.1 (hnot.2 hlt)) h⟩

theorem before_asymm (h : r.before s = true) : ¬ s.before r = true := by
  rw [before_iff] at h ⊢
  rintro (h' | ⟨hnot, hlt'⟩)
  · rcases h with h | ⟨hnot, -⟩
    · exact Scalar.not_lt_of_lt h h'
    · exact hnot h'
  · rcases h with h | ⟨-, hlt⟩
    · exact hnot h
    · exact lt_asymm hlt hlt'

theorem before_trans (hr : r.value ≤ r.value) (hs : s.value ≤ s.value) (ht : t.value ≤ t.value)
    (hrs : r.before s = true) (hst : s.before t = true) : r.before t = true := by
  rw [before_iff] at hrs hst ⊢
  rw [Scalar.not_lt_iff hr hs] at hrs
  rw [Scalar.not_lt_iff hs ht] at hst
  rw [Scalar.not_lt_iff hr ht]
  rcases hrs with hrs | ⟨hsr, hkey⟩
  · rcases hst with hst | ⟨hts, -⟩
    · exact Or.inl (Scalar.lt_of_lt_of_le hst (Scalar.le_of_lt hrs))
    · exact Or.inl (Scalar.lt_of_le_of_lt hts hrs)
  · rcases hst with hst | ⟨hts, hkey'⟩
    · exact Or.inl (Scalar.lt_of_lt_of_le hst hsr)
    · exact Or.inr ⟨LawfulScalar.trans _ _ _ hts hsr, hkey.trans hkey'⟩

end Lawful

/-! ## Sorting -/

theorem insert_perm (r : CouplingRow α) (rows : List (CouplingRow α)) : (insert r rows).Perm (r :: rows) := by
  induction rows with
  | nil => exact List.Perm.refl _
  | cons s rows ih =>
    unfold insert
    split
    · exact (ih.cons s).trans (List.Perm.swap r s rows)
    · exact List.Perm.refl _

theorem sort_perm (rows : List (CouplingRow α)) : (sort rows).Perm rows := by
  induction rows with
  | nil => exact List.Perm.refl _
  | cons r rows ih => exact (insert_perm r _).trans (ih.cons r)

/-- Rows for different pairs, with values that can be compared. -/
structure Comparable (rows : List (CouplingRow α)) : Prop where
  value_le : ∀ r ∈ rows, r.value ≤ r.value
  nodup : (rows.map pairKey).Nodup

theorem Comparable.perm {rows rows' : List (CouplingRow α)} (h : Comparable rows) (hp : rows.Perm rows') :
    Comparable rows' :=
  ⟨fun r hr => h.value_le r (hp.mem_iff.2 hr), (hp.map pairKey).nodup_iff.1 h.nodup⟩

variable [LawfulScalar α]

theorem pairwise_insert {r : CouplingRow α} {rows : List (CouplingRow α)} (h : Comparable (r :: rows))
    (hrows : rows.Pairwise fun r s => r.before s = true) : (insert r rows).Pairwise fun r s => r.before s = true := by
  induction rows with
  | nil => exact List.pairwise_singleton _ r
  | cons s rows ih =>
    obtain ⟨hfirst, hrest⟩ := List.pairwise_cons.1 hrows
    have hvalue := h.value_le
    have hnodup := h.nodup
    simp only [List.map_cons, List.nodup_cons, List.mem_cons, not_or] at hnodup
    have hcomparable : Comparable (r :: rows) :=
      ⟨fun t ht => hvalue t (List.mem_cons.2 ((List.mem_cons.1 ht).imp_right (List.mem_cons_of_mem s))),
        List.nodup_cons.2 ⟨hnodup.1.2, hnodup.2.2⟩⟩
    have hr : r.value ≤ r.value := hvalue r (List.mem_cons_self ..)
    have hs : s.value ≤ s.value := hvalue s (List.mem_cons_of_mem r (List.mem_cons_self ..))
    unfold insert
    split
    · next hbefore =>
      refine List.pairwise_cons.2 ⟨fun t ht => ?_, ih hcomparable hrest⟩
      rcases List.mem_cons.1 ((insert_perm r rows).mem_iff.1 ht) with rfl | ht
      · exact hbefore
      · exact hfirst t ht
    · next hnot =>
      have hrs : r.before s = true := before_total hnodup.1.1 hnot
      refine List.pairwise_cons.2 ⟨fun t ht => ?_, hrows⟩
      rcases List.mem_cons.1 ht with rfl | ht
      · exact hrs
      · exact before_trans hr hs (hcomparable.value_le t (List.mem_cons_of_mem r ht)) hrs (hfirst t ht)

theorem pairwise_sort {rows : List (CouplingRow α)} (h : Comparable rows) :
    (sort rows).Pairwise fun r s => r.before s = true := by
  induction rows with
  | nil => exact List.Pairwise.nil
  | cons r rows ih =>
    have hrest : Comparable rows := ⟨fun s hs => h.value_le s (List.mem_cons_of_mem r hs), (List.nodup_cons.1 h.nodup).2⟩
    exact pairwise_insert (h.perm ((sort_perm rows).symm.cons r)) (ih hrest)

theorem sort_eq_of_perm {rows rows' : List (CouplingRow α)} (h : Comparable rows) (hp : rows.Perm rows') :
    sort rows = sort rows' := by
  have hanti : ∀ r s : CouplingRow α, r ∈ sort rows → s ∈ sort rows' → r.before s = true → s.before r = true → r = s :=
    fun r s _ _ hrs hsr => absurd hsr (before_asymm hrs)
  exact List.Perm.eq_of_pairwise hanti (pairwise_sort h) (pairwise_sort (h.perm hp))
    ((sort_perm rows).trans (hp.trans (sort_perm rows').symm))

end CouplingRow

namespace CouplingMap

section Rows

variable (coupling : CouplingMap α)

theorem positiveRows_perm :
    coupling.positiveRows.Perm
      ((coupling.entries.filter fun e => decide (0 < e.2)).map fun e => ⟨e.1.1, e.1.2, e.2⟩) :=
  CouplingRow.sort_perm _

theorem mem_positiveRows {r : CouplingRow α} :
    r ∈ coupling.positiveRows ↔ coupling.find? (r.caller, r.callee) = some r.value ∧ 0 < r.value := by
  rw [(coupling.positiveRows_perm).mem_iff, OrderedMap.find?_eq_some_iff, List.mem_map]
  constructor
  · rintro ⟨e, he, rfl⟩
    obtain ⟨he, hpos⟩ := List.mem_filter.1 he
    exact ⟨he, of_decide_eq_true hpos⟩
  · rintro ⟨he, hpos⟩
    exact ⟨((r.caller, r.callee), r.value), List.mem_filter.2 ⟨he, decide_eq_true hpos⟩, rfl⟩

/-- The pairs of the rows are keys of the map. -/
theorem nodup_pairs_positiveRows : (coupling.positiveRows.map fun r => (r.caller, r.callee)).Nodup := by
  rw [((coupling.positiveRows_perm).map _).nodup_iff, List.map_map]
  exact coupling.nodup.sublist (List.filter_sublist.map Prod.fst)

end Rows

variable [LawfulScalar α] {coupling coupling' : CouplingMap α}

/-- Values above zero can be compared. -/
theorem comparable_positive (coupling : CouplingMap α) :
    CouplingRow.Comparable
      ((coupling.entries.filter fun e => decide (0 < e.2)).map fun e => (⟨e.1.1, e.1.2, e.2⟩ : CouplingRow α)) where
  value_le := List.forall_mem_map.2 fun e he => Scalar.comparable_of_lt (of_decide_eq_true (List.mem_filter.1 he).2)
  nodup := by
    rw [List.map_map]
    exact coupling.nodup.sublist (List.filter_sublist.map Prod.fst)

theorem positiveRows_eq_of_perm (h : coupling.entries.Perm coupling'.entries) :
    coupling.positiveRows = coupling'.positiveRows :=
  CouplingRow.sort_eq_of_perm coupling.comparable_positive ((h.filter _).map _)

end CouplingMap

/-! ## Rational values -/

namespace CouplingRow

/-- The row has the greater value or, where the values are equal, comes first by caller and callee, compared by code points. -/
def Precedes (r s : CouplingRow Rat) : Prop :=
  s.value < r.value ∨ r.value = s.value ∧ (r.caller < s.caller ∨ r.caller = s.caller ∧ r.callee < s.callee)

theorem precedes_of_before {r s : CouplingRow Rat} (h : r.before s = true) : r.Precedes s := by
  rw [before_iff, pairKey, pairKey, Prod.Lex.toLex_lt_toLex, not_lt] at h
  rcases h with h | ⟨hle, hpair⟩
  · exact Or.inl h
  · rcases hle.lt_or_eq with hlt | heq
    · exact Or.inl hlt
    · exact Or.inr ⟨heq.symm, hpair⟩

end CouplingRow

namespace CouplingMap

variable (coupling : CouplingMap Rat)

theorem pairwise_positiveRows : coupling.positiveRows.Pairwise CouplingRow.Precedes :=
  (CouplingRow.pairwise_sort coupling.comparable_positive).imp CouplingRow.precedes_of_before

end CouplingMap

end CouplingTree
