import Mathlib.Data.List.Permutation
import Mathlib.Data.Sym.Sym2
import CouplingTree.Proofs.Clustering.Descent
import CouplingTree.Proofs.Clustering.Groups

/-!
# The order of the entries

With rational numbers the order in which a coupling map lists its entries matters for ties only. If no two pairs of groups
ever couple most, then a run over the entries in another order merges the same groups, though perhaps with the sides swapped.

* `mem_pairsOf_of_perm` : a list in another order has the same pairs, up to their sides.
* `Selects.of_perm` : a pair that alone couples most is selected in any order.
* `Reordered` : what relates the two runs.
* `run_reorder` : hence they make the same merges and end with the same groups.
-/

namespace CouplingTree

/-! ## Lists and maps in another order -/

theorem mem_pairsOf_of_perm {β : Type} {l l' : List β} (h : l.Perm l') {q : β × β} (hq : q ∈ pairsOf l) :
    q ∈ pairsOf l' ∨ q.swap ∈ pairsOf l' := by
  obtain ⟨pair, hpair, hsub⟩ := (mem_pairsOf.1 hq).subperm.trans h.subperm
  rcases List.perm_pair.1 hpair with rfl | rfl
  · exact Or.inl (mem_pairsOf.2 hsub)
  · exact Or.inr (mem_pairsOf.2 hsub)

theorem OrderedMap.find?_eq_of_perm {κ β : Type} [DecidableEq κ] {m m' : OrderedMap κ β}
    (h : m.entries.Perm m'.entries) : m.find? = m'.find? := by
  funext k
  refine Option.ext fun v => ?_
  rw [find?_eq_some_iff, find?_eq_some_iff, h.mem_iff]

theorem CouplingMap.classes_perm {α : Type} {coupling coupling' : CouplingMap α}
    (h : coupling.entries.Perm coupling'.entries) : coupling.classes.Perm coupling'.classes := by
  rw [List.perm_ext_iff_of_nodup coupling.nodup_classes coupling'.nodup_classes]
  intro x
  rw [mem_classes, mem_classes]
  exact exists_congr fun k => and_congr_left fun _ => (h.map Prod.fst).mem_iff

theorem NameSet.union_comm (s t : NameSet) : s.union t = t.union s := by
  refine ext_mem fun x => ?_
  rw [mem_union, mem_union, or_comm]

/-- A merge without the numbers and the order of its two clusters. -/
def Merge.unordered (m : Merge Rat) : Sym2 NameSet × Rat × NameSet :=
  (s(m.first.members, m.second.members), m.coupling, m.result.members)

namespace Clustering

variable {value? : Lookup Rat} {rule : StopRule Rat} {c c' : Clustering Rat} {m m' : Merge Rat} {p : NameSet × NameSet}
  {coupling coupling' : CouplingMap Rat}

theorem ofPair_swap (value? : Lookup Rat) (p : NameSet × NameSet) : value?.ofPair p.swap = value?.ofPair p :=
  Lookup.between_comm value? p.2 p.1

/-! ## Ties -/

/-- So many pairs of groups have a coupling. -/
def pairsWith (value? : Lookup Rat) (groups : List NameSet) (v : Rat) : Nat :=
  (pairsOf groups).countP fun p => decide (value?.ofPair p = v)

/-- No other pair of groups couples as much as the one that is merged next. -/
def Clear (value? : Lookup Rat) (rule : StopRule Rat) (c : Clustering Rat) : Prop :=
  ∀ m, c.next value? rule = .join m → pairsWith value? c.groups m.coupling = 1

instance decidableClear (value? : Lookup Rat) (rule : StopRule Rat) (c : Clustering Rat) : Decidable (Clear value? rule c) :=
  match hn : c.next value? rule with
  | .join m => decidable_of_iff (pairsWith value? c.groups m.coupling = 1)
      ⟨fun h _ hm => Next.join.inj (hn.symm.trans hm) ▸ h, fun h => h m hn⟩
  | .enough => .isTrue fun _ hm => nomatch hn.symm.trans hm
  | .uncoupled => .isTrue fun _ hm => nomatch hn.symm.trans hm
  | .weak _ => .isTrue fun _ hm => nomatch hn.symm.trans hm

/-- At every merge of a run the greatest coupling is that of one pair of groups only. -/
def Untied (rule : StopRule Rat) (coupling : CouplingMap Rat) : Prop :=
  ∀ steps, Clear coupling.find? rule (stage rule coupling steps)

/-- After as many steps as there are classes no merge comes next. -/
theorem untied_of_lt (h : ∀ steps < coupling.classes.length, Clear coupling.find? rule (stage rule coupling steps)) :
    Untied rule coupling := by
  intro steps m hm
  rcases Nat.lt_or_ge steps coupling.classes.length with hlt | hge
  · exact h steps hlt m hm
  · exact absurd hm (stage_stops hge m)

theorem eq_of_countP_eq_one {β : Type} {l : List β} {test : β → Bool} (h : l.countP test = 1) {x y : β}
    (hx : x ∈ l) (hx' : test x = true) (hy : y ∈ l) (hy' : test y = true) : x = y := by
  rw [List.countP_eq_length_filter, List.length_eq_one_iff] at h
  obtain ⟨z, hz⟩ := h
  have hxz := List.mem_filter.2 ⟨hx, hx'⟩
  have hyz := List.mem_filter.2 ⟨hy, hy'⟩
  rw [hz, List.mem_singleton] at hxz hyz
  exact hxz.trans hyz.symm

/-! ## The selected pair -/

/-- Groups in another order couple at most as the selected pair does. -/
theorem Selects.le_of_perm {groups groups' : List NameSet} (h : Selects value? rule groups p)
    (hperm : groups.Perm groups') : ∀ q ∈ pairsOf groups', value?.ofPair q ≤ value?.ofPair p := by
  intro q hq
  rcases mem_pairsOf_of_perm hperm.symm hq with hq | hq
  · exact not_lt.1 (h.foremost.not_lt q hq)
  · rw [← ofPair_swap]
    exact not_lt.1 (h.foremost.not_lt _ hq)

/-- Some pair is selected from the groups in another order, and it couples as much. -/
theorem Selects.exists_of_perm {groups : List NameSet} (h : Selects value? rule groups p) (c' : Clustering Rat)
    (hperm : groups.Perm c'.groups) :
    ∃ q, Selects value? rule c'.groups q ∧ value?.ofPair q = value?.ofPair p := by
  have hback : ∃ q ∈ pairsOf c'.groups, value?.ofPair q = value?.ofPair p := by
    rcases mem_pairsOf_of_perm hperm h.foremost.mem with hp | hp
    · exact ⟨p, hp, rfl⟩
    · exact ⟨p.swap, hp, ofPair_swap value? p⟩
  obtain ⟨r, hr, hrp⟩ := hback
  obtain ⟨q, hq⟩ := exists_foremost c' hr (hrp ▸ h.foremost.positive)
  have hvalue : value?.ofPair q = value?.ofPair p := by
    refine le_antisymm (h.le_of_perm hperm q hq.mem) ?_
    rw [← hrp]
    exact not_lt.1 (hq.not_lt r hr)
  exact ⟨q, ⟨hq, hvalue ▸ h.strong, hperm.length_eq ▸ h.many⟩, hvalue⟩

/-- A pair that alone couples most is selected in any order, up to its sides. -/
theorem Selects.of_perm {groups : List NameSet} (h : Selects value? rule groups p)
    (halone : pairsWith value? groups (value?.ofPair p) = 1) (c' : Clustering Rat) (hperm : groups.Perm c'.groups) :
    ∃ q, Selects value? rule c'.groups q ∧ (p = q ∨ p = q.swap) := by
  obtain ⟨q, hq, hvalue⟩ := h.exists_of_perm c' hperm
  have heq : ∀ r ∈ pairsOf groups, value?.ofPair r = value?.ofPair p → p = r := fun r hr hv =>
    eq_of_countP_eq_one halone h.foremost.mem (decide_eq_true rfl) hr (decide_eq_true hv)
  refine ⟨q, hq, ?_⟩
  rcases mem_pairsOf_of_perm hperm.symm hq.foremost.mem with hmem | hmem
  · exact Or.inl (heq q hmem hvalue)
  · exact Or.inr (heq q.swap hmem ((ofPair_swap value? q).trans hvalue))

/-! ## The two runs -/

/-- Two clusterings have the same groups and come from the same merges, whatever their order and their sides. -/
structure Reordered (c c' : Clustering Rat) : Prop where
  groups_perm : c.groups.Perm c'.groups
  history_eq : c.history.map Merge.unordered = c'.history.map Merge.unordered

theorem unordered_eq_of_picks (hm : Picks value? rule c m) (hm' : Picks value? rule c' m')
    (h : s(m.first.members, m.second.members) = s(m'.first.members, m'.second.members)) : m.unordered = m'.unordered := by
  rw [Merge.unordered, Merge.unordered, h, hm.result_eq, hm'.result_eq, hm.coupling_eq, hm'.coupling_eq]
  rcases Sym2.eq_iff.1 h with ⟨h1, h2⟩ | ⟨h1, h2⟩
  · rw [h1, h2]
  · rw [h1, h2, NameSet.union_comm, Lookup.between_comm]

/-- The merge of the same two groups, whatever their sides, leaves the same groups. -/
theorem Reordered.apply (h : Reordered c c') (hf : Forest coupling c) (hf' : Forest coupling' c')
    (hm : Picks value? rule c m) (hm' : Picks value? rule c' m')
    (hpair : s(m.first.members, m.second.members) = s(m'.first.members, m'.second.members)) :
    Reordered (c.apply m) (c'.apply m') where
  groups_perm := by
    rw [hf.groups_apply hm, hf'.groups_apply hm']
    rcases Sym2.eq_iff.1 hpair with ⟨h1, h2⟩ | ⟨h1, h2⟩
    · rw [h1, h2]
      exact ((h.groups_perm.erase _).erase _).append_right _
    · rw [h1, h2, NameSet.union_comm, List.erase_comm]
      exact ((h.groups_perm.erase _).erase _).append_right _
  history_eq := by
    rw [apply_history, apply_history, List.map_append, List.map_append, h.history_eq, List.map_singleton,
      List.map_singleton, unordered_eq_of_picks hm hm' hpair]

theorem reordered_initial (h : coupling.entries.Perm coupling'.entries) :
    Reordered (initial coupling) (initial coupling') where
  groups_perm := by
    rw [initial_groups, initial_groups]
    exact (CouplingMap.classes_perm h).map _
  history_eq := rfl

/-- **The order of the entries matters for ties only.** If no two pairs ever couple most, a run over the entries in another
order makes the same merges in the same sequence and ends with the same groups. -/
theorem run_reorder (hperm : coupling.entries.Perm coupling'.entries) (hclear : Untied rule coupling) :
    (run rule coupling).clustering.history.map Merge.unordered =
        (run rule coupling').clustering.history.map Merge.unordered ∧
      (run rule coupling).clustering.groups.Perm (run rule coupling').clustering.groups := by
  have hfind : coupling'.find? = coupling.find? := OrderedMap.find?_eq_of_perm hperm.symm
  have hrun : Reordered (run rule coupling).clustering (run rule coupling').clustering := by
    refine run_simulation (reordered_initial hperm) ?_ ?_
    · intro i j m h hnext
      have hf := forest_stage rule coupling i
      have hf' := forest_stage rule coupling' j
      have hm := picks_of_next hnext
      have halone := hclear i m hnext
      rw [hm.coupling_eq] at halone
      obtain ⟨q, hq, hpq⟩ := (hf.selects_of_picks hm).of_perm halone _ h.groups_perm
      obtain ⟨m', hnext', hfirst, hsecond⟩ := hf'.exists_join_of_selects hq
      have hpair : s(m.first.members, m.second.members) = s(m'.first.members, m'.second.members) := by
        rw [hfirst, hsecond]
        exact Sym2.mk_eq_mk_iff.2 hpq
      refine Or.inr ⟨m', ?_, h.apply hf hf' hm (picks_of_next hnext') hpair⟩
      rw [hfind]
      exact hnext'
    · intro i j m' h hnext
      have hm' := picks_of_next hnext
      rw [hfind] at hm'
      have hselects := (forest_stage rule coupling' j).selects_of_picks hm'
      obtain ⟨q, hq, -⟩ := hselects.exists_of_perm _ h.groups_perm.symm
      obtain ⟨m, hm, -⟩ := (forest_stage rule coupling i).exists_join_of_selects hq
      exact ⟨m, hm⟩
  exact ⟨hrun.history_eq, hrun.groups_perm⟩

/-- The chain with its links in reverse. -/
def reversedChain : CouplingMap Rat := .ofList [(("B", "C"), 1 / 4), (("A", "B"), 1 / 2)]

theorem chain_reordered :
    chain.entries.Perm reversedChain.entries ∧ Untied ⟨0, 1⟩ chain ∧
      (run ⟨0, 1⟩ chain).clustering.history.map Merge.outline ≠
        (run ⟨0, 1⟩ reversedChain).clustering.history.map Merge.outline ∧
      (run ⟨0, 1⟩ chain).clustering.history.map Merge.unordered =
        (run ⟨0, 1⟩ reversedChain).clustering.history.map Merge.unordered := by
  have hperm : chain.entries.Perm reversedChain.entries := by decide +kernel
  have hclear : Untied ⟨0, 1⟩ chain := untied_of_lt (by decide +kernel)
  have hsides : (run ⟨0, 1⟩ chain).clustering.history.map Merge.outline ≠
      (run ⟨0, 1⟩ reversedChain).clustering.history.map Merge.outline := by
    decide +kernel
  exact ⟨hperm, hclear, hsides, (run_reorder hperm hclear).1⟩

end Clustering

end CouplingTree
