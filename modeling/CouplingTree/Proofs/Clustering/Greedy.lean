import Mathlib.Order.Fin.Basic
import CouplingTree.Proofs.Clustering.Groups
import CouplingTree.Proofs.Means
import CouplingTree.Proofs.Numbers.Finite

/-!
# Greedy merges

Each merge of a run joins the first pair of clusters with the greatest coupling, where pairs are ordered by their places. A
coupling that is no number is passed over; there is none if all values are finite and not too many.

* `Before`, `pairwise_pairsOf` : the order of pairs of places, in which `pairsOf` lists them.
* `Merge.IsGreedy` : a merge of two clusters of a list that is the greedy choice.
* `CouplingMap.isNumber_between` : all means over finite values are numbers.
* `run_greedy` : all merges of a run are greedy.
-/

namespace CouplingTree

/-! ## Pairs of places -/

section Places

variable {ι : Type} [Preorder ι] {l : List ι} {p q : ι}

/-- The lexicographic order of pairs. -/
def Before (a b : ι × ι) : Prop := a.1 < b.1 ∨ a.1 = b.1 ∧ a.2 < b.2

theorem Before.asymm {a b : ι × ι} (h : Before a b) : ¬ Before b a := by
  rcases h with h | ⟨h, h'⟩
  · rintro (hb | ⟨hb, -⟩)
    · exact lt_asymm h hb
    · exact lt_irrefl _ (hb ▸ h)
  · rintro (hb | ⟨-, hb⟩)
    · exact lt_irrefl _ (h ▸ hb)
    · exact lt_asymm h' hb

theorem mem_pairsOf_of_lt (hl : l.Pairwise (· < ·)) (hp : p ∈ l) (hq : q ∈ l) (hlt : p < q) : (p, q) ∈ pairsOf l := by
  induction l with
  | nil => exact absurd hp List.not_mem_nil
  | cons x l ih =>
    obtain ⟨hx, hl⟩ := List.pairwise_cons.1 hl
    rw [pairsOf, List.mem_append]
    rcases List.mem_cons.1 hp with rfl | hpl
    · rcases List.mem_cons.1 hq with rfl | hql
      · exact absurd hlt (lt_irrefl q)
      · exact Or.inl (List.mem_map_of_mem hql)
    · rcases List.mem_cons.1 hq with rfl | hql
      · exact absurd hlt (lt_asymm (hx p hpl))
      · exact Or.inr (ih hl hpl hql)

theorem pairwise_pairsOf (hl : l.Pairwise (· < ·)) : (pairsOf l).Pairwise Before := by
  induction l with
  | nil => exact List.Pairwise.nil
  | cons x l ih =>
    obtain ⟨hx, hl⟩ := List.pairwise_cons.1 hl
    refine List.pairwise_append.2 ⟨List.pairwise_map.2 (hl.imp fun hlt => Or.inr ⟨rfl, hlt⟩), ih hl, ?_⟩
    intro a ha b hb
    obtain ⟨y, -, rfl⟩ := List.mem_map.1 ha
    exact Or.inl (hx b.1 ((mem_pairsOf.1 hb).subset (List.mem_cons_self ..)))

end Places

variable {α : Type} [Scalar α]

/-- What stands before the foremost item is less than it. -/
theorem Foremost.lt_of_before [LawfulScalar α] {β : Type} {f : β → α} {l : List β} {p q : β} {R : β → β → Prop}
    (h : Foremost f l p) (hl : l.Pairwise R) (hasymm : ∀ a b, R a b → ¬ R b a) (hq : q ∈ l) (hqp : R q p)
    (hnumber : Scalar.IsNumber (f q)) : f q < f p := by
  obtain ⟨before, after, rfl, hbefore, -⟩ := h.split
  rcases List.mem_append.1 hq with hq | hq
  · exact Scalar.lt_of_not_le (Scalar.comparable_of_lt h.positive) hnumber (hbefore q hq)
  · rcases List.mem_cons.1 hq with rfl | hq
    · exact absurd hqp (hasymm q q hqp)
    · have hafter := (List.pairwise_append.1 hl).2.1
      exact absurd ((List.pairwise_cons.1 hafter).1 q hq) (hasymm q p hqp)

/-! ## Greedy merges -/

/-- A merge of the clusters at two places of a list: no other pair with a number for its coupling couples more, nor does one
before it couple as much. -/
structure Merge.IsGreedy (coupling : CouplingMap α) (rule : StopRule α) (clusters : List (Cluster α)) (m : Merge α)
    (i j : Fin clusters.length) : Prop where
  lt : i < j
  first_eq : m.first = clusters.get i
  second_eq : m.second = clusters.get j
  coupling_eq : m.coupling = coupling.between (clusters.get i).members (clusters.get j).members
  result_eq : m.result.mergeCoupling = m.coupling
  positive : 0 < m.coupling
  strong : ¬ m.coupling < rule.minCoupling
  greatest : ∀ p q, p < q → Scalar.IsNumber (coupling.between (clusters.get p).members (clusters.get q).members) →
    coupling.between (clusters.get p).members (clusters.get q).members ≤ m.coupling
  first : ∀ p q, p < q → Scalar.IsNumber (coupling.between (clusters.get p).members (clusters.get q).members) →
    Before (p, q) (i, j) → coupling.between (clusters.get p).members (clusters.get q).members < m.coupling

namespace Clustering

variable {rule : StopRule α} {coupling : CouplingMap α} {c : Clustering α} {m : Merge α}

theorem greedy_of_picks [LawfulScalar α] (hm : Picks coupling.find? rule c m) :
    ∃ i j, m.IsGreedy coupling rule c.clusters i j := by
  have hforemost := Lookup.mostCoupled?_eq_some_iff.1 hm.best
  have hplaces : (List.finRange c.clusters.length).Pairwise (· < ·) := List.pairwise_lt_finRange _
  -- the pairs of clusters are those of their places
  rw [← List.map_get_finRange c.clusters, pairsOf_map] at hforemost
  obtain ⟨⟨i, j⟩, hpair, hij⟩ := foremost_map_iff.1 hforemost
  obtain ⟨hfirst, hsecond⟩ := Prod.mk.inj hpair
  have hcoupling : m.coupling = coupling.between (c.clusters.get i).members (c.clusters.get j).members := by
    rw [hm.coupling_eq, ← hfirst, ← hsecond]
    rfl
  have hordered : (pairsOf (List.finRange c.clusters.length)).Pairwise Before := pairwise_pairsOf hplaces
  have hmem : ∀ p q, p < q → (p, q) ∈ pairsOf (List.finRange c.clusters.length) :=
    fun p q => mem_pairsOf_of_lt hplaces (List.mem_finRange p) (List.mem_finRange q)
  refine ⟨i, j, rel_of_mem_pairsOf hplaces hij.mem, hfirst.symm, hsecond.symm, hcoupling, ?_, hcoupling ▸ hij.positive,
    hm.strong, fun p q hpq hnumber => ?_, fun p q hpq hnumber hbefore => ?_⟩
  · rw [hm.result_eq]
  · rw [hcoupling]
    exact (Scalar.not_lt_iff (Scalar.comparable_of_lt hij.positive) hnumber).1 (hij.not_lt (p, q) (hmem p q hpq))
  · rw [hcoupling]
    have hless := hij.lt_of_before hordered (fun _ _ => Before.asymm) (hmem p q hpq) hbefore hnumber
    exact hless

end Clustering

/-! ## Finite values -/

/-- All values are finite doubles, and not too many for their number to be one. -/
structure CouplingMap.Finite (coupling : CouplingMap Float) : Prop where
  values : ∀ e ∈ coupling.entries, Binary64.isFinite e.2 = true
  few : 2 * coupling.size ≤ countBound

namespace CouplingMap

omit [Scalar α] in
theorem length_filterMap_le {coupling : CouplingMap α} {ps : List (String × String)} (h : ps.Nodup) :
    (ps.filterMap coupling.find?).length ≤ coupling.size := by
  have hkeys : ∀ p ∈ ps.filter fun p => (coupling.find? p).isSome, p ∈ coupling.keys := fun p hp =>
    (coupling.mem_keys_iff p).2 (Option.isSome_iff_exists.1 (List.mem_filter.1 hp).2)
  have hlength := (List.subperm_of_subset (h.filter _) hkeys).length_le
  rw [← List.countP_eq_length_filter] at hlength
  rw [List.length_filterMap_eq_countP]
  exact hlength.trans_eq (List.length_map _)

omit [Scalar α] in
/-- Each entry is found twice at most, once in either direction. -/
theorem length_cross_le (coupling : CouplingMap α) (s t : NameSet) :
    (Lookup.cross coupling.find? s t).length ≤ 2 * coupling.size := by
  have hperm := ((Lookup.crossPairs_perm s t).filterMap coupling.find?).length_eq
  have hst : ((s.toList.product t.toList).filterMap coupling.find?).length ≤ coupling.size :=
    length_filterMap_le (List.Nodup.product s.nodup t.nodup)
  have hts : ((t.toList.product s.toList).filterMap coupling.find?).length ≤ coupling.size :=
    length_filterMap_le (List.Nodup.product t.nodup s.nodup)
  rw [List.filterMap_append, List.length_append] at hperm
  rw [Lookup.cross, hperm]
  omega

/-- No sum of finite values leads to what is no number. -/
theorem isNumber_between {coupling : CouplingMap Float} (h : coupling.Finite) (s t : NameSet) :
    Scalar.IsNumber (coupling.between s t) := by
  refine Doubles.isNumber_mean (fun v hv => ?_) ((coupling.length_cross_le s t).trans h.few)
  obtain ⟨p, -, hp⟩ := List.mem_filterMap.1 hv
  exact h.values (p, v) ((coupling.find?_eq_some_iff p v).1 hp)

end CouplingMap

/-! ## Runs -/

namespace Clustering

/-- **Each merge is the greedy choice.** It joins the first pair of the clusters that the merges before it have left with the
greatest coupling. Couplings that are no numbers are passed over; where all values are finite there are none. -/
theorem run_greedy (rule : StopRule Float) (coupling : CouplingMap Float) :
    (∀ k m, (run rule coupling).clustering.history[k]? = some m →
      (stage rule coupling k).history = (run rule coupling).clustering.history.take k ∧
        ∃ i j, m.IsGreedy coupling rule (stage rule coupling k).clusters i j) ∧
    (coupling.Finite → ∀ s t, Scalar.IsNumber (coupling.between s t)) := by
  refine ⟨fun k m hm => ?_, CouplingMap.isNumber_between⟩
  rw [run_clustering] at hm ⊢
  obtain ⟨hhistory, hnext⟩ := next_of_history hm
  exact ⟨hhistory, greedy_of_picks (picks_of_next hnext)⟩

/-- A chain of two links that couple alike. -/
def evenChain : CouplingMap Float := .ofList [(("A", "B"), 0.5), (("B", "C"), 0.5)]

/-- Of two links that couple alike the first one is merged. -/
theorem evenChain_greedy :
    ((run ⟨0, 1⟩ evenChain).clustering.history.map fun m => (m.first.names, m.second.names)) =
        [(["A"], ["B"]), (["C"], ["A", "B"])] ∧
      (∃ m, (run ⟨0, 1⟩ evenChain).clustering.history[0]? = some m ∧
        ∃ i j, m.IsGreedy evenChain ⟨0, 1⟩ (stage ⟨0, 1⟩ evenChain 0).clusters i j) ∧
      evenChain.Finite ∧ Scalar.IsNumber (evenChain.between (.singleton "A") (.singleton "B")) := by
  have hmerge : ((run ⟨0, 1⟩ evenChain).clustering.history[0]?).isSome = true := by decide +kernel
  have hfinite : evenChain.Finite := ⟨by decide +kernel, by decide +kernel⟩
  obtain ⟨m, hm⟩ := Option.isSome_iff_exists.1 hmerge
  have hgreedy := ((run_greedy ⟨0, 1⟩ evenChain).1 0 m hm).2
  have hnumber := (run_greedy ⟨0, 1⟩ evenChain).2 hfinite (.singleton "A") (.singleton "B")
  refine ⟨?_, ⟨m, hm, hgreedy⟩, hfinite, hnumber⟩
  decide +kernel

/-- Two classes with infinities of either sign between them, and two others. -/
def clashing : CouplingMap Float :=
  .ofList [(("A", "B"), Binary64.infinity false), (("B", "A"), Binary64.infinity true), (("C", "D"), 0.5)]

/-- All values are numbers, but the mean of the infinities is none, so that it does not come up to the coupling of the merge. -/
theorem clashing_passed_over :
    (∀ e ∈ clashing.entries, Scalar.IsNumber e.2) ∧
      ¬ ∀ k m, (run ⟨0, 1⟩ clashing).clustering.history[k]? = some m →
        ∀ p q : Fin (stage ⟨0, 1⟩ clashing k).clusters.length, p < q →
          clashing.between ((stage ⟨0, 1⟩ clashing k).clusters.get p).members
            ((stage ⟨0, 1⟩ clashing k).clusters.get q).members ≤ m.coupling := by
  refine ⟨by decide +kernel, fun h => ?_⟩
  have hmerge : ((run ⟨0, 1⟩ clashing).clustering.history[0]?).isSome = true := by decide +kernel
  have hlength : (stage ⟨0, 1⟩ clashing 0).clusters.length = 4 := by decide +kernel
  have hclash : ¬ Scalar.IsNumber (clashing.between (.singleton "A") (.singleton "B")) := by decide +kernel
  obtain ⟨m, hm⟩ := Option.isSome_iff_exists.1 hmerge
  have hle := h 0 m hm ⟨0, by omega⟩ ⟨1, by omega⟩ Nat.zero_lt_one
  have hnumber : Scalar.IsNumber (clashing.between ((stage ⟨0, 1⟩ clashing 0).clusters.get ⟨0, by omega⟩).members
      ((stage ⟨0, 1⟩ clashing 0).clusters.get ⟨1, by omega⟩).members) := (LawfulScalar.comparable _ _ hle).1
  exact hclash hnumber

end Clustering

end CouplingTree
