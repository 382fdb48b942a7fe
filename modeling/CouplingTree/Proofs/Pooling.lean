import Mathlib.Algebra.BigOperators.Group.List.Lemmas
import Mathlib.Algebra.BigOperators.Ring.List
import Mathlib.Tactic.Ring
import CouplingTree.Proofs.Clustering.Stages
import CouplingTree.Proofs.Means
import CouplingTree.Proofs.Relations

/-!
# Where recorded pairs are pooled

Each mean pools the values recorded inside one set of classes or across two. Groups of classes have one such pool for each
group and for each two of them.

* `Pool.count_inside`, `Pool.count_across` : how often a pool looks a pair up; `count_pools` : how often all of them do.
* `nodup_flatMap_pairs` : groups that share no class look no pair up twice.
* `filterMap_find?_perm` : to look keys up, none of them twice, finds the values of their entries.
* `Pool.sharedOut_of_perm` : a mean of values that are shared out is the mean of means, weighted by their numbers.
* `Covers.poolsOnce` : groups that have each class take up each recorded pair of distinct classes once.
* `pooled_once` : hence the means over unions.
-/

namespace CouplingTree
open scoped List

/-- A place where values are pooled: inside a set of classes, or across two. -/
inductive Pool
  | inside (s : NameSet)
  | across (s t : NameSet)

/-- The pools of some groups: inside each, and across each two of them. -/
def pools (groups : List NameSet) : List Pool :=
  groups.map .inside ++ (pairsOf groups).map fun p => .across p.1 p.2

namespace Pool

/-- The pairs that are looked up, in the order of the look-ups. -/
def pairs : Pool → List (String × String)
  | inside s => Lookup.innerPairs s
  | across s t => Lookup.crossPairs s t

/-- Where a pair belongs: the set has both classes, which differ, or either set has one of them. -/
def Holds : Pool → String × String → Prop
  | inside s, k => k.1 ∈ s ∧ k.2 ∈ s ∧ k.1 ≠ k.2
  | across s t, k => k.1 ∈ s ∧ k.2 ∈ t ∨ k.1 ∈ t ∧ k.2 ∈ s

instance (P : Pool) (k : String × String) : Decidable (P.Holds k) :=
  match P with
  | inside s => inferInstanceAs (Decidable (k.1 ∈ s ∧ k.2 ∈ s ∧ k.1 ≠ k.2))
  | across s t => inferInstanceAs (Decidable (k.1 ∈ s ∧ k.2 ∈ t ∨ k.1 ∈ t ∧ k.2 ∈ s))

section Values

variable {α : Type}

/-- The values that are found. -/
def values (coupling : CouplingMap α) (P : Pool) : List α := P.pairs.filterMap coupling.find?

/-- How many values are found. -/
def found (coupling : CouplingMap α) (P : Pool) : Nat := (P.values coupling).length

/-- The mean coupling inside the set, or across the two. -/
def pooled [Scalar α] (coupling : CouplingMap α) : Pool → α
  | inside s => coupling.within s
  | across s t => coupling.between s t

theorem pooled_eq [Scalar α] (coupling : CouplingMap α) (P : Pool) : P.pooled coupling = mean (P.values coupling) := by
  cases P <;> rfl

end Values

variable {a b : String} {s t : NameSet} {P : Pool} {k : String × String}

theorem mem_pairs : k ∈ P.pairs ↔ P.Holds k := by
  cases P with
  | inside s => exact Lookup.mem_distinctPairs
  | across s t => exact Lookup.mem_crossPairs

/-! ## How often a pair is looked up -/

/-- One for a class of the set, and zero for any other. -/
def presence (a : String) (s : NameSet) : Nat := if a ∈ s then 1 else 0

theorem presence_mul (a b : String) (s t : NameSet) : presence a s * presence b t = if a ∈ s ∧ b ∈ t then 1 else 0 := by
  by_cases ha : a ∈ s <;> by_cases hb : b ∈ t <;> simp [presence, ha, hb]

theorem count_inside (h : a ≠ b) (s : NameSet) : (inside s).pairs.count (a, b) = presence a s * presence b s := by
  have hmem : (a, b) ∈ (inside s).pairs ↔ a ∈ s ∧ b ∈ s := by
    rw [mem_pairs]
    exact and_congr_right' (and_iff_left h)
  have hnodup : (inside s).pairs.Nodup := Lookup.nodup_innerPairs s
  rw [hnodup.count, presence_mul]
  exact if_congr hmem rfl rfl

theorem count_product (a b : String) (s t : NameSet) :
    (s.toList.product t.toList).count (a, b) = presence a s * presence b t := by
  have hnodup : (s.toList.product t.toList).Nodup := List.Nodup.product s.nodup t.nodup
  rw [hnodup.count, presence_mul]
  exact if_congr List.mem_product rfl rfl

/-- Each direction is looked up once for itself. -/
theorem count_across (a b : String) (s t : NameSet) :
    (across s t).pairs.count (a, b) = presence a s * presence b t + presence a t * presence b s := by
  rw [pairs, (Lookup.crossPairs_perm s t).count_eq, List.count_append, count_product, count_product]

end Pool

open Pool

variable {groups : List NameSet} {a b x : String}

/-- How many groups have a class. -/
def presences (a : String) (groups : List NameSet) : Nat := (groups.map (presence a)).sum

/-- A pair is looked up once for each group of its first class and each group of its second one. -/
theorem count_pools (h : a ≠ b) (groups : List NameSet) :
    ((pools groups).map fun P => P.pairs.count (a, b)).sum = presences a groups * presences b groups := by
  induction groups with
  | nil => rfl
  | cons s rest ih =>
    have hacross : (rest.map fun t => (across s t).pairs.count (a, b)).sum =
        presence a s * presences b rest + presences a rest * presence b s := by
      simp only [count_across, List.sum_map_add, List.sum_map_mul_left, List.sum_map_mul_right, presences]
    simp only [pools, pairsOf, List.map_append, List.map_cons, List.map_map, List.sum_append, List.sum_cons,
      Function.comp_def, count_inside h s, hacross] at ih ⊢
    have hsum : ∀ c, presences c (s :: rest) = presence c s + presences c rest := fun c => List.sum_cons
    rw [hsum, hsum, add_mul, mul_add, mul_add, ← ih]
    ring

/-- Groups that share no class, and have each class of a coupling map. -/
structure Covers {α : Type} [Scalar α] (groups : List NameSet) (coupling : CouplingMap α) : Prop where
  apart : groups.Pairwise NameSet.Apart
  covered : ∀ x ∈ coupling.classes, ∃ s ∈ groups, x ∈ s

theorem presences_of_not_mem (h : ∀ s ∈ groups, a ∉ s) : presences a groups = 0 := by
  refine List.sum_eq_zero fun n hn => ?_
  obtain ⟨s, hs, rfl⟩ := List.mem_map.1 hn
  exact if_neg (h s hs)

theorem presences_of_mem (h : groups.Pairwise NameSet.Apart) {s : NameSet} (hs : s ∈ groups) (ha : a ∈ s) :
    presences a groups = 1 := by
  induction groups with
  | nil => cases hs
  | cons t rest ih =>
    obtain ⟨ht, hrest⟩ := List.pairwise_cons.1 h
    rw [presences, List.map_cons, List.sum_cons, ← presences]
    obtain rfl | hs := List.mem_cons.1 hs
    · rw [presence, if_pos ha, presences_of_not_mem fun u hu => ht u hu a ha]
    · rw [presence, if_neg fun hat => ht s hs a hat ha, ih hrest hs]

theorem presences_le_one (h : groups.Pairwise NameSet.Apart) (a : String) : presences a groups ≤ 1 := by
  by_cases ha : ∃ s ∈ groups, a ∈ s
  · obtain ⟨s, hs, ha⟩ := ha
    exact (presences_of_mem h hs ha).le
  · push Not at ha
    exact (presences_of_not_mem ha).trans_le (Nat.zero_le 1)

/-! ## Pools of groups that share no class -/

section Apart

variable (h : groups.Pairwise NameSet.Apart) {P : Pool}
include h

theorem mem_pools (hP : P ∈ pools groups) : (∃ s ∈ groups, P = .inside s) ∨ ∃ s t, s.Apart t ∧ P = .across s t := by
  obtain hP | hP := List.mem_append.1 hP
  · obtain ⟨s, hs, rfl⟩ := List.mem_map.1 hP
    exact Or.inl ⟨s, hs, rfl⟩
  · obtain ⟨p, hp, rfl⟩ := List.mem_map.1 hP
    exact Or.inr ⟨p.1, p.2, rel_of_mem_pairsOf h hp, rfl⟩

theorem nodup_pairs (hP : P ∈ pools groups) : P.pairs.Nodup := by
  obtain ⟨s, -, rfl⟩ | ⟨s, t, hst, rfl⟩ := mem_pools h hP
  · exact Lookup.nodup_innerPairs s
  · exact Lookup.nodup_crossPairs hst

/-- No class is looked up with itself. -/
theorem self_not_mem_pairs (hP : P ∈ pools groups) (a : String) : (a, a) ∉ P.pairs := by
  rw [mem_pairs]
  obtain ⟨s, -, rfl⟩ | ⟨s, t, hst, rfl⟩ := mem_pools h hP
  · exact fun hk => hk.2.2 rfl
  · rintro (⟨hs, ht⟩ | ⟨ht, hs⟩)
    · exact hst a hs ht
    · exact hst a hs ht

theorem nodup_flatMap_pairs : ((pools groups).flatMap pairs).Nodup := by
  rw [List.nodup_iff_count_le_one]
  rintro ⟨a, b⟩
  by_cases hab : a = b
  · subst hab
    have hnone : (a, a) ∉ (pools groups).flatMap pairs := fun hmem => by
      obtain ⟨P, hP, hk⟩ := List.mem_flatMap.1 hmem
      exact self_not_mem_pairs h hP a hk
    exact (List.count_eq_zero.2 hnone).trans_le (Nat.zero_le 1)
  · rw [List.count_flatMap]
    exact (count_pools hab groups).trans_le (Nat.mul_le_mul (presences_le_one h a) (presences_le_one h b))

end Apart

/-! ## What is found -/

/-- To look keys up, none of them twice, finds the values of their entries. -/
theorem filterMap_find?_perm {κ β : Type} [DecidableEq κ] (m : OrderedMap κ β) {ks : List κ} (hks : ks.Nodup) :
    ks.filterMap m.find? ~ (m.entries.filter fun e => decide (e.1 ∈ ks)).map Prod.snd := by
  let tagged := ks.filterMap fun k => (m.find? k).map fun v => (k, v)
  have hmem : ∀ e, e ∈ tagged ↔ e ∈ m.entries.filter fun e => decide (e.1 ∈ ks) := by
    rintro ⟨k, v⟩
    simp only [tagged, List.mem_filterMap, Option.map_eq_some_iff, Prod.mk.injEq, List.mem_filter, decide_eq_true_eq,
      ← m.find?_eq_some_iff]
    constructor
    · rintro ⟨k, hk, v, hv, rfl, rfl⟩
      exact ⟨hv, hk⟩
    · rintro ⟨hv, hk⟩
      exact ⟨k, hk, v, hv, rfl, rfl⟩
  have htagged : tagged.Nodup := hks.filterMap fun k k' e hk hk' => by
    obtain ⟨v, -, hv⟩ := Option.map_eq_some_iff.1 hk
    obtain ⟨v', -, hv'⟩ := Option.map_eq_some_iff.1 hk'
    exact (Prod.mk.inj (hv.trans hv'.symm)).1
  have hperm : tagged ~ m.entries.filter fun e => decide (e.1 ∈ ks) :=
    (List.perm_ext_iff_of_nodup htagged ((List.Nodup.of_map _ m.nodup).filter _)).2 hmem
  have hvalues : tagged.map Prod.snd = ks.filterMap m.find? := by
    simp [tagged, List.map_filterMap, Function.comp_def]
  rw [← hvalues]
  exact hperm.map Prod.snd

/-! ## Means of means -/

/-- The mean of some means, each of which counts as often as values were found for it; zero when none were found. -/
def weightedMean (parts : List (Nat × Rat)) : Rat :=
  let number := (parts.map Prod.fst).sum
  if number = 0 then 0 else (parts.map fun p => (p.1 : Rat) * p.2).sum / number

theorem weightedMean_eq (lists : List (List Rat)) :
    weightedMean (lists.map fun values => (values.length, mean values)) = mean lists.flatten := by
  have hnumber : (lists.map fun values => (values.length, mean values)).map Prod.fst = lists.map List.length := by
    rw [List.map_map]
    rfl
  have hsum : ((lists.map fun values => (values.length, mean values)).map fun p => (p.1 : Rat) * p.2).sum =
      lists.flatten.sum := by
    rw [List.map_map, List.sum_flatten]
    congr 1
    refine List.map_congr_left fun values _ => ?_
    rw [sum_eq_mean_mul, mul_comm]
    rfl
  rw [weightedMean, hnumber, hsum, ← List.length_flatten, mean_eq]
  split
  · next hzero => rw [hzero, Nat.cast_zero, div_zero]
  · rfl

/-- What is found in a pool is what is found in some others together. -/
structure Pool.SharedOut (coupling : CouplingMap Rat) (P : Pool) (parts : List Pool) : Prop where
  found_eq : P.found coupling = (parts.map (found coupling)).sum
  sum_eq : (P.values coupling).sum = (parts.map fun Q => (Q.values coupling).sum).sum
  pooled_eq : P.pooled coupling = weightedMean (parts.map fun Q => (Q.found coupling, Q.pooled coupling))

theorem Pool.sharedOut_of_perm {coupling : CouplingMap Rat} {P : Pool} {parts : List Pool}
    (h : P.values coupling ~ (parts.map (values coupling)).flatten) : P.SharedOut coupling parts where
  found_eq := by
    rw [found, h.length_eq, List.length_flatten, List.map_map]
    rfl
  sum_eq := by
    rw [h.sum_eq, List.sum_flatten, List.map_map]
    rfl
  pooled_eq := by
    rw [pooled_eq, mean_perm h, ← weightedMean_eq, List.map_map]
    simp only [pooled_eq]
    rfl

/-! ## Each recorded pair enters one mean -/

/-- The recorded pairs of distinct classes are shared out among the means of some groups. -/
structure PoolsOnce (groups : List NameSet) (coupling : CouplingMap Rat) : Prop where
  /-- All look-ups together look such a pair up once. -/
  once : ∀ k ∈ coupling.keys, k.1 ≠ k.2 → ((pools groups).map fun P => P.pairs.count k).sum = 1
  placed : ∀ P ∈ pools groups, ∀ k, k ∈ P.pairs ↔ P.Holds k
  never : ∀ P ∈ pools groups, ∀ a, (a, a) ∉ P.pairs
  /-- A mean is that of the entries that belong to it. -/
  values_perm : ∀ P ∈ pools groups,
    P.values coupling ~ (coupling.entries.filter fun e => decide (P.Holds e.1)).map Prod.snd
  pooled_eq : ∀ P ∈ pools groups,
    P.pooled coupling = mean ((coupling.entries.filter fun e => decide (P.Holds e.1)).map Prod.snd)
  /-- All means together take up the values of these entries, each once. -/
  all_perm : (pools groups).flatMap (values coupling) ~
    (coupling.entries.filter fun e => decide (e.1.1 ≠ e.1.2)).map Prod.snd

/-- Pairs that are looked up once at most are found with the entries that belong to them. -/
theorem values_perm_of_nodup {κ : Type} [DecidableEq κ] {m : OrderedMap κ Rat} {ks : List κ} {holds : κ → Prop}
    [DecidablePred holds] (hks : ks.Nodup) (h : ∀ k ∈ m.keys, k ∈ ks ↔ holds k) :
    ks.filterMap m.find? ~ (m.entries.filter fun e => decide (holds e.1)).map Prod.snd := by
  have hfilter : (m.entries.filter fun e => decide (e.1 ∈ ks)) = m.entries.filter fun e => decide (holds e.1) :=
    List.filter_congr fun e he => decide_eq_decide.2 (h e.1 (List.mem_map_of_mem he))
  rw [← hfilter]
  exact filterMap_find?_perm m hks

namespace Covers

variable {coupling : CouplingMap Rat} (h : Covers groups coupling) {P : Pool} {k : String × String}
include h

theorem count_pools (hk : k ∈ coupling.keys) (hne : k.1 ≠ k.2) :
    ((pools groups).map fun P => P.pairs.count k).sum = 1 := by
  obtain ⟨s, hs, hfirst⟩ := h.covered k.1 (CouplingMap.mem_classes.2 ⟨k, hk, Or.inl rfl⟩)
  obtain ⟨t, ht, hsecond⟩ := h.covered k.2 (CouplingMap.mem_classes.2 ⟨k, hk, Or.inr rfl⟩)
  rw [CouplingTree.count_pools hne, presences_of_mem h.apart hs hfirst, presences_of_mem h.apart ht hsecond]

theorem mem_flatMap_pairs_iff (hk : k ∈ coupling.keys) : k ∈ (pools groups).flatMap pairs ↔ k.1 ≠ k.2 := by
  constructor
  · rintro hmem hself
    obtain ⟨P, hP, hkP⟩ := List.mem_flatMap.1 hmem
    refine self_not_mem_pairs h.apart hP k.1 ?_
    rwa [show (k.1, k.1) = k from Prod.ext rfl hself]
  · intro hne
    refine List.one_le_count_iff.1 ?_
    rw [List.count_flatMap]
    exact (h.count_pools hk hne).ge

theorem values_perm (hP : P ∈ pools groups) :
    P.values coupling ~ (coupling.entries.filter fun e => decide (P.Holds e.1)).map Prod.snd :=
  values_perm_of_nodup (nodup_pairs h.apart hP) fun _ _ => mem_pairs

theorem poolsOnce : PoolsOnce groups coupling where
  once _ := h.count_pools
  placed _ _ _ := mem_pairs
  never _ hP := self_not_mem_pairs h.apart hP
  values_perm _ := h.values_perm
  pooled_eq P hP := (P.pooled_eq coupling).trans (mean_perm (h.values_perm hP))
  all_perm := by
    have hflat : (pools groups).flatMap (values coupling) = ((pools groups).flatMap pairs).filterMap coupling.find? :=
      (List.filterMap_flatMap ..).symm
    rw [hflat]
    have hmem : ∀ k ∈ coupling.keys, k ∈ (pools groups).flatMap pairs ↔ k.1 ≠ k.2 := fun _ => h.mem_flatMap_pairs_iff
    exact values_perm_of_nodup (nodup_flatMap_pairs h.apart) hmem

end Covers

/-- **Each recorded pair of distinct classes enters one mean, and once.** A mean across two sets is the same from either
side, and means over a union are the means over its parts, weighted by how many values they have. -/
theorem pooled_once (coupling : CouplingMap Rat) :
    (∀ groups, Covers groups coupling → PoolsOnce groups coupling) ∧
      (∀ s t, coupling.between s t = coupling.between t s) ∧
      (∀ s t u, s.Apart t →
        (Pool.across (s.union t) u).SharedOut coupling [.across s u, .across t u] ∧
          (Pool.inside (s.union t)).SharedOut coupling [.inside s, .inside t, .across s t]) ∧
      ∀ P : Pool, P.found coupling = 0 → P.pooled coupling = 0 := by
  refine ⟨fun groups h => h.poolsOnce, Lookup.between_comm _, fun s t u h => ⟨sharedOut_of_perm ?_, sharedOut_of_perm ?_⟩,
    fun P hP => ?_⟩
  · have hperm : (across (s.union t) u).pairs ~ (across s u).pairs ++ (across t u).pairs :=
      calc Lookup.crossPairs (s.union t) u
        _ ~ Lookup.crossPairs u (s.union t) := Lookup.crossPairs_comm _ _
        _ ~ Lookup.crossPairs u s ++ Lookup.crossPairs u t := Lookup.crossPairs_union u h
        _ ~ Lookup.crossPairs s u ++ Lookup.crossPairs t u := (Lookup.crossPairs_comm u s).append (Lookup.crossPairs_comm u t)
    have hvalues := hperm.filterMap coupling.find?
    rw [List.filterMap_append] at hvalues
    simpa [values] using hvalues
  · have hvalues := Lookup.inner_union_perm coupling.find? h
    simpa [values, pairs, Lookup.inner, Lookup.cross] using hvalues
  · rw [P.pooled_eq, List.eq_nil_of_length_eq_zero hP]
    rfl

/-! ## A class that is named with itself -/

/-- Both directions between `A` and `B`, one from `B` to `C`, and `C` with itself. -/
def looped : CouplingMap Rat := .ofList [(("A", "B"), 1 / 2), (("B", "A"), 1 / 4), (("C", "C"), 1), (("B", "C"), 1 / 8)]

def loopedGroups : List NameSet := [.ofList ["A", "B"], .singleton "C"]

/-- The pair of a class with itself enters no mean, and each of the others enters one. -/
theorem looped_pooled : Covers loopedGroups looped ∧ PoolsOnce loopedGroups looped ∧
    (pools loopedGroups).map (Pool.values looped) = [[1 / 2, 1 / 4], [], [1 / 8]] ∧
    (NameSet.singleton "A").Apart (.singleton "B") ∧
    (Pool.across (.union (.singleton "A") (.singleton "B")) (.singleton "C")).SharedOut looped
      [.across (.singleton "A") (.singleton "C"), .across (.singleton "B") (.singleton "C")] := by
  have hcovers : Covers loopedGroups looped := by
    refine ⟨List.pairwise_pair.2 fun x hx hx' => ?_, ?_⟩
    · cases NameSet.mem_singleton.1 hx'
      exact absurd hx (by decide)
    · have hclasses : looped.classes = ["A", "B", "C"] := by decide +kernel
      simp only [hclasses, List.forall_mem_cons, List.not_mem_nil, false_imp_iff, implies_true, and_true]
      decide +kernel
  have hapart : (NameSet.singleton "A").Apart (.singleton "B") := fun x hx hx' => by
    cases NameSet.mem_singleton.1 hx
    exact absurd hx' (by decide)
  obtain ⟨honce, -, hunion, -⟩ := pooled_once looped
  exact ⟨hcovers, honce _ hcovers, by decide +kernel, hapart, (hunion _ _ _ hapart).1⟩

end CouplingTree
