import Mathlib.Data.Set.Function
import CouplingTree.Proofs.Clustering.Consistency
import CouplingTree.Proofs.Clustering.Descent
import CouplingTree.Proofs.Clustering.Groups
import CouplingTree.Proofs.Relations
import CouplingTree.Proofs.Means

/-!
# Runs under other names

Sets of names and coupling maps under a renaming that keeps apart the names in use.

* `NameSet.map` with `NameSet.map_perm`, `NameSet.map_union`, `NameSet.sharedCount_map` : the renamed set, which may list its
  names in another order.
* `CouplingMap.rename` with `classes_rename`, `find?_rename` : the same entries in the same order, under renamed keys.
* `CouplingMap.between_rename` : for rational values no mean depends on names.

With rational numbers a run sees classes by their places only. Whatever other names they get, as long as these differ, it
makes the same merges, although names also set the order in which members are listed and values are pooled.

* `Clustering.rename` : the same numbers, couplings and parts, with renamed member sets.
* `next_rename`, `apply_rename` : one step under other names.
* `initial_rename`, `stage_rename` : hence all stages.
-/

namespace CouplingTree

variable {α : Type} {f : String → String} {s t : NameSet} {x y : String}

/-! ## Sets -/

namespace NameSet

def map (f : String → String) (s : NameSet) : NameSet := .ofList (s.toList.map f)

theorem mem_map : y ∈ s.map f ↔ ∃ x ∈ s, f x = y := by
  rw [map, mem_ofList, List.mem_map]
  rfl

theorem map_insert (f : String → String) (s : NameSet) (x : String) : (s.insert x).map f = (s.map f).insert (f x) := by
  refine ext_mem fun y => ?_
  simp only [mem_map, mem_insert, exists_eq_or_imp, eq_comm (a := y)]

theorem map_union (f : String → String) (s t : NameSet) : (s.union t).map f = (s.map f).union (t.map f) := by
  refine ext_mem fun y => ?_
  simp only [mem_map, mem_union, or_and_right, exists_or]

/-- Renamed names are listed in their own order. -/
theorem map_perm (hf : Set.InjOn f {x | x ∈ s}) : (s.map f).toList.Perm (s.toList.map f) := by
  have hnodup : (s.toList.map f).Nodup := List.Nodup.map_on (fun x hx y hy => hf hx hy) s.nodup
  rw [List.perm_ext_iff_of_nodup (s.map f).nodup hnodup]
  exact fun y => mem_ofList

theorem mem_map_iff {S : Set String} (hf : Set.InjOn f S) (hx : x ∈ S) (hs : ∀ y ∈ s, y ∈ S) : f x ∈ s.map f ↔ x ∈ s := by
  rw [mem_map]
  refine ⟨?_, fun h => ⟨x, h, rfl⟩⟩
  rintro ⟨y, hy, heq⟩
  exact hf (hs y hy) hx heq ▸ hy

theorem sharedCount_map {S : Set String} (hf : Set.InjOn f S) (hs : ∀ y ∈ s, y ∈ S) (ht : ∀ y ∈ t, y ∈ S) :
    (s.map f).sharedCount (t.map f) = s.sharedCount t := by
  unfold sharedCount
  rw [(map_perm (hf.mono hs)).countP_eq, List.countP_map]
  refine List.countP_congr fun x hx => ?_
  simp only [Function.comp_apply, decide_eq_true_iff]
  exact mem_map_iff hf (hs x hx) ht

end NameSet

/-! ## Lists and maps -/

theorem eraseDups_map {κ ι : Type} [DecidableEq κ] [DecidableEq ι] {g : κ → ι} {l : List κ} (hg : Set.InjOn g {x | x ∈ l}) :
    (l.map g).eraseDups = l.eraseDups.map g := by
  induction l using List.reverseRecOn with
  | nil => rfl
  | append_singleton l k ih =>
    have hinj : Set.InjOn g {x | x ∈ l} := hg.mono fun x hx => List.mem_append_left _ hx
    have hmem : g k ∈ l.map g ↔ k ∈ l := by
      rw [List.mem_map]
      refine ⟨?_, fun h => ⟨k, h, rfl⟩⟩
      rintro ⟨j, hj, heq⟩
      exact hg (List.mem_append_left _ hj) (List.mem_append_right _ (List.mem_singleton_self k)) heq ▸ hj
    rw [List.map_append, List.map_singleton, eraseDups_append_singleton, eraseDups_append_singleton, ih hinj]
    by_cases hk : k ∈ l
    · rw [if_pos hk, if_pos (hmem.2 hk)]
    · rw [if_neg hk, if_neg (mt hmem.1 hk), List.map_append, List.map_singleton]

namespace CouplingMap

/-- The coupling map with other names in its keys. -/
def rename (f : String → String) (coupling : CouplingMap α) : CouplingMap α :=
  .ofList (coupling.entries.map fun e => (e.1.map f f, e.2))

variable {coupling : CouplingMap α}

theorem fst_mem_classes {k : String × String} (h : k ∈ coupling.keys) : k.1 ∈ coupling.classes :=
  mem_classes.2 ⟨k, h, Or.inl rfl⟩

theorem snd_mem_classes {k : String × String} (h : k ∈ coupling.keys) : k.2 ∈ coupling.classes :=
  mem_classes.2 ⟨k, h, Or.inr rfl⟩

theorem injOn_keys (hf : Set.InjOn f {x | x ∈ coupling.classes}) :
    Set.InjOn (Prod.map f f) {k | k ∈ coupling.keys} := by
  rintro ⟨a, b⟩ hk ⟨a', b'⟩ hk' heq
  obtain ⟨ha, hb⟩ := Prod.mk.inj heq
  exact Prod.ext (hf (fst_mem_classes hk) (fst_mem_classes hk') ha) (hf (snd_mem_classes hk) (snd_mem_classes hk') hb)

theorem entries_rename (hf : Set.InjOn f {x | x ∈ coupling.classes}) :
    (coupling.rename f).entries = coupling.entries.map fun e => (e.1.map f f, e.2) := by
  refine OrderedMap.entries_ofList ?_
  have hkeys : (coupling.entries.map fun e => (e.1.map f f, e.2)).map Prod.fst = coupling.keys.map (Prod.map f f) := by
    rw [OrderedMap.keys, List.map_map, List.map_map]
    rfl
  rw [hkeys]
  exact List.Nodup.map_on (fun k hk k' hk' => injOn_keys hf hk hk') coupling.nodup

theorem keys_rename (hf : Set.InjOn f {x | x ∈ coupling.classes}) :
    (coupling.rename f).keys = coupling.keys.map (Prod.map f f) := by
  rw [OrderedMap.keys, entries_rename hf, OrderedMap.keys, List.map_map, List.map_map]
  rfl

theorem classes_rename (hf : Set.InjOn f {x | x ∈ coupling.classes}) : (coupling.rename f).classes = coupling.classes.map f := by
  have hmentions : (coupling.rename f).mentions = coupling.mentions.map f := by
    rw [mentions, keys_rename hf, mentions, List.flatMap_map, List.map_flatMap]
    rfl
  rw [classes_eq, classes_eq, hmentions]
  refine eraseDups_map (hf.mono fun x hx => ?_)
  rw [Set.mem_ofPred_eq, classes_eq]
  exact List.mem_eraseDups.2 hx

/-- A pair of classes has its value under the new names. -/
theorem find?_rename (hf : Set.InjOn f {x | x ∈ coupling.classes}) {k : String × String} (hfst : k.1 ∈ coupling.classes)
    (hsnd : k.2 ∈ coupling.classes) : (coupling.rename f).find? (k.map f f) = coupling.find? k := by
  refine Option.ext fun v => ?_
  rw [OrderedMap.find?_eq_some_iff, OrderedMap.find?_eq_some_iff, entries_rename hf, List.mem_map]
  refine ⟨?_, fun h => ⟨(k, v), h, rfl⟩⟩
  rintro ⟨⟨k', v'⟩, hmem, heq⟩
  obtain ⟨hk, rfl⟩ := Prod.mk.inj heq
  obtain ⟨ha, hb⟩ := Prod.mk.inj hk
  have hkey : k' ∈ coupling.keys := List.mem_map_of_mem hmem
  rwa [← Prod.ext (hf (fst_mem_classes hkey) hfst ha) (hf (snd_mem_classes hkey) hsnd hb)]

end CouplingMap

/-! ## Means -/

/-- The pairs across two renamed sets, though perhaps in another order. -/
theorem Lookup.crossPairs_map (hs : Set.InjOn f {x | x ∈ s}) (ht : Set.InjOn f {x | x ∈ t}) :
    (crossPairs (s.map f) (t.map f)).Perm ((crossPairs s t).map (Prod.map f f)) := by
  have hrow : ∀ a, ((t.map f).toList.flatMap fun b => [(a, b), (b, a)]).Perm
      (t.toList.flatMap fun b => [(a, f b), (f b, a)]) := fun a => by
    have hperm := (NameSet.map_perm ht).flatMap_right fun b => [(a, b), (b, a)]
    rwa [List.flatMap_map] at hperm
  unfold crossPairs
  rw [List.map_flatMap]
  refine ((NameSet.map_perm hs).flatMap_right _).trans ?_
  rw [List.flatMap_map]
  refine List.Perm.flatMap_left _ fun a _ => (hrow (f a)).trans (List.Perm.of_eq ?_)
  rw [List.map_flatMap]
  rfl

/-- The values are pooled in the order of the names, which does not matter for rational numbers. -/
theorem CouplingMap.between_rename {coupling : CouplingMap Rat} (hf : Set.InjOn f {x | x ∈ coupling.classes})
    (hs : ∀ x ∈ s, x ∈ coupling.classes) (ht : ∀ x ∈ t, x ∈ coupling.classes) :
    (coupling.rename f).between (s.map f) (t.map f) = coupling.between s t := by
  have hvalues : ∀ k ∈ Lookup.crossPairs s t, (coupling.rename f).find? (k.map f f) = coupling.find? k := by
    intro k hk
    rcases Lookup.mem_crossPairs.1 hk with ⟨hfst, hsnd⟩ | ⟨hfst, hsnd⟩
    · exact find?_rename hf (hs _ hfst) (ht _ hsnd)
    · exact find?_rename hf (ht _ hfst) (hs _ hsnd)
  have hpairs := (Lookup.crossPairs_map (hf.mono hs) (hf.mono ht)).filterMap (coupling.rename f).find?
  rw [List.filterMap_map] at hpairs
  exact mean_perm (hpairs.trans (List.Perm.of_eq (List.filterMap_congr hvalues)))

end CouplingTree

namespace CouplingTree

variable {α : Type} {f : String → String}

def Cluster.rename (f : String → String) (k : Cluster α) : Cluster α := { k with members := k.members.map f }

def Merge.rename (f : String → String) (m : Merge α) : Merge α :=
  ⟨m.first.rename f, m.second.rename f, m.coupling, m.result.rename f⟩

namespace Clustering

/-- The clustering with other names; numbers, couplings and parts stay as they are. -/
def rename (f : String → String) (c : Clustering α) : Clustering α where
  coupling := c.coupling.rename f
  arena := c.arena.map (Cluster.rename f)
  active := c.active
  history := c.history.map (Merge.rename f)

def Next.rename (f : String → String) : Next α → Next α
  | enough => enough
  | uncoupled => uncoupled
  | weak best => weak best
  | join m => join (m.rename f)

theorem clusters_rename (f : String → String) (c : Clustering α) :
    (c.rename f).clusters = c.clusters.map (Cluster.rename f) := by
  unfold clusters
  rw [List.map_filterMap]
  refine List.filterMap_congr fun i _ => ?_
  show (c.arena.map (Cluster.rename f))[i]? = _
  rw [List.getElem?_map]

theorem apply_rename (f : String → String) (c : Clustering α) (m : Merge α) :
    (c.apply m).rename f = (c.rename f).apply (m.rename f) := by
  unfold rename apply
  simp only [List.map_append, List.map_singleton]
  rfl

theorem mergeOf_rename (f : String → String) (c : Clustering α) (first second : Cluster α) (v : α) :
    (c.rename f).mergeOf (first.rename f) (second.rename f) v = (c.mergeOf first second v).rename f := by
  unfold mergeOf Merge.rename Cluster.rename rename
  simp only [List.length_map, NameSet.map_union]

/-! ## One step -/

section Step

variable [Scalar α] [LawfulScalar α] {value? value'? : Lookup α} {rule : StopRule α}

/-- Clusters that couple alike under other names are chosen alike. -/
theorem next_rename {c : Clustering α}
    (h : ∀ k ∈ c.clusters, ∀ l ∈ c.clusters,
      value'?.between (k.members.map f) (l.members.map f) = value?.between k.members l.members) :
    (c.rename f).next value'? rule = (c.next value? rule).rename f := by
  have hbest : value'?.mostCoupled? (c.rename f).clusters =
      (value?.mostCoupled? c.clusters).map (Prod.map (Cluster.rename f) (Cluster.rename f)) := by
    have hpair : ∀ p ∈ pairsOf c.clusters,
        value'?.ofPair (Lookup.memberPair (p.map (Cluster.rename f) (Cluster.rename f))) =
          value?.ofPair (Lookup.memberPair p) := by
      intro p hp
      have hsub := mem_pairsOf.1 hp
      exact h p.1 (hsub.subset (List.mem_cons_self ..)) p.2 (hsub.subset (List.mem_cons_of_mem _ (List.mem_cons_self ..)))
    rw [clusters_rename]
    exact Lookup.mostCoupled?_map fun p => ⟨fun hp => hp.congr fun q hq => (hpair q hq).symm, fun hp => hp.congr hpair⟩
  have hactive : (c.rename f).active = c.active := rfl
  unfold next
  rw [hbest, hactive]
  split
  · rfl
  cases hpair : value?.mostCoupled? c.clusters with
  | none => rfl
  | some p =>
    have hsub := mem_pairsOf.1 (Lookup.mem_pairsOf_of_mostCoupled? hpair)
    have hvalue : value'?.between (p.1.rename f).members (p.2.rename f).members = value?.between p.1.members p.2.members :=
      h p.1 (hsub.subset (List.mem_cons_self ..)) p.2 (hsub.subset (List.mem_cons_of_mem _ (List.mem_cons_self ..)))
    simp only [Option.map_some, Prod.map, hvalue, mergeOf_rename]
    split <;> rfl

end Step

/-! ## All stages -/

variable {rule : StopRule Rat} {coupling : CouplingMap Rat}

theorem initial_rename (hf : Set.InjOn f {x | x ∈ coupling.classes}) :
    initial (coupling.rename f) = (initial coupling).rename f := by
  have hleaves : leaves (coupling.rename f) = (leaves coupling).map (Cluster.rename f) := by
    refine List.ext_getElem? fun i => ?_
    rw [getElem?_leaves, CouplingMap.classes_rename hf, List.getElem?_map, List.getElem?_map, getElem?_leaves,
      Option.map_map, Option.map_map]
    rfl
  show Clustering.mk (coupling.rename f) (leaves (coupling.rename f)) (List.range (leaves (coupling.rename f)).length) [] = _
  rw [hleaves, List.length_map]
  rfl

theorem next_stage_rename (hf : Set.InjOn f {x | x ∈ coupling.classes}) {c : Clustering Rat} (h : Forest coupling c) :
    (c.rename f).next (coupling.rename f).find? rule = (c.next coupling.find? rule).rename f := by
  have hclasses : ∀ k ∈ c.clusters, ∀ x ∈ k.members, x ∈ coupling.classes :=
    fun k hk => h.mem_classes_of_mem (h.mem_clusters.1 hk).1
  exact next_rename fun k hk l hl => CouplingMap.between_rename hf (hclasses k hk) (hclasses l hl)

theorem stage_rename (hf : Set.InjOn f {x | x ∈ coupling.classes}) (steps : Nat) :
    stage rule (coupling.rename f) steps = (stage rule coupling steps).rename f := by
  induction steps with
  | zero =>
    rw [stage_zero, stage_zero]
    exact initial_rename hf
  | succ steps ih =>
    rw [stage_succ, stage_succ, ih, next_stage_rename hf (forest_stage rule coupling steps)]
    cases (stage rule coupling steps).next coupling.find? rule with
    | join m => exact (apply_rename f _ m).symm
    | _ => rfl

theorem run_clustering_rename (hf : Set.InjOn f {x | x ∈ coupling.classes}) (rule : StopRule Rat) :
    (run rule (coupling.rename f)).clustering = (run rule coupling).clustering.rename f := by
  rw [run_clustering, run_clustering, stage_rename hf, initial_rename hf]
  rfl

end Clustering

end CouplingTree
