import Mathlib.Data.List.Induction
import CouplingTree.Proofs.Clustering.Stages
import CouplingTree.Proofs.Numbers.Comparison

/-!
# The first of the greatest

`Foremost f l p` says that `p` is the first item of `l` with the greatest value, and that this value is above zero. Values
that are not comparable are passed over.

* `Foremost.not_lt`, `Foremost.unique` : no item exceeds the foremost one, and there is only one.
* `Foremost.congr`, `Foremost.filter`, `foremost_map_iff` : what keeps the foremost item.
* `Lookup.mostCoupled?_eq_some_iff`, `Lookup.mostCoupled?_eq_none_iff` : the most coupled pair is the foremost one.
-/

namespace CouplingTree

variable {α : Type} [Scalar α] {β γ : Type} {f : β → α} {l : List β} {p q : β}

/-- What stands before the item does not come up to it, and what stands after it does not exceed it. -/
structure Foremost (f : β → α) (l : List β) (p : β) : Prop where
  positive : 0 < f p
  split : ∃ before after, l = before ++ p :: after ∧ (∀ q ∈ before, ¬ f p ≤ f q) ∧ ∀ q ∈ after, ¬ f p < f q

namespace Foremost

theorem mem (h : Foremost f l p) : p ∈ l := by
  obtain ⟨before, after, rfl, -⟩ := h.split
  exact List.mem_append_right _ (List.mem_cons_self ..)

/-- Only the values of the items in the list count. -/
theorem congr {f' : β → α} (h : Foremost f l p) (hf : ∀ q ∈ l, f' q = f q) : Foremost f' l p := by
  have hp := hf p h.mem
  obtain ⟨before, after, rfl, hbefore, hafter⟩ := h.split
  refine ⟨hp ▸ h.positive, before, after, rfl, fun q hq => ?_, fun q hq => ?_⟩
  · rw [hp, hf q (List.mem_append_left _ hq)]
    exact hbefore q hq
  · rw [hp, hf q (List.mem_append_right _ (List.mem_cons_of_mem _ hq))]
    exact hafter q hq

/-- The foremost item passes every test that it passes itself. -/
theorem filter (h : Foremost f l p) {keep : β → Bool} (hp : keep p = true) : Foremost f (l.filter keep) p := by
  obtain ⟨before, after, rfl, hbefore, hafter⟩ := h.split
  refine ⟨h.positive, before.filter keep, after.filter keep, ?_, fun q hq => ?_, fun q hq => ?_⟩
  · rw [List.filter_append, List.filter_cons_of_pos hp]
  · exact hbefore q (List.mem_of_mem_filter hq)
  · exact hafter q (List.mem_of_mem_filter hq)

variable [LawfulScalar α]

theorem not_lt (h : Foremost f l p) : ∀ q ∈ l, ¬ f p < f q := by
  obtain ⟨before, after, rfl, hbefore, hafter⟩ := h.split
  intro q hq hlt
  rcases List.mem_append.1 hq with hq | hq
  · exact hbefore q hq (Scalar.le_of_lt hlt)
  · rcases List.mem_cons.1 hq with rfl | hq
    · exact Scalar.not_lt_of_lt hlt hlt
    · exact hafter q hq hlt

/-- What is above zero does not exceed the foremost item. -/
theorem le_of_pos (h : Foremost f l p) (hq : q ∈ l) (hpos : 0 < f q) : f q ≤ f p :=
  (Scalar.not_lt_iff (Scalar.comparable_of_lt h.positive) (Scalar.comparable_of_lt hpos)).1 (h.not_lt q hq)

/-- Of two foremost items the later one would not come up to the earlier one, nor would it exceed it. -/
theorem unique (hp : Foremost f l p) (hq : Foremost f l q) : p = q := by
  obtain ⟨before, after, rfl, hbefore, -⟩ := hp.split
  obtain ⟨before', after', hl, hbefore', -⟩ := hq.split
  have hqp : f q ≤ f p := hp.le_of_pos hq.mem hq.positive
  have hpq : f p ≤ f q := hq.le_of_pos hp.mem hp.positive
  rcases List.append_eq_append_iff.1 hl with ⟨mid, rfl, hmid⟩ | ⟨mid, rfl, hmid⟩
  · cases mid with
    | nil => exact (List.cons.inj hmid).1
    | cons x mid =>
      obtain ⟨rfl, -⟩ := List.cons.inj hmid
      exact absurd hqp (hbefore' p (List.mem_append_right _ (List.mem_cons_self ..)))
  · cases mid with
    | nil => exact (List.cons.inj hmid).1.symm
    | cons x mid =>
      obtain ⟨rfl, -⟩ := List.cons.inj hmid
      exact absurd hpq (hbefore q (List.mem_append_right _ (List.mem_cons_self ..)))

/-- An item that exceeds the foremost one takes its place. -/
theorem append_of_lt (h : Foremost f l p) (hlt : f p < f q) : Foremost f (l ++ [q]) q := by
  refine ⟨Scalar.lt_of_lt_of_le h.positive (Scalar.le_of_lt hlt), l, [], rfl, fun x hx hle => ?_,
    fun _ hx => absurd hx (List.not_mem_nil)⟩
  exact h.not_lt x hx (Scalar.lt_of_lt_of_le hlt hle)

omit [LawfulScalar α] in
theorem append_of_not_lt (h : Foremost f l p) (hlt : ¬ f p < f q) : Foremost f (l ++ [q]) p := by
  obtain ⟨before, after, rfl, hbefore, hafter⟩ := h.split
  refine ⟨h.positive, before, after ++ [q], by rw [List.append_assoc, List.cons_append], hbefore, ?_⟩
  exact List.forall_mem_append.2 ⟨hafter, List.forall_mem_singleton.2 hlt⟩

theorem append_of_none (h : ∀ x ∈ l, ¬ 0 < f x) (hpos : 0 < f q) : Foremost f (l ++ [q]) q :=
  ⟨hpos, l, [], rfl, fun x hx hle => h x hx (Scalar.lt_of_lt_of_le hpos hle),
    fun _ hx => absurd hx (List.not_mem_nil)⟩

end Foremost

theorem foremost_map_iff {g : β → γ} {f : γ → α} {p : γ} :
    Foremost f (l.map g) p ↔ ∃ q, g q = p ∧ Foremost (fun q => f (g q)) l q := by
  constructor
  · intro h
    obtain ⟨before, after, hl, hbefore, hafter⟩ := h.split
    obtain ⟨xs, ys, rfl, rfl, hys⟩ := List.map_eq_append_iff.1 hl
    obtain ⟨q, zs, rfl, rfl, rfl⟩ := List.map_eq_cons_iff.1 hys
    exact ⟨q, rfl, h.positive, xs, zs, rfl, fun x hx => hbefore _ (List.mem_map_of_mem hx),
      fun x hx => hafter _ (List.mem_map_of_mem hx)⟩
  · rintro ⟨q, rfl, hpos, before, after, rfl, hbefore, hafter⟩
    exact ⟨hpos, before.map g, after.map g, by rw [List.map_append, List.map_cons],
      List.forall_mem_map.2 hbefore, List.forall_mem_map.2 hafter⟩

/-! ## The most coupled pair -/

namespace Lookup

/-- The coupling of two sets of classes. -/
def ofPair (value? : Lookup α) (p : NameSet × NameSet) : α := value?.between p.1 p.2

variable {value? : Lookup α}

/-- The member sets of two clusters. -/
def memberPair (p : Cluster α × Cluster α) : NameSet × NameSet := p.map Cluster.members Cluster.members

variable [LawfulScalar α]

/-- What is kept after some pairs: the foremost one, if any is above zero. -/
theorem foldl_better (ps : List (Cluster α × Cluster α)) :
    (ps.foldl value?.better (none, 0) = (none, 0) ∧ ∀ p ∈ ps, ¬ 0 < value?.ofPair (memberPair p)) ∨
      ∃ p, ps.foldl value?.better (none, 0) = (some p, value?.ofPair (memberPair p)) ∧
        Foremost (fun p => value?.ofPair (memberPair p)) ps p := by
  induction ps using List.reverseRecOn with
  | nil => exact Or.inl ⟨rfl, fun p hp => absurd hp (List.not_mem_nil)⟩
  | append_singleton ps q ih =>
    rw [List.foldl_append, List.foldl_cons, List.foldl_nil]
    rcases ih with ⟨hfold, hnone⟩ | ⟨p, hfold, hp⟩
    · rw [hfold]
      by_cases hq : 0 < value?.ofPair (memberPair q)
      · exact Or.inr ⟨q, if_pos hq, .append_of_none hnone hq⟩
      · exact Or.inl ⟨if_neg hq, List.forall_mem_append.2 ⟨hnone, List.forall_mem_singleton.2 hq⟩⟩
    · rw [hfold]
      by_cases hq : value?.ofPair (memberPair p) < value?.ofPair (memberPair q)
      · exact Or.inr ⟨q, if_pos hq, hp.append_of_lt hq⟩
      · exact Or.inr ⟨p, if_neg hq, hp.append_of_not_lt hq⟩

variable {clusters : List (Cluster α)}

theorem mostCoupled?_eq_some_iff {p : Cluster α × Cluster α} :
    value?.mostCoupled? clusters = some p ↔ Foremost (fun p => value?.ofPair (memberPair p)) (pairsOf clusters) p := by
  rw [mostCoupled?]
  rcases value?.foldl_better (pairsOf clusters) with ⟨hfold, hnone⟩ | ⟨q, hfold, hq⟩
  · rw [hfold]
    exact ⟨fun h => (by cases h), fun h => absurd h.positive (hnone p h.mem)⟩
  · rw [hfold]
    exact ⟨fun h => Option.some.inj h ▸ hq, fun h => congrArg some (hq.unique h)⟩

theorem mostCoupled?_eq_none_iff :
    value?.mostCoupled? clusters = none ↔ ∀ p ∈ pairsOf clusters, ¬ 0 < value?.ofPair (memberPair p) := by
  rw [mostCoupled?]
  rcases value?.foldl_better (pairsOf clusters) with ⟨hfold, hnone⟩ | ⟨q, hfold, hq⟩
  · rw [hfold]
    exact ⟨fun _ => hnone, fun _ => rfl⟩
  · rw [hfold]
    exact ⟨fun h => (by cases h), fun h => absurd hq.positive (h q hq.mem)⟩

end Lookup

end CouplingTree
