import Mathlib.Data.List.Basic
import CouplingTree.Clustering.Run

/-!
# The stages of a run

A run goes through stages: `stage rule coupling k` is the clustering after at most `k` merges.

* `mem_pairsOf` : the pairs of a list are its sublists of length two.
* `picks_of_next` : all that is known of a merge that comes next.
* `stage_succ` : a stage is the one before it, or comes from it by one merge.
* `stage_induction`, `run_induction` : what holds of single classes and is kept by each merge holds at every stage, and
  of the clustering that a run ends with.
-/

namespace CouplingTree

/-! ## Pairs -/

section Pairs

variable {β : Type}

theorem mem_pairsOf {x y : β} : ∀ {l : List β}, (x, y) ∈ pairsOf l ↔ [x, y].Sublist l
  | [] => by simp [pairsOf]
  | z :: l => by
    rw [pairsOf, List.mem_append, List.mem_map, mem_pairsOf, List.cons_sublist_cons', List.singleton_sublist, or_comm]
    refine or_congr Iff.rfl ⟨?_, fun ⟨e, hy⟩ => ⟨y, hy, by rw [e]⟩⟩
    rintro ⟨w, hw, e⟩
    cases e
    exact ⟨rfl, hw⟩

theorem rel_of_mem_pairsOf {R : β → β → Prop} {l : List β} (h : l.Pairwise R) {x y : β} (hp : (x, y) ∈ pairsOf l) :
    R x y := by
  have hxy := h.sublist (mem_pairsOf.1 hp)
  exact (List.pairwise_cons.1 hxy).1 y (List.mem_singleton_self y)

end Pairs

example : pairsOf [1, 2, 3] = [(1, 2), (1, 3), (2, 3)] := by decide

variable {α : Type} [Scalar α] {value? : Lookup α} {rule : StopRule α} {coupling : CouplingMap α}

/-! ## Steps -/

theorem Lookup.mem_pairsOf_of_mostCoupled? {clusters : List (Cluster α)} {p : Cluster α × Cluster α}
    (h : value?.mostCoupled? clusters = some p) : p ∈ pairsOf clusters := by
  have key : ∀ (ps : List (Cluster α × Cluster α)) (best : Option (Cluster α × Cluster α) × α),
      (ps.foldl value?.better best).1 = some p → best.1 = some p ∨ p ∈ ps := by
    intro ps
    induction ps with
    | nil => exact fun best h => Or.inl h
    | cons q ps ih =>
      intro best h
      rcases ih _ h with h | h
      · unfold Lookup.better at h
        dsimp only at h
        split at h
        · cases h
          exact Or.inr (List.mem_cons_self ..)
        · exact Or.inl h
      · exact Or.inr (List.mem_cons_of_mem _ h)
  rcases key _ _ h with h | h
  · cases h
  · exact h

namespace Clustering

/-- What is known of a merge that comes next: its two clusters are the most coupled ones, and they are neither too weakly
coupled nor few enough. -/
structure Picks (value? : Lookup α) (rule : StopRule α) (c : Clustering α) (m : Merge α) : Prop where
  best : value?.mostCoupled? c.clusters = some (m.first, m.second)
  coupling_eq : m.coupling = value?.between m.first.members m.second.members
  result_eq : m.result = ⟨c.arena.length, m.first.members.union m.second.members, some (m.first.id, m.second.id), m.coupling⟩
  strong : ¬ m.coupling < rule.minCoupling
  many : rule.maxModules < c.active.length
  several : 1 < c.active.length

theorem Picks.pair {c : Clustering α} {m : Merge α} (h : Picks value? rule c m) :
    (m.first, m.second) ∈ pairsOf c.clusters := Lookup.mem_pairsOf_of_mostCoupled? h.best

theorem picks_of_next {c : Clustering α} {m : Merge α} (h : c.next value? rule = .join m) : Picks value? rule c m := by
  unfold next at h
  split at h
  · cases h
  · next hmany =>
    rw [not_or, Int.not_le, Nat.not_le] at hmany
    split at h
    · cases h
    · next first second hbest =>
      dsimp only at h
      split at h
      · cases h
      · next hstrong =>
        cases h
        exact ⟨hbest, rfl, rfl, hstrong, hmany.1, hmany.2⟩

section Apply

omit [Scalar α]

variable (c : Clustering α) (m : Merge α)

@[simp] theorem apply_coupling : (c.apply m).coupling = c.coupling := rfl

@[simp] theorem apply_arena : (c.apply m).arena = c.arena ++ [m.result] := rfl

@[simp] theorem apply_active :
    (c.apply m).active = (c.active.erase m.first.id).erase m.second.id ++ [m.result.id] := rfl

@[simp] theorem apply_history : (c.apply m).history = c.history ++ [m] := rfl

end Apply

omit [Scalar α] in
@[simp] theorem after_clustering (e : Event α) (r : Run α) : (r.after e).clustering = r.clustering := rfl

/-- The clustering after at most so many merges. -/
def stage (rule : StopRule α) (coupling : CouplingMap α) (steps : Nat) : Clustering α :=
  (advance coupling.find? rule steps (initial coupling)).clustering

theorem stage_zero : stage rule coupling 0 = initial coupling := rfl

theorem advance_succ (c : Clustering α) (steps : Nat) :
    (advance value? rule (steps + 1) c).clustering =
      match (advance value? rule steps c).clustering.next value? rule with
      | .join m => (advance value? rule steps c).clustering.apply m
      | _ => (advance value? rule steps c).clustering := by
  induction steps generalizing c with
  | zero =>
    rw [advance]
    cases hn : c.next value? rule <;> simp [advance, hn]
  | succ steps ih =>
    rw [advance, advance]
    cases hn : c.next value? rule with
    | join m => simpa using ih (c.apply m)
    | _ => simp [hn]

/-- A stage is the one before it, unless a merge leads from that one to it. -/
theorem stage_succ (steps : Nat) :
    stage rule coupling (steps + 1) =
      match (stage rule coupling steps).next coupling.find? rule with
      | .join m => (stage rule coupling steps).apply m
      | _ => stage rule coupling steps :=
  advance_succ _ _

theorem run_clustering (rule : StopRule α) (coupling : CouplingMap α) :
    (run rule coupling).clustering = stage rule coupling (initial coupling).active.length := by
  rw [run, CouplingMap.rows_find?]
  rfl

theorem stage_induction {P : Clustering α → Prop} (start : P (initial coupling))
    (merge : ∀ c m, P c → Picks coupling.find? rule c m → P (c.apply m)) (steps : Nat) :
    P (stage rule coupling steps) := by
  induction steps with
  | zero =>
    rw [stage_zero]
    exact start
  | succ steps ih =>
    rw [stage_succ]
    split
    · next m hm => exact merge _ m ih (picks_of_next hm)
    · exact ih

theorem run_induction {P : Clustering α → Prop} (start : P (initial coupling))
    (merge : ∀ c m, P c → Picks coupling.find? rule c m → P (c.apply m)) :
    P (run rule coupling).clustering := by
  rw [run_clustering]
  exact stage_induction start merge _

end Clustering

end CouplingTree
