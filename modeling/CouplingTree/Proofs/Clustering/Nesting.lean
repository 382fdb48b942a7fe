import Mathlib.Data.List.TakeWhile
import CouplingTree.Proofs.Numbers.Doubles
import CouplingTree.Proofs.Clustering.Groups

/-!
# Nested runs

Over one coupling map a stop rule decides where a run ends, but not what it merges. The full run goes on as long as clusters
couple, and every other run makes its first steps.

* `picks_iff` : a rule lets a merge of the full run through if it is strong enough and there are clusters enough.
* `Forest.merges_eq` : hence the merges that follow a clustering are the first ones of the full run that the rule lets
  through.
* `run_nested` : so runs with different rules are nested.
-/

namespace CouplingTree

variable {α : Type} [Scalar α]

/-- The merge couples at least so much. -/
def Merge.reaches (minimum : α) (m : Merge α) : Bool := decide (minimum ≤ m.coupling)

namespace Clustering

/-- The clustering of a coupling map by a run that only stops when no clusters couple. -/
def full (coupling : CouplingMap α) : Clustering α := (run ⟨0, 1⟩ coupling).clustering

variable {value? : Lookup α} {rule : StopRule α} {coupling : CouplingMap α} {c : Clustering α}
  {s : Merge α}

/-! ## The merges of a run -/

/-- The merges that come after a clustering, at most `fuel` of them. -/
def merges (value? : Lookup α) (rule : StopRule α) : Nat → Clustering α → List (Merge α)
  | 0, _ => []
  | fuel + 1, c =>
    match c.next value? rule with
    | .join m => m :: merges value? rule fuel (c.apply m)
    | _ => []

theorem merges_of_picks (h : Picks value? rule c s) (fuel : Nat) :
    merges value? rule (fuel + 1) c = s :: merges value? rule fuel (c.apply s) := by
  rw [merges, next_of_picks h]

theorem merges_of_stopped (h : ∀ s, ¬ Picks value? rule c s) (fuel : Nat) : merges value? rule fuel c = [] := by
  cases fuel with
  | zero => rfl
  | succ fuel =>
    rw [merges]
    split
    · next s hs => exact absurd (picks_of_next hs) (h s)
    · rfl

theorem history_advance (fuel : Nat) (c : Clustering α) :
    (advance value? rule fuel c).clustering.history = c.history ++ merges value? rule fuel c := by
  induction fuel generalizing c with
  | zero => exact (List.append_nil _).symm
  | succ fuel ih =>
    rw [advance, merges]
    cases hn : c.next value? rule with
    | join m =>
      dsimp only
      rw [after_clustering, ih, apply_history, List.append_assoc, List.singleton_append]
    | _ => exact (List.append_nil _).symm

theorem history_run (rule : StopRule α) (coupling : CouplingMap α) :
    (run rule coupling).clustering.history = merges coupling.find? rule coupling.classes.length (initial coupling) := by
  rw [run_clustering, stage, history_advance]
  have hlength : (initial coupling).active.length = coupling.classes.length := (forest_initial coupling).length_active
  rw [hlength]
  rfl

/-! ## Two rules -/

variable [LawfulScalar α] {minimum : α} {most : Int}

theorem Picks.coupling_pos (h : Picks value? rule c s) : 0 < s.coupling := by
  rw [h.coupling_eq]
  exact (Lookup.mostCoupled?_eq_some_iff.1 h.best).positive

/-- All merges couple more than zero, so that a least coupling of zero turns none away. -/
theorem picks_iff :
    Picks value? ⟨minimum, most⟩ c s ↔
      Picks value? ⟨0, 1⟩ c s ∧ ¬ s.coupling < minimum ∧ most < c.active.length := by
  constructor
  · intro h
    refine ⟨⟨h.best, h.coupling_eq, h.result_eq, Scalar.not_lt_of_lt h.coupling_pos, ?_, h.several⟩, h.strong, h.many⟩
    exact Int.ofNat_lt.2 h.several
  · rintro ⟨h, hstrong, hmany⟩
    exact ⟨h.best, h.coupling_eq, h.result_eq, hstrong, hmany, h.several⟩

/-- A rule that turns away the merge of the full run lets nothing else through. -/
theorem Picks.stopped_of_not (h : Picks value? ⟨0, 1⟩ c s) (hnot : s.coupling < minimum ∨ ¬ most < c.active.length)
    (s' : Merge α) : ¬ Picks value? ⟨minimum, most⟩ c s' := by
  intro h'
  obtain ⟨hfull, hstrong, hmany⟩ := picks_iff.1 h'
  obtain rfl := h.unique hfull
  exact hnot.elim hstrong fun hfew => hfew hmany

/-- The merges that a rule lets through. -/
theorem Forest.merges_eq (hmin : minimum ≤ minimum) (h : Forest coupling c) (fuel : Nat) :
    merges value? ⟨minimum, most⟩ fuel c =
      ((merges value? ⟨0, 1⟩ fuel c).take ((c.active.length : Int) - max 1 most).toNat).takeWhile
        (Merge.reaches minimum) := by
  induction fuel generalizing c with
  | zero => simp [merges]
  | succ fuel ih =>
    by_cases hfull : ∃ s, Picks value? ⟨0, 1⟩ c s
    · obtain ⟨s, hs⟩ := hfull
      rw [merges_of_picks hs]
      by_cases hmany : most < c.active.length
      · have hlength := h.length_active_apply hs
        have hseveral := hs.several
        have htake : ((c.active.length : Int) - max 1 most).toNat =
            (((c.apply s).active.length : Int) - max 1 most).toNat + 1 := by omega
        have hstrong := Scalar.not_lt_iff (Scalar.comparable_of_lt hs.coupling_pos) hmin
        rw [htake, List.take_succ_cons]
        by_cases hweak : s.coupling < minimum
        · rw [merges_of_stopped (hs.stopped_of_not (Or.inl hweak)), List.takeWhile_cons_of_neg]
          exact fun hle => hstrong.2 (of_decide_eq_true hle) hweak
        · rw [merges_of_picks (picks_iff.2 ⟨hs, hweak, hmany⟩), ih (h.apply hs), List.takeWhile_cons_of_pos]
          exact decide_eq_true (hstrong.1 hweak)
      · have htake : ((c.active.length : Int) - max 1 most).toNat = 0 := by omega
        rw [merges_of_stopped (hs.stopped_of_not (Or.inr hmany)), htake, List.take_zero, List.takeWhile_nil]
    · have hstopped : ∀ s, ¬ Picks value? ⟨minimum, most⟩ c s := fun s hs => hfull ⟨s, (picks_iff.1 hs).1⟩
      rw [merges_of_stopped hstopped, merges_of_stopped fun s hs => hfull ⟨s, hs⟩, List.take_nil, List.takeWhile_nil]

/-! ## Runs with different rules -/

omit [LawfulScalar α] in
/-- The arena of a run consists of the single classes and the results of its merges. -/
theorem arena_run_eq_take {rule rule' : StopRule α}
    (h : (run rule coupling).clustering.history <+: (run rule' coupling).clustering.history) :
    (run rule coupling).clustering.arena =
      (run rule' coupling).clustering.arena.take
        (coupling.classes.length + (run rule coupling).clustering.history.length) := by
  have hlength := (forest_run rule coupling).length_arena
  rw [← hlength, (forest_run rule coupling).arena_eq, (forest_run rule' coupling).arena_eq]
  exact List.prefix_iff_eq_take.1 ((List.prefix_append_right_inj _).2 (h.map _))

theorem history_run_eq (coupling : CouplingMap α) (hmin : minimum ≤ minimum) (most : Int) :
    (run ⟨minimum, most⟩ coupling).clustering.history =
      ((full coupling).history.take ((coupling.classes.length : Int) - max 1 most).toNat).takeWhile
        (Merge.reaches minimum) := by
  have hlength : (initial coupling).active.length = coupling.classes.length := (forest_initial coupling).length_active
  rw [full, history_run, history_run, (forest_initial coupling).merges_eq hmin, hlength]

/-- What stands at the beginning of a list and passes a test stands at the beginning of what passes it. -/
theorem prefix_takeWhile {β : Type} {test : β → Bool} {l whole : List β} (h : l <+: whole) (ht : ∀ x ∈ l, test x = true) :
    l <+: whole.takeWhile test := by
  obtain ⟨rest, rfl⟩ := h
  rw [List.takeWhile_append_of_pos ht]
  exact List.prefix_append _ _

/-- A higher least coupling or a higher number of clusters that is enough only cuts off a tail. -/
theorem history_run_isPrefix {minimum' : α} {most' : Int} (coupling : CouplingMap α) (hmin : minimum ≤ minimum')
    (hmost : most ≤ most') :
    (run ⟨minimum', most'⟩ coupling).clustering.history <+: (run ⟨minimum, most⟩ coupling).clustering.history := by
  obtain ⟨hself, hself'⟩ := LawfulScalar.comparable _ _ hmin
  rw [history_run_eq coupling hself most]
  refine prefix_takeWhile (List.prefix_take_iff.2 ?_) fun s hs => ?_
  · rw [history_run_eq coupling hself' most']
    obtain ⟨hhead, hlength⟩ := List.prefix_take_iff.1 (List.takeWhile_prefix _)
    exact ⟨hhead, hlength.trans (by omega)⟩
  · rw [history_run_eq coupling hself' most'] at hs
    have htest := List.mem_takeWhile_imp hs
    exact decide_eq_true (LawfulScalar.trans _ _ _ hmin (of_decide_eq_true htest))

/-- **Runs over one coupling map are nested.** A run makes the first merges of the full run, up to the first one below its
least coupling, and no more than leave as many clusters as are enough. -/
theorem run_nested (coupling : CouplingMap α) (minimum : α) (hmin : minimum ≤ minimum) (most : Int) :
    let common := ((full coupling).history.take ((coupling.classes.length : Int) - max 1 most).toNat).takeWhile
      (Merge.reaches minimum)
    (run ⟨minimum, most⟩ coupling).clustering.history = common ∧
      (run ⟨minimum, most⟩ coupling).clustering.arena =
        (full coupling).arena.take (coupling.classes.length + common.length) ∧
      ∀ (minimum' : α) (most' : Int), minimum ≤ minimum' → most ≤ most' →
        (run ⟨minimum', most'⟩ coupling).clustering.history <+: (run ⟨minimum, most⟩ coupling).clustering.history := by
  intro common
  have hhistory : (run ⟨minimum, most⟩ coupling).clustering.history = common := history_run_eq coupling hmin most
  have hhead : common <+: (full coupling).history := (List.takeWhile_prefix _).trans (List.take_prefix _ _)
  refine ⟨hhistory, ?_, fun minimum' most' => history_run_isPrefix coupling⟩
  rw [← hhistory]
  exact arena_run_eq_take (hhistory ▸ hhead)

/-- Four classes in a chain of falling doubles. -/
def doubles : CouplingMap Float := .ofList [(("A", "B"), 0.5), (("B", "C"), 0.25), (("C", "D"), 0.125)]

theorem doubles_nested :
    (0.2 : Float) ≤ 0.2 ∧ (0.2 : Float) ≤ 0.3 ∧
      (full doubles).history.map Merge.coupling = [0.5, 0.25, 0.125] ∧
      (run ⟨0.2, -1⟩ doubles).clustering.history = ((full doubles).history.take 3).takeWhile (Merge.reaches 0.2) ∧
      (run ⟨0.3, 2⟩ doubles).clustering.history <+: (run ⟨0.2, -1⟩ doubles).clustering.history := by
  have hmin : (0.2 : Float) ≤ 0.2 := by decide
  have hmin' : (0.2 : Float) ≤ 0.3 := by decide
  have hcouplings : (full doubles).history.map Merge.coupling = [0.5, 0.25, 0.125] := by decide +kernel
  have hsteps : ((doubles.classes.length : Int) - max 1 (-1)).toNat = 3 := by decide +kernel
  have hnested := run_nested doubles 0.2 hmin (-1)
  have hhistory := hnested.1
  rw [hsteps] at hhistory
  exact ⟨hmin, hmin', hcouplings, hhistory, hnested.2.2 0.3 2 hmin' (by decide)⟩

end Clustering

end CouplingTree
