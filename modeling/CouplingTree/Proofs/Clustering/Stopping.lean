import CouplingTree.Proofs.Clustering.Greedy

/-!
# Why a run stops

A run stops when few enough clusters are left, when no two of them couple, or when the best coupling is below the minimum.
Only the last of these leaves a line in the log.

* `Next.Means`, `next_means` : what is known of a clustering from what comes next.
* `min_le_active` : no stage of a run has fewer clusters than the limit, unless there were fewer classes.
* `Forest.events_advance` : the events are the merges, and one more if the best coupling is too weak.
* `Outcome`, `outcome_run` : why a run stopped, and what its log tells.
* `run_stops_for_a_reason` : with doubles, where couplings that are no numbers are passed over.
-/

namespace CouplingTree

variable {α : Type} [Scalar α]

omit [Scalar α] in
/-- So many clusters are few enough; one always is. -/
def StopRule.limit (rule : StopRule α) : Int := max 1 rule.maxModules

namespace Clustering

variable {value? : Lookup α} {rule : StopRule α} {coupling : CouplingMap α} {c : Clustering α}

/-! ## What comes next -/

/-- What is known of a clustering from what comes next. -/
def Next.Means (value? : Lookup α) (rule : StopRule α) (c : Clustering α) : Next α → Prop
  | enough => (c.active.length : Int) ≤ rule.limit
  | uncoupled => rule.limit < c.active.length ∧ ∀ p ∈ pairsOf c.clusters, ¬ 0 < value?.between p.1.members p.2.members
  | weak best => rule.limit < c.active.length ∧ best < rule.minCoupling ∧
      ∃ p, Foremost (fun p => value?.ofPair (Lookup.memberPair p)) (pairsOf c.clusters) p ∧
        value?.between p.1.members p.2.members = best
  | join m => Picks value? rule c m

theorem next_means [LawfulScalar α] (value? : Lookup α) (rule : StopRule α) (c : Clustering α) :
    (c.next value? rule).Means value? rule c := by
  have hlimit : rule.limit = max 1 rule.maxModules := rfl
  unfold next
  split
  · show (c.active.length : Int) ≤ rule.limit
    omega
  · next hmany =>
    have habove : rule.limit < c.active.length := by omega
    split
    · next hnone => exact ⟨habove, Lookup.mostCoupled?_eq_none_iff.1 hnone⟩
    · next first second hbest =>
      dsimp only
      split
      · next hweak => exact ⟨habove, hweak, (first, second), Lookup.mostCoupled?_eq_some_iff.1 hbest, rfl⟩
      · next hstrong =>
        rw [not_or, Int.not_le, Nat.not_le] at hmany
        exact ⟨hbest, rfl, rfl, hstrong, hmany.1, hmany.2⟩

/-! ## The number of merges -/

theorem min_le_active (rule : StopRule α) (coupling : CouplingMap α) (steps : Nat) :
    min (coupling.classes.length : Int) rule.limit ≤ (stage rule coupling steps).active.length := by
  refine (stage_induction (P := fun c => Forest coupling c ∧ min (coupling.classes.length : Int) rule.limit ≤ c.active.length)
    ⟨forest_initial coupling, ?_⟩ (fun c m h hm => ⟨h.1.apply hm, ?_⟩) steps).2
  · have hlength := (forest_initial coupling).length_active
    have hnone : (initial coupling).history.length = 0 := rfl
    omega
  · have hlength := h.1.length_active_apply hm
    have hmany := hm.many
    have hseveral := hm.several
    have hlimit : rule.limit = max 1 rule.maxModules := rfl
    omega

/-! ## Events -/

/-- What a run reports when it stops. -/
def Next.lastEvents (rule : StopRule α) : Next α → List (Event α)
  | weak best => [.stopped best rule.minCoupling]
  | _ => []

/-- With a step for each cluster at top level no run is cut short before its last event. -/
theorem Forest.events_advance (h : Forest coupling c) (rule : StopRule α) {fuel : Nat} (hfuel : c.active.length ≤ fuel) :
    c.history.map Event.merged ++ (advance coupling.find? rule fuel c).events =
      (advance coupling.find? rule fuel c).clustering.history.map Event.merged ++
        ((advance coupling.find? rule fuel c).clustering.next coupling.find? rule).lastEvents rule := by
  induction fuel generalizing c with
  | zero =>
    have hfew : (c.active.length : Int) ≤ rule.maxModules ∨ c.active.length ≤ 1 := Or.inr (by omega)
    have hnext : c.next coupling.find? rule = .enough := by
      unfold next
      rw [if_pos hfew]
    rw [advance, hnext]
    rfl
  | succ fuel ih =>
    rw [advance]
    cases hnext : c.next coupling.find? rule with
    | enough => simp only [hnext, Next.lastEvents]
    | uncoupled => simp only [hnext, Next.lastEvents]
    | weak best => simp only [hnext, Next.lastEvents]
    | join m =>
      have hm := picks_of_next hnext
      have hlength := h.length_active_apply hm
      have hrest := ih (h.apply hm) (by omega)
      rw [apply_history, List.map_append, List.append_assoc] at hrest
      exact hrest

/-- The events of a run are its merges, and what it reports when it stops. -/
theorem run_events (rule : StopRule α) (coupling : CouplingMap α) :
    (run rule coupling).events = (run rule coupling).clustering.history.map Event.merged ++
      ((run rule coupling).clustering.next coupling.find? rule).lastEvents rule := by
  have hevents := (forest_initial coupling).events_advance rule (le_refl (initial coupling).active.length)
  unfold run
  rw [CouplingMap.rows_find?]
  exact hevents

/-! ## The outcome -/

/-- The line of a run that stops at a coupling below the minimum. -/
def stopLine [Rounding α] (minimum : α) : Option α → String
  | none => ""
  | some best => "  Stop: best coupling " ++ Rounding.fixedText 3 best ++ " < " ++ Rounding.fixedText 3 minimum ++ "\n"

/-- The outcome of a run that shows a coupling when it stops, or none. Pairs are those of the clusters that are left, the
earlier one first. -/
structure Outcome [Rounding α] (rule : StopRule α) (coupling : CouplingMap α) (r : Run α) (shown : Option α) : Prop where
  /-- The run was not cut short. -/
  stopped : ∀ m, r.clustering.next coupling.find? rule ≠ .join m
  merges_le : (r.clustering.history.length : Int) ≤ max 0 (coupling.classes.length - rule.limit)
  left : min (coupling.classes.length : Int) rule.limit ≤ r.clustering.active.length
  exhausted : rule.limit < r.clustering.active.length → ∀ p ∈ pairsOf r.clustering.clusters,
    Scalar.IsNumber (coupling.between p.1.members p.2.members) →
      coupling.between p.1.members p.2.members ≤ 0 ∨ coupling.between p.1.members p.2.members < rule.minCoupling
  log_eq : r.log = String.join (r.clustering.history.map fun m => "  " ++ m.describe ++ "\n") ++
    stopLine rule.minCoupling shown
  shown_iff : shown.isSome = true ↔ rule.limit < r.clustering.active.length ∧
    ∃ p ∈ pairsOf r.clustering.clusters, 0 < coupling.between p.1.members p.2.members
  greatest : ∀ best ∈ shown, best < rule.minCoupling ∧
    (∃ p ∈ pairsOf r.clustering.clusters, coupling.between p.1.members p.2.members = best) ∧
    ∀ p ∈ pairsOf r.clustering.clusters, Scalar.IsNumber (coupling.between p.1.members p.2.members) →
      coupling.between p.1.members p.2.members ≤ best

/-- The coupling that is shown. -/
def Next.shown : Next α → Option α
  | weak best => some best
  | _ => none

omit [Scalar α] in
theorem join_lastEvents [Rounding α] (rule : StopRule α) (next : Next α) :
    String.join ((next.lastEvents rule).map fun e => e.line ++ "\n") = stopLine rule.minCoupling next.shown := by
  cases next with
  | weak best => exact (String.join_cons).trans (String.append_empty)
  | _ => rfl

theorem run_log [Rounding α] (rule : StopRule α) (coupling : CouplingMap α) :
    (run rule coupling).log =
      String.join ((run rule coupling).clustering.history.map fun m => "  " ++ m.describe ++ "\n") ++
        stopLine rule.minCoupling ((run rule coupling).clustering.next coupling.find? rule).shown := by
  rw [Run.log, run_events, List.map_append, String.join_append, join_lastEvents, List.map_map]
  rfl

/-- What comes next where a run has stopped is the reason for it. -/
theorem outcome_run [LawfulScalar α] [Rounding α] (rule : StopRule α) (coupling : CouplingMap α) :
    Outcome rule coupling (run rule coupling) ((run rule coupling).clustering.next coupling.find? rule).shown := by
  have hstopped := run_stops rule coupling
  have hlog := run_log rule coupling
  have hlength := (forest_run rule coupling).length_active
  have hleft : min (coupling.classes.length : Int) rule.limit ≤ (run rule coupling).clustering.active.length := by
    rw [run_clustering]
    exact min_le_active rule coupling _
  have hmerges : ((run rule coupling).clustering.history.length : Int) ≤ max 0 (coupling.classes.length - rule.limit) := by
    omega
  have hmeans := next_means coupling.find? rule (run rule coupling).clustering
  cases hnext : (run rule coupling).clustering.next coupling.find? rule with
  | join m => exact absurd hnext (hstopped m)
  | enough =>
    rw [hnext] at hmeans hlog
    have hfew : ¬ rule.limit < (run rule coupling).clustering.active.length := Int.not_lt.2 hmeans
    exact ⟨hstopped, hmerges, hleft, fun hmany => absurd hmany hfew, hlog, ⟨nofun, fun h => absurd h.1 hfew⟩, nofun⟩
  | uncoupled =>
    rw [hnext] at hmeans hlog
    obtain ⟨-, hnone⟩ := hmeans
    refine ⟨hstopped, hmerges, hleft, fun _ p hp hnumber => Or.inl ?_, hlog, ⟨nofun, ?_⟩, nofun⟩
    · exact (Scalar.not_lt_iff LawfulScalar.zero_isZero.1 hnumber).1 (hnone p hp)
    · rintro ⟨-, p, hp, hpos⟩
      exact absurd hpos (hnone p hp)
  | weak best =>
    rw [hnext] at hmeans hlog
    obtain ⟨hmany, hweak, p, hp, hbest⟩ := hmeans
    have hgreatest : ∀ q ∈ pairsOf (run rule coupling).clustering.clusters,
        Scalar.IsNumber (coupling.between q.1.members q.2.members) → coupling.between q.1.members q.2.members ≤ best := by
      intro q hq hnumber
      have hnot := hp.not_lt q hq
      rw [← hbest]
      exact (Scalar.not_lt_iff (Scalar.comparable_of_lt hp.positive) hnumber).1 hnot
    refine ⟨hstopped, hmerges, hleft, fun _ q hq hnumber => Or.inr ?_, hlog,
      ⟨fun _ => ⟨hmany, p, hp.mem, hp.positive⟩, fun _ => rfl⟩, ?_⟩
    · exact Scalar.lt_of_le_of_lt (hgreatest q hq hnumber) hweak
    · rintro _ ⟨⟩
      exact ⟨hweak, ⟨p, hp.mem, hbest⟩, hgreatest⟩

/-- **No run stops too early or too late.** It makes no more merges than lead to the limit, and stops above it only when no
coupling of two clusters is both above zero and not below the minimum, where couplings that are no numbers are passed over.
Where all values are finite there are none of these. The log has a line for each merge, and a last one exactly when some
coupling is above zero but all are too weak. -/
theorem run_stops_for_a_reason (rule : StopRule Float) (coupling : CouplingMap Float) :
    (∃ shown, Outcome rule coupling (run rule coupling) shown) ∧
      (coupling.Finite → ∀ s t, Scalar.IsNumber (coupling.between s t)) :=
  ⟨⟨_, outcome_run rule coupling⟩, CouplingMap.isNumber_between⟩

/-- A chain with a strong link and a weak one. -/
def slackChain : CouplingMap Float := .ofList [(("A", "B"), 0.5), (("B", "C"), 0.25)]

/-- The weak link is not merged, and the log says so. -/
theorem slackChain_stops :
    (∃ shown, Outcome ⟨0.4, 1⟩ slackChain (run ⟨0.4, 1⟩ slackChain) shown) ∧
      (run ⟨0.4, 1⟩ slackChain).log =
        "  Merged ['A'] and ['B'] (coupling: 0.500)\n  Stop: best coupling 0.250 < 0.400\n" ∧
      slackChain.Finite ∧ Scalar.IsNumber (slackChain.between (.singleton "A") (.singleton "B")) := by
  have hfinite : slackChain.Finite := ⟨by decide +kernel, by decide +kernel⟩
  have hnumber := (run_stops_for_a_reason ⟨0.4, 1⟩ slackChain).2 hfinite (.singleton "A") (.singleton "B")
  refine ⟨(run_stops_for_a_reason ⟨0.4, 1⟩ slackChain).1, ?_, hfinite, hnumber⟩
  decide +kernel

/-- Two classes with infinities of either sign between them. -/
def clashingPair : CouplingMap Float :=
  .ofList [(("A", "B"), Binary64.infinity false), (("B", "A"), Binary64.infinity true)]

/-- All values are numbers, but the mean of the two is none. So it is neither too weak for a merge nor strong enough for one. -/
theorem clashingPair_left :
    (∀ e ∈ clashingPair.entries, Scalar.IsNumber e.2) ∧
      ¬ ((StopRule.limit (⟨0, 1⟩ : StopRule Float)) < (run ⟨0, 1⟩ clashingPair).clustering.active.length →
        ∀ p ∈ pairsOf (run ⟨0, 1⟩ clashingPair).clustering.clusters,
          clashingPair.between p.1.members p.2.members ≤ 0 ∨ clashingPair.between p.1.members p.2.members < 0) := by
  decide +kernel

end Clustering

end CouplingTree
