import CouplingTree.Proofs.Dense
import CouplingTree.Proofs.Means
import CouplingTree.Proofs.Numbers.Doubles
import CouplingTree.Proofs.Clustering.Groups

/-!
# Unrelated classes

A set of classes that is not coupled to the others is clustered as if it were alone. The run over all classes and the run over
the pairs inside the set go side by side: a merge inside the set is made by both, and at any other one the second run
waits.

* `Selects.same_side` : two groups on different sides are not selected, as they do not couple.
* `Beside` : what relates the two runs.
* `Beside.follow`, `Beside.wait`, `exists_selects_of_restrict` : how they go on, and that the second run does not go on alone.
* `run_restrict` : hence the merges inside the set are those of the run over the set alone.
-/

namespace CouplingTree

variable {α : Type} [Scalar α]

instance Scalar.decidableIsZero (a : α) : Decidable (Scalar.IsZero a) := inferInstanceAs (Decidable (_ ∧ _))

/-! ## Inside a set -/

/-- All names of a set are in another one. -/
def NameSet.liesIn (s classes : NameSet) : Bool := s.toList.all fun x => decide (x ∈ classes)

/-- The result of a merge is inside a set of classes. -/
def Merge.liesIn (m : Merge α) (classes : NameSet) : Bool := m.result.members.liesIn classes

variable {classes s t : NameSet}

omit [Scalar α] in
theorem NameSet.liesIn_iff : s.liesIn classes = true ↔ ∀ x ∈ s, x ∈ classes := by
  rw [NameSet.liesIn, List.all_eq_true]
  exact forall₂_congr fun x _ => decide_eq_true_iff

theorem NameSet.liesIn_union : (s.union t).liesIn classes = true ↔ s.liesIn classes = true ∧ t.liesIn classes = true := by
  simp only [liesIn_iff, mem_union, or_imp, forall_and]

theorem NameSet.liesIn_singleton {x : String} : (singleton x).liesIn classes = true ↔ x ∈ classes := by
  simp only [liesIn_iff, mem_singleton, forall_eq]

/-- A set that shares nothing with `classes` is inside it only if it is empty. -/
theorem NameSet.Apart.not_liesIn (h : s.Apart classes) (hs : ∃ x, x ∈ s) : s.liesIn classes = false := by
  obtain ⟨x, hx⟩ := hs
  exact Bool.eq_false_iff.2 fun hin => h x hx (liesIn_iff.1 hin x hx)

theorem Lookup.not_iff_of_mem_crossPairs (hs : s.liesIn classes = true) (ht : t.Apart classes) {p : String × String}
    (hp : p ∈ crossPairs s t) : ¬ (p.1 ∈ classes ↔ p.2 ∈ classes) := by
  rw [NameSet.liesIn_iff] at hs
  rcases mem_crossPairs.1 hp with ⟨h1, h2⟩ | ⟨h1, h2⟩
  · exact fun hsame => ht _ h2 (hsame.1 (hs _ h1))
  · exact fun hsame => ht _ h1 (hsame.2 (hs _ h2))

/-! ## Couplings -/

namespace CouplingMap

/-- The values between a set of classes and the other ones are zero. -/
def Separates (coupling : CouplingMap α) (classes : NameSet) : Prop :=
  ∀ e ∈ coupling.entries, ¬ (e.1.1 ∈ classes ↔ e.1.2 ∈ classes) → Scalar.IsZero e.2

instance decidableSeparates (coupling : CouplingMap α) (classes : NameSet) : Decidable (coupling.Separates classes) :=
  inferInstanceAs (Decidable (∀ e ∈ coupling.entries, _ → Scalar.IsZero e.2))

variable {coupling : CouplingMap α}

/-- Sets do not couple if each pair across them has its classes on different sides. -/
theorem Separates.not_pos [LawfulScalar α] (h : coupling.Separates classes)
    (hst : ∀ p ∈ Lookup.crossPairs s t, ¬ (p.1 ∈ classes ↔ p.2 ∈ classes)) : ¬ 0 < coupling.between s t := by
  refine Scalar.mean_isZero fun v hv => ?_
  obtain ⟨p, hp, hv⟩ := List.mem_filterMap.1 hv
  exact h (p, v) ((OrderedMap.find?_eq_some_iff ..).1 hv) (hst p hp)

theorem between_restrict (hs : s.liesIn classes = true) (ht : t.liesIn classes = true) :
    (coupling.restrict classes).between s t = coupling.between s t := by
  rw [NameSet.liesIn_iff] at hs ht
  refine Lookup.between_congr fun p hp => OrderedMap.find?_keep coupling ?_
  rw [inside, Bool.and_eq_true, decide_eq_true_iff, decide_eq_true_iff]
  rcases Lookup.mem_crossPairs.1 hp with ⟨h1, h2⟩ | ⟨h1, h2⟩
  · exact ⟨hs _ h1, ht _ h2⟩
  · exact ⟨ht _ h1, hs _ h2⟩

end CouplingMap

namespace Clustering

variable {coupling : CouplingMap α} {rule : StopRule α} {c c' : Clustering α} {m : Merge α}

/-- How the run over a set of classes stands beside the one over all classes: it has the groups inside the set, and has made
the merges inside it. -/
structure Beside (classes : NameSet) (c c' : Clustering α) : Prop where
  parted : ∀ s ∈ c.groups, s.liesIn classes = true ∨ s.Apart classes
  groups_eq : c'.groups = c.groups.filter fun s => s.liesIn classes
  history_eq : c'.history.map Merge.outline = (c.history.filter fun m => m.liesIn classes).map Merge.outline

variable {p : NameSet × NameSet}

/-! ## Selected pairs -/

theorem ofPair_restrict {groups : List NameSet} {q : NameSet × NameSet}
    (hq : q ∈ pairsOf (groups.filter fun s => s.liesIn classes)) :
    Lookup.ofPair (coupling.restrict classes).find? q = Lookup.ofPair coupling.find? q := by
  rw [pairsOf_filter, List.mem_filter, Bool.and_eq_true] at hq
  exact CouplingMap.between_restrict hq.2.1 hq.2.2

/-- A pair inside the set is selected among the groups inside the set as well. -/
theorem Selects.restrict {groups : List NameSet} (h : Selects coupling.find? rule groups p)
    (h1 : p.1.liesIn classes = true) (h2 : p.2.liesIn classes = true) (hmost : rule.maxModules ≤ 1) :
    Selects (coupling.restrict classes).find? rule (groups.filter fun s => s.liesIn classes) p := by
  have hfilter : Foremost (Lookup.ofPair coupling.find?) (pairsOf (groups.filter fun s => s.liesIn classes)) p := by
    rw [pairsOf_filter]
    exact h.foremost.filter (Bool.and_eq_true_iff.2 ⟨h1, h2⟩)
  refine .of_foremost (hfilter.congr fun q hq => ofPair_restrict hq) ?_ hmost
  rw [ofPair_restrict hfilter.mem]
  exact h.strong

section Laws

variable [LawfulScalar α]

/-- Both groups of a selected pair are on the same side. -/
theorem Selects.same_side (h : Selects coupling.find? rule c.groups p) (hsep : coupling.Separates classes)
    (hparted : ∀ s ∈ c.groups, s.liesIn classes = true ∨ s.Apart classes) :
    p.1.liesIn classes = true ∧ p.2.liesIn classes = true ∨ p.1.Apart classes ∧ p.2.Apart classes := by
  have hpos : 0 < coupling.between p.1 p.2 := h.foremost.positive
  have hsub := h.sublist.subset
  rcases hparted p.1 (hsub (List.mem_cons_self ..)) with h1 | h1
  · rcases hparted p.2 (hsub (List.mem_cons_of_mem _ (List.mem_cons_self ..))) with h2 | h2
    · exact Or.inl ⟨h1, h2⟩
    · exact absurd hpos (hsep.not_pos fun q hq => Lookup.not_iff_of_mem_crossPairs h1 h2 hq)
  · rcases hparted p.2 (hsub (List.mem_cons_of_mem _ (List.mem_cons_self ..))) with h2 | h2
    · refine absurd hpos (hsep.not_pos fun q hq => Lookup.not_iff_of_mem_crossPairs h2 h1 ?_)
      exact (Lookup.crossPairs_comm p.1 p.2).mem_iff.1 hq
    · exact Or.inr ⟨h1, h2⟩

/-- What is selected inside the set leaves something to select among all groups, which couple no less. -/
theorem exists_selects_of_restrict (c : Clustering α)
    (h : Selects (coupling.restrict classes).find? rule (c.groups.filter fun s => s.liesIn classes) p)
    (hmost : rule.maxModules ≤ 1) : ∃ q, Selects coupling.find? rule c.groups q := by
  have hvalue : Lookup.ofPair (coupling.restrict classes).find? p = Lookup.ofPair coupling.find? p :=
    ofPair_restrict h.foremost.mem
  have hpos : 0 < Lookup.ofPair coupling.find? p := hvalue ▸ h.foremost.positive
  have hmem : p ∈ pairsOf c.groups := mem_pairsOf.2 (h.sublist.trans List.filter_sublist)
  obtain ⟨q, hq⟩ := exists_foremost c hmem hpos
  refine ⟨q, .of_foremost hq (fun hweak => h.strong ?_) hmost⟩
  rw [hvalue]
  exact Scalar.lt_of_le_of_lt (hq.le_of_pos hmem hpos) hweak

/-! ## The two runs -/

omit [LawfulScalar α] in
theorem Merge.liesIn_iff_of_picks {value? : Lookup α} (hm : Picks value? rule c m) :
    m.liesIn classes = true ↔ m.first.members.liesIn classes = true ∧ m.second.members.liesIn classes = true := by
  rw [Merge.liesIn, hm.result_eq]
  exact NameSet.liesIn_union

omit [LawfulScalar α] in
/-- The union of two groups on one side is on that side. -/
theorem Beside.parted_apply (h : Beside classes c c') (hf : Forest coupling c) (hm : Picks coupling.find? rule c m)
    (hside : m.first.members.liesIn classes = true ∧ m.second.members.liesIn classes = true ∨
      m.first.members.Apart classes ∧ m.second.members.Apart classes) :
    ∀ s ∈ (c.apply m).groups, s.liesIn classes = true ∨ s.Apart classes := by
  rw [hf.groups_apply hm]
  refine List.forall_mem_append.2 ⟨fun s hs => ?_, List.forall_mem_singleton.2 ?_⟩
  · exact h.parted s (List.mem_of_mem_erase (List.mem_of_mem_erase hs))
  · rcases hside with ⟨h1, h2⟩ | ⟨h1, h2⟩
    · exact Or.inl (NameSet.liesIn_union.2 ⟨h1, h2⟩)
    · exact Or.inr fun x hx => (NameSet.mem_union.1 hx).elim (h1 x) (h2 x)

/-- The run over the set makes a merge inside it, too. -/
theorem Beside.follow (h : Beside classes c c') (hf : Forest coupling c) (hf' : Forest (coupling.restrict classes) c')
    (hm : Picks coupling.find? rule c m) (h1 : m.first.members.liesIn classes = true)
    (h2 : m.second.members.liesIn classes = true) (hmost : rule.maxModules ≤ 1) :
    ∃ m', c'.next (coupling.restrict classes).find? rule = .join m' ∧ Beside classes (c.apply m) (c'.apply m') := by
  have hselects := (hf.selects_of_picks hm).restrict h1 h2 hmost
  rw [← h.groups_eq] at hselects
  obtain ⟨m', hnext, hfirst, hsecond⟩ := hf'.exists_join_of_selects hselects
  dsimp only at hfirst hsecond
  have hm' := picks_of_next hnext
  have hunion : (m.first.members.union m.second.members).liesIn classes = true := NameSet.liesIn_union.2 ⟨h1, h2⟩
  refine ⟨m', hnext, h.parted_apply hf hm (Or.inl ⟨h1, h2⟩), ?_, ?_⟩
  · rw [hf'.groups_apply hm', hf.groups_apply hm, hfirst, hsecond, h.groups_eq, List.erase_filter, List.erase_filter,
      List.filter_append, List.filter_singleton, hunion, cond_true]
  · have houtline : m'.outline = m.outline := by
      rw [hm'.outline_eq, hm.outline_eq, hfirst, hsecond]
      exact congrArg (fun v => (_, _, v, _)) (CouplingMap.between_restrict h1 h2)
    have hin : m.liesIn classes = true := (Merge.liesIn_iff_of_picks hm).2 ⟨h1, h2⟩
    rw [apply_history, apply_history, List.map_append, h.history_eq, List.filter_append, List.filter_singleton, hin, cond_true,
      List.map_append, List.map_singleton, List.map_singleton, houtline]

/-- The run over the set waits while groups outside it are merged. -/
theorem Beside.wait (h : Beside classes c c') (hf : Forest coupling c) (hm : Picks coupling.find? rule c m)
    (h1 : m.first.members.Apart classes) (h2 : m.second.members.Apart classes) : Beside classes (c.apply m) c' := by
  obtain ⟨hfirst, hsecond⟩ := List.cons_subset.1 (hf.selects_of_picks hm).sublist.subset
  have hout1 := h1.not_liesIn (hf.ne_empty_of_mem_groups hfirst)
  have hout2 := h2.not_liesIn (hf.ne_empty_of_mem_groups (hsecond (List.mem_singleton_self _)))
  have hunion : (m.first.members.union m.second.members).liesIn classes = false :=
    Bool.eq_false_iff.2 fun hin => Bool.eq_false_iff.1 hout1 (NameSet.liesIn_union.1 hin).1
  have hmerge : m.liesIn classes = false :=
    Bool.eq_false_iff.2 fun hin => Bool.eq_false_iff.1 hout1 ((Merge.liesIn_iff_of_picks hm).1 hin).1
  have hnot : ∀ {s : NameSet}, s.liesIn classes = false → s ∉ c'.groups := fun hs hmem => by
    rw [h.groups_eq] at hmem
    exact Bool.eq_false_iff.1 hs (List.mem_filter.1 hmem).2
  refine ⟨h.parted_apply hf hm (Or.inr ⟨h1, h2⟩), ?_, ?_⟩
  · rw [hf.groups_apply hm, List.filter_append, List.filter_singleton, hunion, cond_false, List.append_nil,
      ← List.erase_filter, ← List.erase_filter, ← h.groups_eq, List.erase_of_not_mem (hnot hout1),
      List.erase_of_not_mem (hnot hout2)]
  · rw [apply_history, List.filter_append, List.filter_singleton, hmerge, cond_false, List.append_nil,
      h.history_eq]

omit [LawfulScalar α] in
theorem beside_initial (h : (coupling.restrict classes).classes = coupling.classes.filter fun x => decide (x ∈ classes)) :
    Beside classes (initial coupling) (initial (coupling.restrict classes)) where
  parted := by
    rw [initial_groups]
    intro s hs
    obtain ⟨x, -, rfl⟩ := List.mem_map.1 hs
    by_cases hx : x ∈ classes
    · exact Or.inl (NameSet.liesIn_singleton.2 hx)
    · exact Or.inr fun y hy => NameSet.mem_singleton.1 hy ▸ hx
  groups_eq := by
    rw [initial_groups, initial_groups, h, List.filter_map]
    refine congrArg (List.map NameSet.singleton) (List.filter_congr fun x _ => ?_)
    rw [Bool.eq_iff_iff, decide_eq_true_iff, Function.comp_apply, NameSet.liesIn_singleton]
  history_eq := rfl

/-- Side by side, the two runs end together. -/
theorem beside_run (hsep : coupling.Separates classes) (hmost : rule.maxModules ≤ 1)
    (hclasses : (coupling.restrict classes).classes = coupling.classes.filter fun x => decide (x ∈ classes)) :
    Beside classes (run rule coupling).clustering (run rule (coupling.restrict classes)).clustering := by
  refine run_simulation (beside_initial hclasses) ?_ ?_
  · intro i j m h hnext
    have hf := forest_stage rule coupling i
    have hm := picks_of_next hnext
    rcases (hf.selects_of_picks hm).same_side hsep h.parted with ⟨h1, h2⟩ | ⟨h1, h2⟩
    · exact Or.inr (h.follow hf (forest_stage rule _ j) hm h1 h2 hmost)
    · exact Or.inl (h.wait hf hm h1 h2)
  · intro i j m' h hnext
    have hselects := (forest_stage rule _ j).selects_of_picks (picks_of_next hnext)
    rw [h.groups_eq] at hselects
    obtain ⟨q, hq⟩ := exists_selects_of_restrict _ hselects hmost
    obtain ⟨m, hm, -⟩ := (forest_stage rule coupling i).exists_join_of_selects hq
    exact ⟨m, hm⟩

/-! ## The merges inside a set -/

omit [LawfulScalar α] in
/-- Two classes are inside a set in which there is a merge. -/
theorem Forest.two_le_of_liesIn (h : Forest coupling c) (hm : m ∈ c.history) (hin : m.liesIn classes = true) :
    2 ≤ (coupling.classes.filter fun x => decide (x ∈ classes)).length := by
  have hjoins := h.joins m hm
  have hfirst := List.mem_of_getElem? hjoins.first_at
  have hsecond := List.mem_of_getElem? hjoins.second_at
  obtain ⟨x, hx⟩ := List.exists_mem_of_ne_nil _ (h.nonempty _ hfirst)
  obtain ⟨y, hy⟩ := List.exists_mem_of_ne_nil _ (h.nonempty _ hsecond)
  have hne : x ≠ y := fun e => hjoins.apart x hx (e ▸ hy)
  rw [Merge.liesIn, hjoins.members_eq, NameSet.liesIn_union, NameSet.liesIn_iff, NameSet.liesIn_iff] at hin
  have hsub : [x, y] ⊆ coupling.classes.filter fun x => decide (x ∈ classes) := by
    refine List.cons_subset.2 ⟨?_, List.cons_subset.2 ⟨?_, List.nil_subset _⟩⟩
    · exact List.mem_filter.2 ⟨h.mem_classes_of_mem hfirst x hx, decide_eq_true (hin.1 x hx)⟩
    · exact List.mem_filter.2 ⟨h.mem_classes_of_mem hsecond y hy, decide_eq_true (hin.2 y hy)⟩
  exact (List.subperm_of_subset (List.nodup_cons.2 ⟨List.mem_singleton.not.2 hne, List.nodup_singleton y⟩) hsub).length_le

omit [LawfulScalar α] in
theorem history_eq_nil_of_classes_eq_nil (rule : StopRule α) (h : coupling.classes = []) :
    (run rule coupling).clustering.history = [] := by
  have hlength := (forest_run rule coupling).length_active
  rw [h, List.length_nil] at hlength
  exact List.eq_nil_of_length_eq_zero (Nat.eq_zero_of_add_eq_zero_left hlength)

/-- **Unrelated classes do not influence each other.** If no value between a set of classes and the others differs from zero,
the merges inside the set are those of the run over the set alone, with the same sides and in the same order. -/
theorem run_restrict {names : List String} (hn : names.Nodup) (hdense : coupling.Dense names)
    (hsep : coupling.Separates classes) (hmost : rule.maxModules ≤ 1) :
    ((run rule coupling).clustering.history.filter fun m => m.liesIn classes).map Merge.outline =
      (run rule (coupling.restrict classes)).clustering.history.map Merge.outline := by
  rcases hdense.classes_restrict hn classes with hclasses | ⟨hnone, hfew⟩
  · exact (beside_run hsep hmost hclasses).history_eq.symm
  · -- a single class is not in the restricted map, but neither is there a merge inside the set
    have hinside : ((run rule coupling).clustering.history.filter fun m => m.liesIn classes) = [] := by
      refine List.filter_eq_nil_iff.2 fun m hm hin => ?_
      have htwo := (forest_run rule coupling).two_le_of_liesIn hm hin
      omega
    rw [hinside, history_eq_nil_of_classes_eq_nil rule hnone, List.map_nil]

end Laws

/-- Five classes, where `A`, `C` and `E` are coupled with each other and so are `B` and `D`. -/
def interleaved : CouplingMap Float :=
  .ofList ((Lookup.distinctPairs ["A", "B", "C", "D", "E"] ["A", "B", "C", "D", "E"]).map fun p =>
    (p, if p = ("E", "A") then 0.5 else if p = ("B", "D") then 0.25 else if p = ("A", "C") then 0.125 else 0))

theorem interleaved_restricted :
    ["A", "B", "C", "D", "E"].Nodup ∧ interleaved.Dense ["A", "B", "C", "D", "E"] ∧
      interleaved.Separates (.ofList ["A", "C", "E"]) ∧ (1 : Int) ≤ 1 ∧
      (run ⟨0.01, 1⟩ interleaved).clustering.history.map Merge.coupling = [0.25, 0.125, 0.03125] ∧
      ((run ⟨0.01, 1⟩ interleaved).clustering.history.filter fun m => m.liesIn (.ofList ["A", "C", "E"])).map Merge.outline =
        (run ⟨0.01, 1⟩ (interleaved.restrict (.ofList ["A", "C", "E"]))).clustering.history.map Merge.outline := by
  have hn : ["A", "B", "C", "D", "E"].Nodup := by decide
  have hdense : interleaved.Dense ["A", "B", "C", "D", "E"] := by decide +kernel
  have hsep : interleaved.Separates (.ofList ["A", "C", "E"]) := by decide +kernel
  have hcouplings : (run ⟨0.01, 1⟩ interleaved).clustering.history.map Merge.coupling = [0.25, 0.125, 0.03125] := by
    decide +kernel
  exact ⟨hn, hdense, hsep, le_refl _, hcouplings, run_restrict hn hdense hsep (le_refl _)⟩

end Clustering

end CouplingTree
