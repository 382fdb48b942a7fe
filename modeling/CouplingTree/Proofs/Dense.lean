import CouplingTree.Proofs.Relations
import CouplingTree.Proofs.Means

/-!
# Dense maps and their restrictions

A coupling map is dense over a list of classes if it has the pairs of distinct classes of the list, in lexicographic order of
their places; `restrict` keeps the pairs inside a set of classes.

* `CallGraph.dense_normalizedCoupling` : the coupling of a call graph is dense over its classes.
* `OrderedMap.find?_keep` : what a map has after some of its keys are kept.
* `CouplingMap.Dense.restrict` : the restriction of a dense map is dense over the classes that are left.
* `CouplingMap.Dense.classes_eq` : the classes of a dense map are those of the list, unless there is only one.
* `CouplingMap.Dense.classes_restrict` : so a restriction has the classes that are left, unless only one is.
-/

namespace CouplingTree

/-! ## Keeping some keys -/

namespace OrderedMap

variable {κ β : Type}

/-- The entries whose keys pass a test. -/
def keep (m : OrderedMap κ β) (test : κ → Bool) : OrderedMap κ β where
  entries := m.entries.filter fun e => test e.1
  nodup := m.nodup.sublist (List.filter_sublist.map Prod.fst)

theorem keys_keep (m : OrderedMap κ β) (test : κ → Bool) : (m.keep test).keys = m.keys.filter test :=
  List.filter_map.symm

variable [DecidableEq κ]

theorem find?_keep (m : OrderedMap κ β) {test : κ → Bool} {k : κ} (h : test k = true) :
    (m.keep test).find? k = m.find? k := by
  refine Option.ext fun v => ?_
  rw [find?_eq_some_iff, find?_eq_some_iff, keep, List.mem_filter]
  exact and_iff_left h

end OrderedMap

/-! ## Pairs of a list -/

namespace Lookup

theorem distinctPairs_cons (x : String) (xs ys : List String) :
    distinctPairs (x :: xs) ys = ((ys.filter fun y => decide (x ≠ y)).map fun y => (x, y)) ++ distinctPairs xs ys :=
  List.flatMap_cons

theorem filter_distinctPairs (test : String → Bool) (xs ys : List String) :
    (distinctPairs xs ys).filter (fun p => test p.1 && test p.2) =
      distinctPairs (xs.filter test) (ys.filter test) := by
  induction xs with
  | nil => rfl
  | cons x xs ih =>
    rw [distinctPairs_cons, List.filter_append, ih, List.filter_map]
    cases hx : test x with
    | true =>
      rw [List.filter_cons_of_pos hx, distinctPairs_cons, List.filter_comm]
      simp only [Function.comp_def, hx, Bool.true_and]
    | false =>
      rw [List.filter_cons_of_neg (Bool.eq_false_iff.1 hx)]
      simp [Function.comp_def, hx]

end Lookup

/-! ## Names in order of first occurrence -/

/-- A name that stands before each of a list of others is first, and these follow. -/
theorem eraseDups_flatMap_pair {x y : String} {ys : List String} (h : (x :: y :: ys).Nodup) :
    ((y :: ys).flatMap fun z => [x, z]).eraseDups = x :: y :: ys := by
  obtain ⟨hx, hys⟩ := List.nodup_cons.1 h
  have hfilter : ∀ zs : List String, x ∉ zs → (zs.flatMap fun z => [x, z]).filter (fun z => !z == x) = zs := by
    intro zs
    induction zs with
    | nil => exact fun _ => rfl
    | cons z zs ih =>
      intro hz
      rw [List.mem_cons, not_or] at hz
      rw [List.flatMap_cons, List.filter_append, ih hz.2]
      simp [Ne.symm hz.1]
  rw [List.flatMap_cons, List.cons_append, List.eraseDups_cons]
  have hrest := hfilter (y :: ys) hx
  rw [List.flatMap_cons, List.cons_append, List.filter_cons_of_neg (by simp)] at hrest
  rw [hrest, eraseDups_of_nodup hys]

/-- The pairs of two names or more first mention them in their order. -/
theorem Lookup.eraseDups_mentions {x y : String} {ys : List String} (h : (x :: y :: ys).Nodup) :
    ((distinctPairs (x :: y :: ys) (x :: y :: ys)).flatMap fun p => [p.1, p.2]).eraseDups = x :: y :: ys := by
  have hx : x ∉ y :: ys := (List.nodup_cons.1 h).1
  have hfirst : (x :: y :: ys).filter (fun z => decide (x ≠ z)) = y :: ys := by
    rw [List.filter_cons_of_neg (by simp), List.filter_eq_self]
    exact fun z hz => decide_eq_true (ne_of_mem_of_not_mem hz hx).symm
  rw [distinctPairs_cons, hfirst, List.flatMap_append, eraseDups_append_of_subset]
  · rw [List.flatMap_map]
    exact eraseDups_flatMap_pair h
  · -- the first row names all classes already
    intro z hz
    obtain ⟨⟨a, b⟩, hab, hz⟩ := List.mem_flatMap.1 hz
    obtain ⟨ha, hb, -⟩ := mem_distinctPairs.1 hab
    have hnames : z = x ∨ z ∈ y :: ys := by
      rcases List.mem_pair.1 hz with rfl | rfl
      · exact Or.inr ha
      · exact List.mem_cons.1 hb
    rw [List.flatMap_map, List.mem_flatMap]
    rcases hnames with rfl | hz
    · exact ⟨y, List.mem_cons_self .., List.mem_pair.2 (Or.inl rfl)⟩
    · exact ⟨z, hz, List.mem_pair.2 (Or.inr rfl)⟩

/-! ## Dense maps -/

namespace CouplingMap

variable {α : Type} {coupling : CouplingMap α} {names : List String}

/-- The keys are the pairs of distinct names, in lexicographic order of their places. -/
def Dense (coupling : CouplingMap α) (names : List String) : Prop := coupling.keys = Lookup.distinctPairs names names

instance decidableDense (coupling : CouplingMap α) (names : List String) : Decidable (coupling.Dense names) :=
  inferInstanceAs (Decidable (_ = _))

/-- Both classes of a pair are in a set. -/
def inside (classes : NameSet) (p : String × String) : Bool := decide (p.1 ∈ classes) && decide (p.2 ∈ classes)

/-- The pairs inside a set of classes. -/
def restrict (coupling : CouplingMap α) (classes : NameSet) : CouplingMap α := coupling.keep (inside classes)

theorem Dense.restrict (h : coupling.Dense names) (classes : NameSet) :
    (coupling.restrict classes).Dense (names.filter fun x => decide (x ∈ classes)) := by
  rw [Dense, CouplingMap.restrict, OrderedMap.keys_keep, h]
  exact Lookup.filter_distinctPairs (fun x => decide (x ∈ classes)) names names

theorem Dense.classes_eq (h : coupling.Dense names) (hn : names.Nodup) (hlength : names.length ≠ 1) :
    coupling.classes = names := by
  rw [CouplingMap.classes_eq, mentions, h]
  cases names with
  | nil => rfl
  | cons x names =>
    cases names with
    | nil => exact absurd rfl hlength
    | cons y ys => exact Lookup.eraseDups_mentions hn

theorem Dense.classes_subset (h : coupling.Dense names) : coupling.classes ⊆ names := by
  intro x hx
  obtain ⟨⟨a, b⟩, hab, hx⟩ := mem_classes.1 hx
  rw [h, Lookup.mem_distinctPairs] at hab
  rcases hx with rfl | rfl
  · exact hab.1
  · exact hab.2.1

/-- The classes that are left, unless a single one is, which no pair names. -/
theorem Dense.classes_restrict (h : coupling.Dense names) (hn : names.Nodup) (classes : NameSet) :
    (coupling.restrict classes).classes = coupling.classes.filter (fun x => decide (x ∈ classes)) ∨
      (coupling.restrict classes).classes = [] ∧
        (coupling.classes.filter fun x => decide (x ∈ classes)).length ≤ 1 := by
  have hkept := (h.restrict classes).classes_eq (hn.filter _)
  have hsub := List.filter_subset (fun x => decide (x ∈ classes)) h.classes_subset
  generalize hnames : names.filter (fun x => decide (x ∈ classes)) = kept at hkept hsub
  match kept with
  | [] =>
    rw [hkept (by decide), List.subset_nil.1 hsub]
    exact Or.inl rfl
  | [x] =>
    refine Or.inr ⟨?_, (List.subperm_of_subset (coupling.nodup_classes.filter _) hsub).length_le⟩
    rw [CouplingMap.classes_eq, mentions, h.restrict classes, hnames]
    simp [Lookup.distinctPairs]
  | x :: y :: rest =>
    refine Or.inl ?_
    have hlength := List.length_filter_le (fun x => decide (x ∈ classes)) names
    rw [hnames, List.length_cons, List.length_cons] at hlength
    rw [hkept (by simp), h.classes_eq hn (by omega), hnames]

end CouplingMap

theorem CallGraph.dense_normalizedCoupling [Scalar α] (g : CallGraph) :
    (g.normalizedCoupling : CouplingMap α).Dense g.names := g.keys_normalizedCoupling

end CouplingTree
