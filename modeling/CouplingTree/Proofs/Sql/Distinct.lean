import Mathlib.Algebra.Order.Group.Int
import Mathlib.Algebra.Order.Ring.Rat
import Mathlib.Algebra.Order.Ring.Cast
import Mathlib.Data.List.SplitBy
import CouplingTree.Sql.Relation

/-!
# Different values

Values are compared by their rank, then by their place among the numbers, and then by the bytes that count. So comparing is
transitive, sorting puts the same values together, and the first ones of each kind are all the different values.

* `Value.compare_eq` : the comparison by its three stages.
* `Value.same_iff` : values are the same when they agree in each stage.
* `firstOfEach_perm`, `pairwise_firstOfEach`, `exists_mem_firstOfEach` : the first ones of the items with the same keys.
* `mergeSort_eq` : sorting by a recursion that unfolds.
-/

namespace CouplingTree.Sql
open Std (OrientedCmp OrientedOrd TransCmp TransOrd)

/-! ## The order of values -/

/-- A comparison that asks for less and for more. -/
theorem ite_lt_ite_gt {α : Type} [Ord α] [OrientedOrd α] [LT α] [DecidableLT α] {a b : α}
    (hlt : ∀ a b : α, compare a b = .lt ↔ a < b) (rest : Ordering) :
    (if a < b then .lt else if b < a then .gt else rest) = (compare a b).then rest := by
  rw [← if_congr (hlt a b) rfl rfl, ← if_congr (hlt b a) rfl rfl, OrientedOrd.eq_swap (a := b)]
  cases compare a b <;> rfl

theorem compareBytes_eq : ∀ a b : Bytes, compareBytes a b = compare a b
  | [], [] => rfl
  | [], _ :: _ => rfl
  | _ :: _, [] => rfl
  | a :: as, b :: bs => by
    rw [compareBytes, compareBytes_eq as bs, List.compare_cons_cons]
    exact ite_lt_ite_gt (fun _ _ => Std.compare_eq_lt) _

namespace Place

/-- Below all numbers, among them, or above. -/
def kind : Place → Nat
  | below => 0
  | rational _ => 1
  | above => 2

def number : Place → Rat
  | rational q => q
  | _ => 0

theorem compare_rational (p q : Rat) : (rational p).compare (rational q) = Ord.compare p q := by
  refine (ite_lt_ite_gt (fun _ _ => compare_lt_iff_lt) .eq).trans ?_
  cases Ord.compare p q <;> rfl

theorem compare_eq : compare = compareLex (compareOn kind) (compareOn number) := by
  funext p q
  cases p <;> cases q
  case rational.rational p q => exact compare_rational p q
  all_goals rfl

theorem compare_eq_eq_iff {p q : Place} : p.compare q = .eq ↔ p = q := by
  rw [compare_eq]
  cases p <;> cases q <;> simp [compareLex, compareOn, kind, number, Ordering.then_eq_eq]

end Place

namespace Value

/-- The bytes that count. -/
def collated (c : Collation) : Value → Bytes
  | text bs => c.key bs
  | blob bs => bs
  | _ => []

theorem compare_cast (i j : Int) : Ord.compare (i : Rat) (j : Rat) = Ord.compare i j := by
  rcases lt_trichotomy i j with h | rfl | h
  · rw [compare_lt_iff_lt.2 h, compare_lt_iff_lt.2 (Int.cast_lt.2 h)]
  · rw [compare_eq_iff_eq.2 rfl, compare_eq_iff_eq.2 rfl]
  · rw [compare_gt_iff_gt.2 h, compare_gt_iff_gt.2 (Int.cast_lt.2 h)]

/-- Rank, place and bytes, each where those before it are the same. -/
theorem compare_eq (c : Collation) : compare c = compareLex (compareOn rank)
    (compareLex (fun v w => v.place.compare w.place) (compareOn (collated c))) := by
  funext v w
  have hthen : ∀ o : Ordering, o.then .eq = o := fun o => by cases o <;> rfl
  cases v <;> cases w
  case integer.integer i j =>
    refine ((hthen _).trans ?_).symm
    exact (Place.compare_rational i j).trans (compare_cast i j)
  case text.text a b => exact compareBytes_eq _ _
  case blob.blob a b => exact compareBytes_eq _ _
  case integer.real | real.integer | real.real => exact (hthen _).symm
  all_goals rfl

instance (c : Collation) : TransCmp (compare c) := by
  rw [compare_eq, Place.compare_eq]
  change TransCmp (compareLex _ (compareLex (compareLex (compareOn fun v : Value => v.place.kind)
    (compareOn fun v : Value => v.place.number)) _))
  infer_instance

/-- Values are the same when they are of the same kind, at the same place, and have the same bytes that count. -/
theorem same_iff {c : Collation} {v w : Value} :
    same c v w = true ↔ v.rank = w.rank ∧ v.place = w.place ∧ v.collated c = w.collated c := by
  rw [same, decide_eq_true_iff, compare_eq, compareLex, compareLex, Ordering.then_eq_eq, Ordering.then_eq_eq,
    Place.compare_eq_eq_iff, compareOn, compareOn, compare_eq_iff_eq, Std.compare_eq_iff_eq]

theorem same_comm (c : Collation) (v w : Value) : same c v w = same c w v := by
  rw [Bool.eq_iff_iff, same_iff, same_iff, eq_comm, @eq_comm _ v.place, @eq_comm _ (v.collated c)]

theorem same_trans {c : Collation} {u v w : Value} (huv : same c u v = true) (hvw : same c v w = true) :
    same c u w = true := by
  obtain ⟨hrank, hplace, hbytes⟩ := same_iff.1 huv
  obtain ⟨hrank', hplace', hbytes'⟩ := same_iff.1 hvw
  exact same_iff.2 ⟨hrank.trans hrank', hplace.trans hplace', hbytes.trans hbytes'⟩

/-- What is the same byte by byte is the same however texts are compared. -/
theorem same_of_same_binary {c : Collation} {v w : Value} (h : same .binary v w = true) : same c v w = true := by
  obtain ⟨hrank, hplace, hbytes⟩ := same_iff.1 h
  refine same_iff.2 ⟨hrank, hplace, ?_⟩
  cases v <;> cases w
  case text.text bs bs' => exact congrArg c.key hbytes
  all_goals first
    | exact hbytes
    | exact absurd hrank (by simp [rank])

end Value

/-! ## Groups -/

section Groups

variable {α β : Type} {cmp : α → α → Ordering}

theorem splitByLoop_map (f : α → β) (r : β → β → Bool) : ∀ (l : List α) (a : α) (g : List α) (gs : List (List α)),
    List.splitBy.loop r (l.map f) (f a) (g.map f) (gs.map (List.map f)) =
      (List.splitBy.loop (fun a b => r (f a) (f b)) l a g gs).map (List.map f)
  | [], a, g, gs => by simp [List.splitBy.loop]
  | b :: l, a, g, gs => by
    simp only [List.map_cons, List.splitBy.loop]
    cases r (f a) (f b)
    · simpa using splitByLoop_map f r l b [] ((a :: g).reverse :: gs)
    · exact splitByLoop_map f r l b (a :: g) gs

theorem splitBy_map (f : α → β) (r : β → β → Bool) (l : List α) :
    (l.map f).splitBy r = (l.splitBy fun a b => r (f a) (f b)).map (List.map f) := by
  cases l with
  | nil => rfl
  | cons a l => exact splitByLoop_map f r l a [] []

variable [TransCmp cmp]

instance transCmp_comap (f : β → α) : TransCmp fun a b => cmp (f a) (f b) where
  eq_swap := OrientedCmp.eq_swap
  isLE_trans := TransCmp.isLE_trans

theorem isLE_of_mem_cons {l : List α} {a b : α} (h : (a :: l).Pairwise fun a b => (cmp a b).isLE) (hb : b ∈ a :: l) :
    (cmp a b).isLE := by
  obtain rfl | hb := List.mem_cons.1 hb
  · exact Std.ReflCmp.isLE_rfl
  · exact List.rel_of_pairwise_cons h hb

omit [TransCmp cmp] in
theorem lt_of_isLE_of_ne {a b : α} (hle : (cmp a b).isLE) (hne : cmp a b ≠ .eq) : cmp a b = .lt := by
  cases h : cmp a b with
  | lt => rfl
  | eq => exact absurd h hne
  | gt =>
    rw [h] at hle
    cases hle

/-- The first items of groups that are in order, and none of which ends with the same as the next one begins with. -/
theorem pairwise_heads : ∀ {gs : List (List α)}, [] ∉ gs → gs.flatten.Pairwise (fun a b => (cmp a b).isLE) →
    (gs.IsChain fun g h => ∃ hg hh, decide (cmp (g.getLast hg) (h.head hh) = .eq) = false) →
    (gs.filterMap List.head?).Pairwise fun a b => cmp a b = .lt
  | [], _, _, _ => List.Pairwise.nil
  | [] :: _, hne, _, _ => absurd (List.mem_cons_self ..) hne
  | [a :: _], _, _, _ => List.pairwise_singleton _ a
  | _ :: [] :: _, hne, _, _ => absurd (List.mem_cons_of_mem _ (List.mem_cons_self ..)) hne
  | (a :: g) :: (b :: h) :: gs, hne, hsorted, hchain => by
    obtain ⟨⟨hg, _, hends⟩, hrest⟩ := List.isChain_cons_cons.1 hchain
    obtain ⟨hgroup, hlater, hacross⟩ := List.pairwise_append.1 hsorted
    have hlast : (cmp a ((a :: g).getLast hg)).isLE := isLE_of_mem_cons hgroup (List.getLast_mem hg)
    have hstep : cmp ((a :: g).getLast hg) b = .lt :=
      lt_of_isLE_of_ne (hacross _ (List.getLast_mem hg) b (List.mem_cons_self ..)) (of_decide_eq_false hends)
    refine List.pairwise_cons.2 ⟨fun c hc => ?_, pairwise_heads (fun hnil => hne (List.mem_cons_of_mem _ hnil)) hlater hrest⟩
    obtain ⟨k, hk, hck⟩ := List.mem_filterMap.1 hc
    have hle : (cmp b c).isLE := isLE_of_mem_cons hlater (List.mem_flatten_of_mem hk (List.mem_of_mem_head? hck))
    exact TransCmp.lt_of_isLE_of_lt hlast (TransCmp.lt_of_lt_of_isLE hstep hle)

/-- The first items of groups of the same items are the same as all others. -/
theorem exists_head {gs : List (List α)} (h : ∀ g ∈ gs, g.IsChain fun a b => decide (cmp a b = .eq) = true) {a : α}
    (ha : a ∈ gs.flatten) : ∃ b ∈ gs.filterMap List.head?, cmp b a = .eq := by
  obtain ⟨g, hg, ha⟩ := List.mem_flatten.1 ha
  have htrans : Trans (fun a b => cmp a b = .eq) (fun a b => cmp a b = .eq) (fun a b => cmp a b = .eq) :=
    ⟨TransCmp.eq_trans⟩
  have hsame : g.Pairwise fun a b => cmp a b = .eq :=
    List.isChain_iff_pairwise.1 ((h g hg).imp fun _ _ => of_decide_eq_true)
  cases g with
  | nil => cases ha
  | cons b g =>
    refine ⟨b, List.mem_filterMap.2 ⟨_, hg, rfl⟩, ?_⟩
    obtain rfl | ha := List.mem_cons.1 ha
    · exact Std.ReflCmp.compare_self
    · exact List.rel_of_pairwise_cons hsame ha

end Groups

/-! ## The first ones -/

section FirstOfEach

variable {α : Type} {cs : List Collation} {key : α → List Value} {cmp : α → α → Ordering} [TransCmp cmp]

/-- Sorting by keys is sorting by how the items compare. -/
theorem groupByKeys_eq (hcmp : ∀ a b, compareRows cs (key a) (key b) = cmp a b) (items : List α) :
    groupByKeys cs key items =
      (items.mergeSort fun a b => (cmp a b).isLE).splitBy fun a b => decide (cmp a b = .eq) := by
  have hsort : sortByKeys (fun v w => decide (compareRows cs v w = .lt)) (items.map fun a => (key a, a)) =
      (items.mergeSort fun a b => (cmp a b).isLE).map fun a => (key a, a) := by
    refine (List.map_mergeSort fun a _ b _ => ?_).symm
    have hswap : cmp a b = (cmp b a).swap := OrientedCmp.eq_swap
    change (cmp a b).isLE = !decide (compareRows cs (key b) (key a) = .lt)
    rw [hcmp, hswap]
    cases cmp b a <;> rfl
  simp only [groupByKeys, hsort, splitBy_map, hcmp, List.map_map, Function.comp_def, List.map_id']

theorem isLE_total (a b : α) : ((cmp a b).isLE || (cmp b a).isLE) = true := by
  have hswap : cmp a b = (cmp b a).swap := OrientedCmp.eq_swap
  rw [hswap]
  cases cmp b a <;> rfl

theorem pairwise_groupByKeys (hcmp : ∀ a b, compareRows cs (key a) (key b) = cmp a b) (items : List α) :
    ((groupByKeys cs key items).filterMap List.head?).Pairwise fun a b => cmp a b = .lt := by
  rw [groupByKeys_eq hcmp]
  refine pairwise_heads (List.nil_notMem_splitBy _ _) ?_
    (List.isChain_getLast_head_splitBy (fun a b => decide (cmp a b = .eq)) _)
  rw [List.flatten_splitBy]
  exact List.pairwise_mergeSort (fun _ _ _ => TransCmp.isLE_trans) isLE_total items

theorem mem_flatten_groupByKeys (hcmp : ∀ a b, compareRows cs (key a) (key b) = cmp a b) {items : List α} {a : α} :
    a ∈ (groupByKeys cs key items).flatten ↔ a ∈ items := by
  rw [groupByKeys_eq hcmp, List.flatten_splitBy, List.mem_mergeSort]

theorem firstOfEach_perm (cs : List Collation) (key : α → List Value) (items : List α) : (firstOfEach cs key items).Perm
    (((groupByKeys cs (fun a => key a.1) items.zipIdx).filterMap List.head?).map Prod.fst) := by
  have hsort := (List.mergeSort_perm (((groupByKeys cs (fun a => key a.1) items.zipIdx).filterMap List.head?).map
    fun a => (a.2, a.1)) fun a b => !decide (b.1 < a.1)).map Prod.snd
  rwa [List.map_map] at hsort

/-- No two of the first items are the same. -/
theorem pairwise_firstOfEach (hcmp : ∀ a b, compareRows cs (key a) (key b) = cmp a b) (items : List α) :
    (firstOfEach cs key items).Pairwise fun a b => cmp a b ≠ .eq := by
  have hcmp' : ∀ a b : α × Nat, compareRows cs (key a.1) (key b.1) = cmp a.1 b.1 := fun a b => hcmp a.1 b.1
  have hheads := pairwise_groupByKeys hcmp' items.zipIdx
  rw [(firstOfEach_perm cs key items).pairwise_iff fun h h' => h (OrientedCmp.eq_symm h'), List.pairwise_map]
  exact hheads.imp fun hlt heq => by rw [hlt] at heq; cases heq

/-- They are among the items. -/
theorem mem_of_mem_firstOfEach (hcmp : ∀ a b, compareRows cs (key a) (key b) = cmp a b) {items : List α} {a : α}
    (h : a ∈ firstOfEach cs key items) : a ∈ items := by
  obtain ⟨b, hb, rfl⟩ := List.mem_map.1 ((firstOfEach_perm cs key items).mem_iff.1 h)
  obtain ⟨g, hg, hbg⟩ := List.mem_filterMap.1 hb
  have hcmp' : ∀ a b : α × Nat, compareRows cs (key a.1) (key b.1) = cmp a.1 b.1 := fun a b => hcmp a.1 b.1
  have hmem := (mem_flatten_groupByKeys hcmp').1 (List.mem_flatten_of_mem hg (List.mem_of_mem_head? hbg))
  exact List.fst_mem_of_mem_zipIdx hmem

/-- Each item is the same as one of them. -/
theorem exists_mem_firstOfEach (hcmp : ∀ a b, compareRows cs (key a) (key b) = cmp a b) {items : List α} {a : α}
    (h : a ∈ items) : ∃ b ∈ firstOfEach cs key items, cmp b a = .eq := by
  have hcmp' : ∀ a b : α × Nat, compareRows cs (key a.1) (key b.1) = cmp a.1 b.1 := fun a b => hcmp a.1 b.1
  obtain ⟨i, hi, rfl⟩ := List.getElem_of_mem h
  have hmem : (items[i], i) ∈ items.zipIdx := List.mk_mem_zipIdx_iff_getElem?.2 (List.getElem?_eq_getElem hi)
  have hgroups : ∀ g ∈ groupByKeys cs (fun a => key a.1) items.zipIdx,
      g.IsChain fun a b => decide (cmp a.1 b.1 = .eq) = true := fun g hg => by
    rw [groupByKeys_eq hcmp'] at hg
    exact List.isChain_of_mem_splitBy hg
  obtain ⟨b, hb, hsame⟩ := exists_head hgroups ((mem_flatten_groupByKeys hcmp').2 hmem)
  exact ⟨b.1, (firstOfEach_perm cs key items).mem_iff.2 (List.mem_map_of_mem hb), hsame⟩

end FirstOfEach

/-! ## Sorting by parts -/

section Parts

variable {α : Type} (le : α → α → Bool)

/-- Two lists that are in order, as one. -/
def mergeBy : List α → List α → List α
  | [], bs => bs
  | a :: as, bs => before a as (mergeBy as) bs
where
  /-- The list with an item in front of the rest, which is merged in its own way. -/
  before (a : α) (as : List α) (rest : List α → List α) : List α → List α
    | [] => a :: as
    | b :: bs => if le a b then a :: rest (b :: bs) else b :: before a as rest bs

theorem mergeBy_eq_merge (as bs : List α) : mergeBy le as bs = as.merge bs le := by
  induction as generalizing bs with
  | nil => rw [mergeBy, List.nil_merge]
  | cons a as ih =>
    rw [mergeBy]
    induction bs with
    | nil => rw [mergeBy.before, List.merge_right]
    | cons b bs ihb => rw [mergeBy.before, List.cons_merge_cons, ih, ihb]

/-- A list in order, where so many parts are inside each other at most. -/
def sortBy : Nat → List α → List α
  | depth + 1, a :: b :: rest =>
    let half := ((a :: b :: rest).length + 1) / 2
    mergeBy le (sortBy depth ((a :: b :: rest).take half)) (sortBy depth ((a :: b :: rest).drop half))
  | _, as => as

theorem mergeSort_eq_sortBy : ∀ (depth : Nat) (as : List α), as.length ≤ depth + 1 → as.mergeSort le = sortBy le depth as
  | _, [], _ => by simp [sortBy]
  | _, [a], _ => by simp [sortBy]
  | depth + 1, a :: b :: rest, h => by
    have hparts : ∀ part : List α, part.length ≤ depth + 1 → part.mergeSort le = sortBy le depth part := fun part hpart =>
      mergeSort_eq_sortBy depth part hpart
    rw [List.length_cons, List.length_cons] at h
    simp only [sortBy, List.mergeSort, mergeBy_eq_merge, List.MergeSort.Internal.splitInTwo_fst,
      List.MergeSort.Internal.splitInTwo_snd]
    rw [hparts _ (by simp only [List.length_take, List.length_cons]; omega),
      hparts _ (by simp only [List.length_drop, List.length_cons]; omega)]

/-- Unlike the sorting of the library, this one unfolds. -/
theorem mergeSort_eq (as : List α) : as.mergeSort le = sortBy le as.length as :=
  mergeSort_eq_sortBy le _ _ (Nat.le_succ _)

end Parts

end CouplingTree.Sql
