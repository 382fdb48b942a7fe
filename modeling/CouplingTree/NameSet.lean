/-!
# Finite sets of names

A `NameSet` lists its names in ascending code point order, each once, so two sets with the same names are equal.

`mem_insert`, `mem_union`, `mem_ofList` : what the operations hold; `ext_mem` : equality is equality of members;
`insert_toList_perm` : inserting a new name adds it once.
-/

namespace CouplingTree

/-! ## Ascending lists -/

namespace Ascending

/-- Puts a name in its place in an ascending list, unless it is there. -/
def insert (x : String) : List String → List String
  | [] => [x]
  | y :: ys => if x < y then x :: y :: ys else if x = y then y :: ys else y :: insert x ys

theorem insert_nil (x : String) : insert x [] = [x] := rfl

theorem insert_cons (x y : String) (ys : List String) :
    insert x (y :: ys) = if x < y then x :: y :: ys else if x = y then y :: ys else y :: insert x ys := rfl

theorem mem_insert {x z : String} : ∀ {l : List String}, z ∈ insert x l ↔ z = x ∨ z ∈ l
  | [] => by simp [insert_nil]
  | y :: ys => by
    rw [insert_cons]
    split
    · simp
    · split
      · next h => subst h; simp
      · simp [mem_insert (l := ys), or_left_comm]

theorem lt_of_not_lt_of_ne {x y : String} (h : ¬x < y) (hne : x ≠ y) : y < x := by
  rcases Classical.em (y < x) with hlt | hlt
  · exact hlt
  · exact absurd (String.le_antisymm (String.not_lt.1 hlt) (String.not_lt.1 h)) hne

theorem pairwise_insert (x : String) :
    ∀ {ys : List String}, ys.Pairwise (· < ·) → (insert x ys).Pairwise (· < ·)
  | [], _ => by simp [insert_nil]
  | y :: ys, h => by
    obtain ⟨hy, hys⟩ := List.pairwise_cons.1 h
    rw [insert_cons]
    split
    · next hlt =>
      refine List.pairwise_cons.2 ⟨fun z hz => ?_, h⟩
      rcases List.mem_cons.1 hz with rfl | hz
      · exact hlt
      · exact String.lt_trans hlt (hy z hz)
    · split
      · exact h
      · next hlt hne =>
        refine List.pairwise_cons.2 ⟨fun z hz => ?_, pairwise_insert x hys⟩
        rcases mem_insert.1 hz with rfl | hz
        · exact lt_of_not_lt_of_ne hlt hne
        · exact hy z hz

theorem insert_perm {x : String} : ∀ {ys : List String}, x ∉ ys → (insert x ys).Perm (x :: ys)
  | [], _ => List.Perm.refl _
  | y :: ys, h => by
    rw [List.mem_cons, not_or] at h
    rw [insert_cons]
    split
    · exact List.Perm.refl _
    · rw [if_neg h.1]
      exact ((insert_perm h.2).cons y).trans (List.Perm.swap x y ys)

/-- Two ascending lists with the same members are the same list. -/
theorem ext_mem : ∀ {xs ys : List String}, xs.Pairwise (· < ·) → ys.Pairwise (· < ·) →
    (∀ z, z ∈ xs ↔ z ∈ ys) → xs = ys
  | [], [], _, _, _ => rfl
  | [], y :: ys, _, _, h => absurd ((h y).2 (List.mem_cons_self ..)) (List.not_mem_nil)
  | x :: xs, [], _, _, h => absurd ((h x).1 (List.mem_cons_self ..)) (List.not_mem_nil)
  | x :: xs, y :: ys, hx, hy, h => by
    obtain ⟨hx1, hx2⟩ := List.pairwise_cons.1 hx
    obtain ⟨hy1, hy2⟩ := List.pairwise_cons.1 hy
    have hxy : x = y := by
      rcases List.mem_cons.1 ((h x).1 (List.mem_cons_self ..)) with e | hm
      · exact e
      rcases List.mem_cons.1 ((h y).2 (List.mem_cons_self ..)) with e | hm'
      · exact e.symm
      · exact absurd (String.lt_trans (hy1 x hm) (hx1 y hm')) (String.lt_irrefl _)
    subst hxy
    refine congrArg (x :: ·) (ext_mem hx2 hy2 fun z => ⟨fun hz => ?_, fun hz => ?_⟩)
    · rcases List.mem_cons.1 ((h z).1 (List.mem_cons_of_mem _ hz)) with rfl | hm
      · exact absurd (hx1 _ hz) (String.lt_irrefl _)
      · exact hm
    · rcases List.mem_cons.1 ((h z).2 (List.mem_cons_of_mem _ hz)) with rfl | hm
      · exact absurd (hy1 _ hz) (String.lt_irrefl _)
      · exact hm

end Ascending

/-! ## Sets -/

/-- A finite set of names, listed in ascending order. -/
structure NameSet where
  toList : List String
  sorted : toList.Pairwise (· < ·)
deriving DecidableEq

namespace NameSet

instance instMembership : Membership String NameSet := ⟨fun s x => x ∈ s.toList⟩

instance decidableMem (x : String) (s : NameSet) : Decidable (x ∈ s) := inferInstanceAs (Decidable (x ∈ s.toList))

def empty : NameSet := ⟨[], List.Pairwise.nil⟩

def singleton (x : String) : NameSet := ⟨[x], List.pairwise_singleton _ x⟩

def insert (s : NameSet) (x : String) : NameSet := ⟨Ascending.insert x s.toList, Ascending.pairwise_insert x s.sorted⟩

def union (s t : NameSet) : NameSet := t.toList.foldl insert s

def ofList (xs : List String) : NameSet := xs.foldl insert empty

def size (s : NameSet) : Nat := s.toList.length

/-- How many names two sets share. -/
def sharedCount (s t : NameSet) : Nat := s.toList.countP (fun x => decide (x ∈ t))

theorem toList_injective {s t : NameSet} (h : s.toList = t.toList) : s = t := by
  cases s; cases t; cases h; rfl

theorem ext_mem {s t : NameSet} (h : ∀ x, x ∈ s ↔ x ∈ t) : s = t :=
  toList_injective (Ascending.ext_mem s.sorted t.sorted h)

theorem nodup (s : NameSet) : s.toList.Nodup :=
  s.sorted.imp fun h => fun e => String.lt_irrefl _ (e ▸ h : _ < _)

theorem not_mem_empty (x : String) : x ∉ empty := List.not_mem_nil

theorem mem_singleton {x y : String} : y ∈ singleton x ↔ y = x := List.mem_singleton

theorem mem_insert {s : NameSet} {x y : String} : y ∈ s.insert x ↔ y = x ∨ y ∈ s := Ascending.mem_insert

theorem insert_toList_perm {s : NameSet} {x : String} (h : x ∉ s) : (s.insert x).toList.Perm (x :: s.toList) :=
  Ascending.insert_perm h

theorem mem_foldl_insert {y : String} : ∀ {xs : List String} {s : NameSet}, y ∈ xs.foldl insert s ↔ y ∈ s ∨ y ∈ xs
  | [], s => by simp
  | x :: xs, s => by
    rw [List.foldl_cons, mem_foldl_insert, mem_insert, List.mem_cons, or_assoc, or_left_comm]

theorem mem_union {s t : NameSet} {y : String} : y ∈ s.union t ↔ y ∈ s ∨ y ∈ t := mem_foldl_insert

theorem mem_ofList {xs : List String} {y : String} : y ∈ ofList xs ↔ y ∈ xs :=
  mem_foldl_insert.trans (or_iff_right (not_mem_empty y))

end NameSet

end CouplingTree
