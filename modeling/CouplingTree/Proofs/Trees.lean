import Mathlib.Data.List.Basic
import Mathlib.Data.List.Perm.Basic
import Mathlib.Logic.Relation
import CouplingTree.Clustering.Walk

/-!
# Trees that grow from their parts

`BinaryTree β` has an item at each node. `BinaryTree.grow parts depth x` is the tree below `x` where `parts` says which two
items an item leads to, cut off after `depth` levels.

* `BinaryTree.subtrees` : the trees in a tree, of which `BinaryTree.preorder` lists the items.
* `BinaryTree.map_grow` : where two ways to take items apart agree, the same tree grows.
* `Walk.visits_eq` : a stack visits the trees below its items one after the other, each item before those below it.

`Walk.Pops parts stack items` says that work on a stack comes to an end, and which items it takes off on the way. It knows no
bound on the levels; `BinaryTree.Complete parts t` says that a tree is not cut off by one.

* `Walk.Pops.mem_iff` : what is taken off is what the items on the stack lead to.
* `Walk.Pops.perm` : everything that is taken off was on the stack before, or is a part of one thing that is taken off.
* `Walk.pops_iff_visits` : if the trees below the items are complete, a walk takes off what the stack does.
* `BinaryTree.complete_grow` : a tree is complete if it is once its items are replaced.
* `BinaryTree.Complete.filter_preorder` : the leaves of a complete tree are its items without parts.
-/

namespace CouplingTree

/-- A binary tree with an item at each node. -/
inductive BinaryTree (β : Type)
  | leaf (item : β)
  | node (item : β) (left right : BinaryTree β)
deriving DecidableEq, Repr

variable {β γ : Type}

namespace BinaryTree

/-- All items, each before those below it, and those on the left before those on the right. -/
def preorder : BinaryTree β → List β
  | leaf x => [x]
  | node x left right => x :: (left.preorder ++ right.preorder)

/-- The items of the leaves from left to right. -/
def leaves : BinaryTree β → List β
  | leaf x => [x]
  | node _ left right => left.leaves ++ right.leaves

/-- The item on top. -/
def item : BinaryTree β → β
  | leaf x => x
  | node x _ _ => x

/-- The tree and all trees in it, in the order of their items. -/
def subtrees : BinaryTree β → List (BinaryTree β)
  | leaf x => [leaf x]
  | node x left right => node x left right :: (left.subtrees ++ right.subtrees)

def map (f : β → γ) : BinaryTree β → BinaryTree γ
  | leaf x => leaf (f x)
  | node x left right => node (f x) (left.map f) (right.map f)

theorem item_map (f : β → γ) (t : BinaryTree β) : (t.map f).item = f t.item := by
  cases t <;> rfl

theorem item_mem_preorder (t : BinaryTree β) : t.item ∈ t.preorder := by
  cases t <;> exact List.mem_cons_self ..

theorem leaves_map (f : β → γ) (t : BinaryTree β) : (t.map f).leaves = t.leaves.map f := by
  induction t with
  | leaf x => rfl
  | node x left right hl hr => rw [map, leaves, leaves, hl, hr, List.map_append]

theorem preorder_map (f : β → γ) (t : BinaryTree β) : (t.map f).preorder = t.preorder.map f := by
  induction t with
  | leaf x => rfl
  | node x left right hl hr => rw [map, preorder, preorder, hl, hr, List.map_cons, List.map_append]

theorem subtrees_map (f : β → γ) (t : BinaryTree β) : (t.map f).subtrees = t.subtrees.map (map f) := by
  induction t with
  | leaf x => rfl
  | node x left right hl hr => rw [map, subtrees, subtrees, hl, hr, List.map_cons, List.map_append, map]

theorem preorder_sublist {s t : BinaryTree β} (h : s ∈ t.subtrees) : s.preorder.Sublist t.preorder := by
  induction t with
  | leaf x => rw [List.mem_singleton.1 h]
  | node x left right hl hr =>
    rcases List.mem_cons.1 h with rfl | h
    · exact List.Sublist.refl _
    · refine List.Sublist.cons x ?_
      rcases List.mem_append.1 h with h | h
      · exact (hl h).trans (List.sublist_append_left _ _)
      · exact (hr h).trans (List.sublist_append_right _ _)

/-- A tree with so many leaves forks at one place less. -/
theorem length_preorder (t : BinaryTree β) : t.preorder.length + 1 = 2 * t.leaves.length := by
  induction t with
  | leaf x => rfl
  | node x left right hl hr =>
    rw [preorder, leaves, List.length_cons, List.length_append, List.length_append]
    omega

/-! ## Growing -/

/-- The tree below an item, of so many levels at most. -/
def grow (parts : β → Option (β × β)) : Nat → β → BinaryTree β
  | 0, x => leaf x
  | depth + 1, x =>
    match parts x with
    | none => leaf x
    | some (left, right) => node x (grow parts depth left) (grow parts depth right)

variable {parts : β → Option (β × β)} {parts' : γ → Option (γ × γ)} {x left right : β}

theorem grow_of_none (h : parts x = none) (depth : Nat) : grow parts depth x = leaf x := by
  cases depth with
  | zero => rfl
  | succ depth => rw [grow, h]

theorem grow_of_some (h : parts x = some (left, right)) (depth : Nat) :
    grow parts (depth + 1) x = node x (grow parts depth left) (grow parts depth right) := by
  rw [grow, h]

theorem item_grow (parts : β → Option (β × β)) (depth : Nat) (x : β) : (grow parts depth x).item = x := by
  cases depth with
  | zero => rfl
  | succ depth =>
    rw [grow]
    split <;> rfl

/-- What an item leads to need only agree for the items that are met. -/
theorem map_grow {P : β → Prop} {f : β → γ} (hparts : ∀ x, P x → parts' (f x) = (parts x).map (Prod.map f f))
    (hP : ∀ x left right, P x → parts x = some (left, right) → P left ∧ P right) {depth : Nat} (hx : P x) :
    (grow parts depth x).map f = grow parts' depth (f x) := by
  induction depth generalizing x with
  | zero => rfl
  | succ depth ih =>
    have hfx := hparts x hx
    cases h : parts x with
    | none =>
      rw [h] at hfx
      rw [grow_of_none h, grow_of_none hfx, map]
    | some p =>
      obtain ⟨left, right⟩ := p
      obtain ⟨hl, hr⟩ := hP x left right hx h
      rw [h] at hfx
      rw [grow_of_some h, grow_of_some hfx, map, ih hl, ih hr]

end BinaryTree

/-! ## Walking -/

namespace Walk

variable (parts : β → Option (β × β))

theorem visits_cons (depth : Nat) (x : β) (rest : List (Nat × β)) :
    visits parts ((depth, x) :: rest) = (BinaryTree.grow parts depth x).preorder ++ visits parts rest := by
  induction depth generalizing x rest with
  | zero => rw [visits, BinaryTree.grow, BinaryTree.preorder, List.singleton_append]
  | succ depth ih =>
    rw [visits, BinaryTree.grow]
    cases parts x with
    | none => rfl
    | some p => simp only [ih, BinaryTree.preorder, List.cons_append, List.append_assoc]

theorem visits_eq (stack : List (Nat × β)) :
    visits parts stack = stack.flatMap fun p => (BinaryTree.grow parts p.1 p.2).preorder := by
  induction stack with
  | nil => rw [visits, List.flatMap_nil]
  | cons p stack ih => rw [visits_cons, ih, List.flatMap_cons]

end Walk

/-! ## Stacks that are worked off -/

variable {parts : β → Option (β × β)} {parts' : γ → Option (γ × γ)} {x y left right : β} {stack rest items items' : List β}

namespace Walk

/-- The parts of an item. -/
def next (parts : β → Option (β × β)) (x : β) : List β :=
  match parts x with
  | none => []
  | some (left, right) => [left, right]

theorem next_of_none (h : parts x = none) : next parts x = [] := by
  rw [next, h]

theorem next_of_some (h : parts x = some (left, right)) : next parts x = [left, right] := by
  rw [next, h]

/-- The second item is the first one or below it. -/
def Below (parts : β → Option (β × β)) : β → β → Prop := Relation.ReflTransGen fun x y => y ∈ next parts x

theorem below_iff : Below parts x y ↔ x = y ∨ ∃ z ∈ next parts x, Below parts z y := Relation.ReflTransGen.cases_head_iff

/-- Work on a stack takes these items off, one after the other, before it ends with the empty stack. The parts of an item
take its place, the left one on top. -/
inductive Pops (parts : β → Option (β × β)) : List β → List β → Prop
  | done : Pops parts [] []
  | leaf {x : β} {rest items : List β} (hparts : parts x = none) (h : Pops parts rest items) :
      Pops parts (x :: rest) (x :: items)
  | fork {x left right : β} {rest items : List β} (hparts : parts x = some (left, right))
      (h : Pops parts (left :: right :: rest) items) : Pops parts (x :: rest) (x :: items)

namespace Pops

/-- Each step is determined by the item on top. -/
theorem unique (h : Pops parts stack items) (h' : Pops parts stack items') : items = items' := by
  induction h generalizing items' with
  | done =>
    cases h'
    rfl
  | leaf hparts _ ih =>
    cases h' with
    | leaf _ h' => rw [ih h']
    | fork hparts' _ => cases hparts.symm.trans hparts'
  | fork hparts _ ih =>
    cases h' with
    | leaf hparts' _ => cases hparts.symm.trans hparts'
    | fork hparts' h' =>
      cases hparts.symm.trans hparts'
      rw [ih h']

theorem mem_iff (h : Pops parts stack items) : y ∈ items ↔ ∃ x ∈ stack, Below parts x y := by
  induction h with
  | done => simp
  | @leaf x rest items hparts h ih =>
    have hx : Below parts x y ↔ y = x := by
      rw [below_iff, next_of_none hparts]
      simp [eq_comm]
    rw [List.mem_cons, List.exists_mem_cons_iff, hx, ih]
  | @fork x left right rest items hparts h ih =>
    have hx : Below parts x y ↔ y = x ∨ Below parts left y ∨ Below parts right y := by
      rw [below_iff, next_of_some hparts]
      simp [eq_comm]
    rw [List.mem_cons, List.exists_mem_cons_iff, hx, ih, List.exists_mem_cons_iff, List.exists_mem_cons_iff]
    simp only [or_assoc]

theorem perm (h : Pops parts stack items) : (stack ++ items.flatMap (next parts)).Perm items := by
  induction h with
  | done => exact List.Perm.refl []
  | leaf hparts _ ih =>
    rw [List.flatMap_cons, next_of_none hparts, List.nil_append, List.cons_append]
    exact ih.cons _
  | @fork x left right rest items hparts _ ih =>
    rw [List.flatMap_cons, next_of_some hparts, List.cons_append]
    refine List.Perm.cons x (List.Perm.trans ?_ ih)
    rw [← List.append_assoc]
    exact List.perm_append_comm.append_right _

end Pops

end Walk

/-! ## Complete trees -/

namespace BinaryTree

open Walk

/-- Each item has its parts right below it, and those of the leaves have none. -/
inductive Complete (parts : β → Option (β × β)) : BinaryTree β → Prop
  | leaf {x : β} (hparts : parts x = none) : Complete parts (leaf x)
  | node {x : β} {left right : BinaryTree β} (hparts : parts x = some (left.item, right.item))
      (hleft : Complete parts left) (hright : Complete parts right) : Complete parts (node x left right)

variable {t : BinaryTree β}

theorem Complete.filter_preorder (h : t.Complete parts) :
    (t.preorder.filter fun x => (parts x).isNone) = t.leaves := by
  induction h with
  | leaf hparts => rw [preorder, leaves, List.filter_cons_of_pos (by rw [hparts]; rfl), List.filter_nil]
  | node hparts _ _ hl hr =>
    rw [preorder, leaves, List.filter_cons_of_neg (by rw [hparts]; exact Bool.false_ne_true), List.filter_append, hl, hr]

/-- Where two ways to take items apart agree, a tree is cut off by the one where it is by the other. -/
theorem complete_grow {f : β → γ} (hparts : ∀ x, parts' (f x) = (parts x).map (Prod.map f f)) {depth : Nat}
    (h : (grow parts' depth (f x)).Complete parts') : (grow parts depth x).Complete parts := by
  induction depth generalizing x with
  | zero =>
    cases h with
    | leaf hnone =>
      rw [hparts] at hnone
      exact .leaf (Option.map_eq_none_iff.1 hnone)
  | succ depth ih =>
    have hfx := hparts x
    cases hx : parts x with
    | none =>
      rw [grow_of_none hx]
      exact .leaf hx
    | some p =>
      obtain ⟨left, right⟩ := p
      rw [hx] at hfx
      rw [grow_of_some hfx] at h
      cases h with
      | node _ hleft hright =>
        rw [grow_of_some hx]
        refine .node ?_ (ih hleft) (ih hright)
        rw [item_grow, item_grow, hx]

/-- A complete tree on top of a stack is taken off item by item. -/
theorem Complete.pops (h : t.Complete parts) (hrest : Pops parts rest items) :
    Pops parts (t.item :: rest) (t.preorder ++ items) := by
  induction h generalizing rest items with
  | leaf hparts => exact .leaf hparts hrest
  | node hparts _ _ hl hr =>
    rw [preorder, List.cons_append, List.append_assoc]
    exact .fork hparts (hl (hr hrest))

end BinaryTree

namespace Walk

open CouplingTree.BinaryTree

theorem pops_visits {depth : Nat} (h : ∀ x ∈ stack, (grow parts depth x).Complete parts) :
    Pops parts stack (visits parts (stack.map fun x => (depth, x))) := by
  induction stack with
  | nil =>
    rw [visits_eq]
    exact .done
  | cons x stack ih =>
    obtain ⟨hx, hstack⟩ := List.forall_mem_cons.1 h
    have hpops := hx.pops (ih hstack)
    rw [item_grow] at hpops
    rwa [List.map_cons, visits_cons]

theorem pops_iff_visits {depth : Nat} (h : ∀ x ∈ stack, (grow parts depth x).Complete parts) :
    Pops parts stack items ↔ items = visits parts (stack.map fun x => (depth, x)) :=
  ⟨fun hpops => hpops.unique (pops_visits h), fun heq => heq ▸ pops_visits h⟩

end Walk

end CouplingTree
