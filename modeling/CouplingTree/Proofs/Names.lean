import Mathlib.Data.List.Induction
import Mathlib.Data.List.Pairwise
import Mathlib.Data.List.Perm.Basic
import CouplingTree.OrderedMap
import CouplingTree.NameSet

/-!
# Counting names

How often a name occurs in lists, how many names there are in a union, and which keys a list of entries leaves in a map.

* `count_flatMap_of_nodup` : a name occurs in lists without repetition as often as lists have it.
* `NameSet.eq_of_shared` : of sets that share no name, one has a given name at most.
* `NameSet.union_perm` : the union of two sets that share no name lists the names of both.
* `eraseDups_append_singleton` : of names without repetition, one more stands last, if it is new.
* `eraseDups_append_of_subset` : names that are there already add nothing.
* `OrderedMap.keys_ofList` : the keys are those of the entries in order of first occurrence.
* `OrderedMap.entries_ofList` : entries under different keys stay as they are.
* `OrderedMap.mapValues` : a map with other values under the same keys, which is looked up and filled like the first.
-/

namespace CouplingTree

theorem count_flatMap_of_nodup {β : Type} {f : β → List String} (x : String) :
    ∀ {l : List β}, (∀ b ∈ l, (f b).Nodup) → (l.flatMap f).count x = l.countP fun b => decide (x ∈ f b)
  | [], _ => rfl
  | b :: l, h => by
    obtain ⟨hb, hl⟩ := List.forall_mem_cons.1 h
    rw [List.flatMap_cons, List.count_append, count_flatMap_of_nodup x hl, List.countP_cons, hb.count, Nat.add_comm]
    simp only [decide_eq_true_eq]

/-! ## Sets -/

namespace NameSet

/-- The sets share no name. -/
def Apart (s t : NameSet) : Prop := ∀ x ∈ s, x ∉ t

theorem Apart.symm {s t : NameSet} (h : Apart s t) : Apart t s := fun x hx hx' => h x hx' hx

theorem apart_iff {s t : NameSet} : Apart s t ↔ s.toList.Disjoint t.toList :=
  ⟨fun h _ hs ht => h _ hs ht, fun h _ hs ht => h hs ht⟩

/-- Among sets that share no name, one has a given name at most. -/
theorem eq_of_shared {β : Type} {f : β → NameSet} {bs : List β} {a b : β} {x : String}
    (h : bs.Pairwise fun a b => (f a).Apart (f b)) (ha : a ∈ bs) (hb : b ∈ bs) (hx : x ∈ f a) (hx' : x ∈ f b) : a = b := by
  by_contra hne
  have : Std.Symm fun a b => (f a).Apart (f b) := ⟨fun _ _ => Apart.symm⟩
  exact h.forall ha hb hne x hx hx'

theorem foldl_insert_perm : ∀ {xs : List String} {s : NameSet}, xs.Nodup → (∀ x ∈ xs, x ∉ s) →
    (xs.foldl insert s).toList.Perm (s.toList ++ xs)
  | [], s, _, _ => by simp
  | x :: xs, s, hn, hs => by
    obtain ⟨hx, hn⟩ := List.nodup_cons.1 hn
    have hrest : ∀ y ∈ xs, y ∉ s.insert x := fun y hy h => by
      rcases mem_insert.1 h with rfl | h
      · exact hx hy
      · exact hs y (List.mem_cons_of_mem _ hy) h
    refine (foldl_insert_perm hn hrest).trans ?_
    refine ((insert_toList_perm (hs x (List.mem_cons_self ..))).append_right xs).trans ?_
    exact List.perm_middle.symm

theorem union_perm {s t : NameSet} (h : Apart s t) : (s.union t).toList.Perm (s.toList ++ t.toList) :=
  foldl_insert_perm t.nodup h.symm

end NameSet

/-! ## Maps -/

theorem eraseDups_append_singleton {κ : Type} [DecidableEq κ] (l : List κ) (k : κ) :
    (l ++ [k]).eraseDups = if k ∈ l then l.eraseDups else l.eraseDups ++ [k] := by
  rw [List.eraseDups_append]
  split
  · next h => simp [List.removeAll, h]
  · next h => simp [List.removeAll, h, List.eraseDups_cons]

theorem eraseDups_of_nodup {κ : Type} [DecidableEq κ] {l : List κ} (h : l.Nodup) : l.eraseDups = l := by
  induction l using List.reverseRecOn with
  | nil => rfl
  | append_singleton l k ih =>
    obtain ⟨hl, -, hk⟩ := List.nodup_append.1 h
    have hk : k ∉ l := fun hm => hk k hm k (List.mem_singleton_self k) rfl
    rw [eraseDups_append_singleton, if_neg hk, ih hl]

theorem eraseDups_append_of_subset {κ : Type} [DecidableEq κ] {l m : List κ} (h : ∀ k ∈ m, k ∈ l) :
    (l ++ m).eraseDups = l.eraseDups := by
  have hm : m.removeAll l = [] := List.filter_eq_nil_iff.2 fun k hk => by simp [h k hk]
  rw [List.eraseDups_append, hm, List.eraseDups_nil, List.append_nil]

namespace OrderedMap

variable {κ β : Type} [DecidableEq κ]

theorem ofList_append (es : List (κ × β)) (e : κ × β) : ofList (es ++ [e]) = (ofList es).insert e.1 e.2 := by
  rw [ofList, List.foldl_append]
  rfl

theorem keys_ofList (es : List (κ × β)) : (ofList es).keys = (es.map Prod.fst).eraseDups := by
  induction es using List.reverseRecOn with
  | nil => rfl
  | append_singleton es e ih =>
    rw [ofList_append, keys_insert, ih, List.map_append, List.map_singleton, eraseDups_append_singleton]
    exact if_congr List.mem_eraseDups rfl rfl

end OrderedMap

namespace Entries

variable {κ β γ : Type} [DecidableEq κ]

theorem insert_of_not_mem {k : κ} (v : β) : ∀ {es : List (κ × β)}, k ∉ es.map Prod.fst → insert k v es = es ++ [(k, v)]
  | [], _ => rfl
  | e :: es, h => by
    rw [List.map_cons, List.mem_cons, not_or] at h
    rw [insert_cons, if_neg (Ne.symm h.1), insert_of_not_mem v h.2, List.cons_append]

theorem insert_of_find? {k : κ} {v : β} : ∀ {es : List (κ × β)}, find? k es = some v → insert k v es = es
  | [], h => by cases h
  | (k', v') :: es, h => by
    rw [find?_cons] at h
    rw [insert_cons]
    split at h
    · next hk =>
      cases h
      rw [if_pos hk, hk]
    · next hk => rw [if_neg hk, insert_of_find? h]

theorem insert_insert (k : κ) (v v' : β) : ∀ es : List (κ × β), insert k v (insert k v' es) = insert k v es
  | [] => by rw [insert_nil, insert_nil, insert_cons, if_pos rfl]
  | e :: es => by
    by_cases h : e.1 = k
    · rw [insert_cons, if_pos h, insert_cons, if_pos h, insert_cons, if_pos h]
    · rw [insert_cons, if_neg h, insert_cons, if_neg h, insert_insert k v v' es, insert_cons, if_neg h]

theorem find?_map_snd (f : β → γ) (k : κ) : ∀ es : List (κ × β),
    find? k (es.map fun e => (e.1, f e.2)) = (find? k es).map f
  | [] => rfl
  | e :: es => by
    rw [List.map_cons, find?_cons, find?_cons, find?_map_snd f k es]
    split <;> rfl

theorem insert_map_snd (f : β → γ) (k : κ) (v : β) : ∀ es : List (κ × β),
    insert k (f v) (es.map fun e => (e.1, f e.2)) = (insert k v es).map fun e => (e.1, f e.2)
  | [] => rfl
  | e :: es => by
    rw [List.map_cons, insert_cons, insert_cons, insert_map_snd f k v es]
    split <;> rfl

end Entries

theorem OrderedMap.entries_ofList {κ β : Type} [DecidableEq κ] {es : List (κ × β)} (h : (es.map Prod.fst).Nodup) :
    (ofList es).entries = es := by
  induction es using List.reverseRecOn with
  | nil => rfl
  | append_singleton es e ih =>
    rw [List.map_append, List.nodup_append] at h
    have he : e.1 ∉ es.map Prod.fst := fun hm => h.2.2 _ hm _ (List.mem_singleton_self _) rfl
    rw [ofList_append]
    change Entries.insert e.1 e.2 (ofList es).entries = es ++ [e]
    rw [ih h.1, Entries.insert_of_not_mem e.2 he]

/-! ## Other values under the same keys -/

namespace OrderedMap

variable {κ β γ : Type}

def mapValues (f : β → γ) (m : OrderedMap κ β) : OrderedMap κ γ where
  entries := m.entries.map fun e => (e.1, f e.2)
  nodup := by
    rw [List.map_map]
    exact m.nodup

theorem keys_mapValues (f : β → γ) (m : OrderedMap κ β) : (m.mapValues f).keys = m.keys := by
  rw [keys, mapValues, List.map_map]
  rfl

variable [DecidableEq κ]

theorem find?_mapValues (f : β → γ) (m : OrderedMap κ β) (k : κ) : (m.mapValues f).find? k = (m.find? k).map f :=
  Entries.find?_map_snd f k m.entries

theorem mapValues_insert (f : β → γ) (m : OrderedMap κ β) (k : κ) (v : β) :
    (m.insert k v).mapValues f = (m.mapValues f).insert k (f v) :=
  ext_entries (Entries.insert_map_snd f k v m.entries).symm

theorem insert_of_find? {m : OrderedMap κ β} {k : κ} {v : β} (h : m.find? k = some v) : m.insert k v = m :=
  ext_entries (Entries.insert_of_find? h)

theorem insert_insert (m : OrderedMap κ β) (k : κ) (v v' : β) : (m.insert k v').insert k v = m.insert k v :=
  ext_entries (Entries.insert_insert k v v' m.entries)

theorem contains_iff (m : OrderedMap κ β) (k : κ) : m.contains k = true ↔ k ∈ m.keys := by
  rw [contains, Option.isSome_iff_exists, mem_keys_iff]

end OrderedMap

end CouplingTree
