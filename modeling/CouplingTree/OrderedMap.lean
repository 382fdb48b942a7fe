/-!
# Maps that remember the order of insertion

`OrderedMap κ β` lists its entries by the first insertion of their keys; `insert` on a key that is there keeps
the key's place and takes the new value.

`keys_insert` : the keys after an insertion; `find?_insert` : the value under a key after an insertion;
`mem_keys_iff` : a key is listed exactly when it has a value.
-/

namespace CouplingTree

variable {κ β : Type}

/-! ## Lists of entries -/

namespace Entries

/-- The value of the first entry under `k`. -/
def find? [DecidableEq κ] (k : κ) : List (κ × β) → Option β
  | [] => none
  | (k', v) :: rest => if k' = k then some v else find? k rest

/-- Replaces the value of the first entry under `k`, or adds an entry at the end. -/
def insert [DecidableEq κ] (k : κ) (v : β) : List (κ × β) → List (κ × β)
  | [] => [(k, v)]
  | (k', v') :: rest => if k' = k then (k', v) :: rest else (k', v') :: insert k v rest

variable [DecidableEq κ]

theorem find?_nil (k : κ) : find? k ([] : List (κ × β)) = none := rfl

theorem find?_cons (k k' : κ) (v : β) (es : List (κ × β)) :
    find? k ((k', v) :: es) = if k' = k then some v else find? k es := rfl

theorem insert_nil (k : κ) (v : β) : insert k v [] = [(k, v)] := rfl

theorem insert_cons (k k' : κ) (v v' : β) (es : List (κ × β)) :
    insert k v ((k', v') :: es) = if k' = k then (k', v) :: es else (k', v') :: insert k v es := rfl

theorem find?_eq_none_iff {k : κ} : ∀ {l : List (κ × β)}, find? k l = none ↔ k ∉ l.map Prod.fst
  | [] => by simp [find?_nil]
  | (k', v) :: rest => by
    rw [find?_cons, List.map_cons, List.mem_cons, not_or]
    by_cases h : k' = k
    · rw [if_pos h]
      exact iff_of_false (Option.some_ne_none v) fun hk => hk.1 h.symm
    · rw [if_neg h, find?_eq_none_iff (l := rest)]
      exact (and_iff_right (Ne.symm h)).symm

theorem mem_of_find? {k : κ} {v : β} : ∀ {es : List (κ × β)}, find? k es = some v → (k, v) ∈ es
  | [], h => by simp [find?_nil] at h
  | (k', v') :: rest, h => by
    by_cases hk : k' = k
    · simp_all [find?_cons]
    · simp only [find?_cons, hk, if_false] at h
      exact List.mem_cons_of_mem _ (mem_of_find? h)

theorem find?_of_mem {k : κ} {v : β} :
    ∀ {es : List (κ × β)}, (es.map Prod.fst).Nodup → (k, v) ∈ es → find? k es = some v
  | (k', v') :: rest, hn, h => by
    simp only [List.map_cons, List.nodup_cons] at hn
    rcases List.mem_cons.1 h with h | h
    · cases h; simp [find?_cons]
    · have hk : k' ≠ k := fun e => hn.1 (e ▸ List.mem_map_of_mem (f := Prod.fst) h)
      simp [find?_cons, hk, find?_of_mem hn.2 h]

theorem map_fst_insert (k : κ) (v : β) : ∀ es : List (κ × β),
    (insert k v es).map Prod.fst =
      if k ∈ es.map Prod.fst then es.map Prod.fst else es.map Prod.fst ++ [k]
  | [] => by simp [insert_nil]
  | (k', v') :: rest => by
    by_cases h : k' = k
    · rw [insert_cons, if_pos h, List.map_cons, List.map_cons, if_pos (List.mem_cons.2 (Or.inl h.symm))]
    · have ih := map_fst_insert k v rest
      by_cases hr : k ∈ rest.map Prod.fst
      · rw [if_pos hr] at ih
        simp only [insert_cons, h, if_false, List.map_cons, ih]
        rw [if_pos (List.mem_cons_of_mem _ hr)]
      · rw [if_neg hr] at ih
        simp only [insert_cons, h, if_false, List.map_cons, ih]
        rw [if_neg (by simp only [List.mem_cons, not_or]; exact ⟨Ne.symm h, hr⟩)]
        rfl

theorem find?_insert (k j : κ) (v : β) : ∀ es : List (κ × β),
    find? j (insert k v es) = if j = k then some v else find? j es
  | [] => by simp only [insert_nil, find?_cons, find?_nil, eq_comm (a := j)]
  | (k', v') :: rest => by
    by_cases h : k' = k
    · by_cases hj : j = k
      · simp [insert_cons, find?_cons, h, hj]
      · simp [insert_cons, find?_cons, h, hj, Ne.symm hj]
    · by_cases hj : k' = j
      · have hjk : j ≠ k := fun e => h (hj.trans e)
        simp [insert_cons, find?_cons, hj, hjk]
      · simp [insert_cons, find?_cons, h, hj, find?_insert k j v rest]

theorem nodup_insert (k : κ) (v : β) {es : List (κ × β)} (h : (es.map Prod.fst).Nodup) :
    ((insert k v es).map Prod.fst).Nodup := by
  rw [map_fst_insert]
  split
  · exact h
  · next hk =>
    refine List.nodup_append.2 ⟨h, by simp, fun a ha b hb e => hk ?_⟩
    rw [List.mem_singleton] at hb
    exact hb ▸ e ▸ ha

end Entries

/-! ## The map -/

/-- Entries with distinct keys, in the order of first insertion. -/
structure OrderedMap (κ β : Type) where
  entries : List (κ × β)
  nodup : (entries.map Prod.fst).Nodup

namespace OrderedMap

def empty : OrderedMap κ β := ⟨[], List.nodup_nil⟩

theorem ext_entries {m m' : OrderedMap κ β} (h : m.entries = m'.entries) : m = m' := by
  cases m; cases m'; cases h; rfl

def keys (m : OrderedMap κ β) : List κ := m.entries.map Prod.fst

def values (m : OrderedMap κ β) : List β := m.entries.map Prod.snd

def size (m : OrderedMap κ β) : Nat := m.entries.length

variable [DecidableEq κ]

def find? (m : OrderedMap κ β) (k : κ) : Option β := Entries.find? k m.entries

def contains (m : OrderedMap κ β) (k : κ) : Bool := (m.find? k).isSome

def insert (m : OrderedMap κ β) (k : κ) (v : β) : OrderedMap κ β :=
  ⟨Entries.insert k v m.entries, Entries.nodup_insert k v m.nodup⟩

/-- Inserts the entries from left to right. -/
def ofList (es : List (κ × β)) : OrderedMap κ β :=
  es.foldl (fun m e => m.insert e.1 e.2) empty

theorem find?_empty (k : κ) : (empty : OrderedMap κ β).find? k = none := rfl

theorem keys_insert (m : OrderedMap κ β) (k : κ) (v : β) :
    (m.insert k v).keys = if k ∈ m.keys then m.keys else m.keys ++ [k] :=
  Entries.map_fst_insert k v m.entries

theorem find?_insert (m : OrderedMap κ β) (k j : κ) (v : β) :
    (m.insert k v).find? j = if j = k then some v else m.find? j :=
  Entries.find?_insert k j v m.entries

theorem mem_keys_iff (m : OrderedMap κ β) (k : κ) : k ∈ m.keys ↔ ∃ v, m.find? k = some v := by
  rw [← Option.ne_none_iff_exists', Ne, find?, Entries.find?_eq_none_iff, Classical.not_not, keys]

theorem find?_eq_some_iff (m : OrderedMap κ β) (k : κ) (v : β) : m.find? k = some v ↔ (k, v) ∈ m.entries :=
  ⟨Entries.mem_of_find?, Entries.find?_of_mem m.nodup⟩

end OrderedMap

end CouplingTree
