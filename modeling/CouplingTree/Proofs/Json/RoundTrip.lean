import CouplingTree.Proofs.Json.Numbers
import CouplingTree.Proofs.Json.Strings
import CouplingTree.Proofs.Names

/-!
# Values come back

A value that fits the limits of the reader is read from its indented text. The text of a value is read in front of whatever
ends a numeral, with more fuel than it has characters, and what is read is the value.

* `Json.Fits` : the limits, and that no key comes twice.
* `readValue_plain` : values without parts are read.
* `readValue_indented`, `readItems_indented`, `readFields_indented` : values with parts are read, part by part.
* `read_indented` : the indented text of a value is read as this value.
-/

namespace CouplingTree.Json

open Numeral

/-! ## Limits -/

mutual

/-- At most `depth` lists and objects are inside each other, no object has a key twice, and no integer has more digits
than are converted. -/
def Fits (depth : Nat) : Json → Prop
  | .int i => (Nat.toDigits 10 i.natAbs).length ≤ digitLimit
  | .list items => 0 < depth ∧ AllFit (depth - 1) items
  | .object fields => 0 < depth ∧ (fields.map Prod.fst).Nodup ∧ FieldsFit (depth - 1) fields
  | _ => True

def AllFit (depth : Nat) : List Json → Prop
  | [] => True
  | v :: rest => v.Fits depth ∧ AllFit depth rest

def FieldsFit (depth : Nat) : List (String × Json) → Prop
  | [] => True
  | (_, v) :: rest => v.Fits depth ∧ FieldsFit depth rest

end

theorem allFit_iff {depth : Nat} : ∀ {vs : List Json}, AllFit depth vs ↔ ∀ v ∈ vs, v.Fits depth
  | [] => by simp [AllFit]
  | v :: vs => by rw [AllFit, allFit_iff, List.forall_mem_cons]

/-! ## Values without parts -/

variable {depth fuel level : Nat} {cs rest : List Char}

theorem readValue_text (s : String) : readValue depth (fuel + 1) (stringText s ++ rest) = .ok (.text s, rest) := by
  rw [stringText_append, readValue, readString_escaped]
  rfl

/-- Values without parts are read from their texts. -/
theorem readValue_plain : ∀ {v : Json}, v.Fits depth → Ends rest → (∀ items, v ≠ .list items) → (∀ fields, v ≠ .object fields) →
    readValue depth (fuel + 1) (plainText v ++ rest) = .ok (v, rest)
  | .null, _, _, _, _ => rfl
  | .bool true, _, _, _, _ => rfl
  | .bool false, _, _, _, _ => rfl
  | .int i, h, hrest, _, _ => readValue_intText depth fuel i h hrest
  | .double x, _, hrest, _, _ => readValue_doubleText depth fuel x hrest
  | .text s, _, _, _, _ => readValue_text s
  | .list items, _, _, hlist, _ => absurd rfl (hlist items)
  | .object fields, _, _, _, hobject => absurd rfl (hobject fields)

/-! ## Blanks -/

theorem readNumber_of_no_digit {c : Char} (hdigit : c.isDigit = false) (hminus : c ≠ '-') :
    readNumber (c :: rest) = stopAt .expectingValue (c :: rest) := by
  have hread : readMinus (c :: rest) = (false, c :: rest) := by
    rw [readMinus]
    rintro _ ⟨⟩
    exact hminus rfl
  have hwhole : readWholePart (c :: rest) = ([], c :: rest) := by
    rw [readWholePart]
    · exact readDigits_append (fun _ h => absurd h List.not_mem_nil) (noDigit_cons hdigit)
    · rintro _ ⟨⟩
      exact absurd hdigit (by decide)
  unfold readNumber
  simp only [hread, hwhole]
  rfl

/-- Whether a value can begin with a character. -/
def startsValue (c : Char) : Bool := c.isDigit || c ∈ ['"', '[', '\x7b', 'n', 't', 'f', 'N', 'I', '-']

theorem ne_of_startsValue {c d : Char} (hc : startsValue c = true) (hd : startsValue d = false) : c ≠ d := by
  rintro rfl
  exact Bool.false_ne_true (hd.symm.trans hc)

theorem isBlank_of_startsValue {c : Char} (hc : startsValue c = true) : isBlank c = false := by
  have hne : c ≠ ' ' ∧ c ≠ '\t' ∧ c ≠ '\n' ∧ c ≠ '\r' :=
    ⟨ne_of_startsValue hc rfl, ne_of_startsValue hc rfl, ne_of_startsValue hc rfl, ne_of_startsValue hc rfl⟩
  simp [isBlank, hne]

/-- Of what begins otherwise than a value nothing is read. -/
theorem head_of_readValue {p : Json × List Char} (h : readValue depth fuel cs = .ok p) :
    ∃ c t, cs = c :: t ∧ startsValue c = true := by
  cases fuel with
  | zero => cases h
  | succ fuel =>
    cases cs with
    | nil => cases h
    | cons c t =>
      refine ⟨c, t, rfl, ?_⟩
      by_contra hc
      rw [startsValue, Bool.or_eq_true, not_or, decide_eq_true_eq] at hc
      have hne : ∀ d ∈ ['"', '[', '\x7b', 'n', 't', 'f', 'N', 'I', '-'], c ≠ d := fun d hd hcd => hc.2 (hcd ▸ hd)
      simp only [List.forall_mem_cons] at hne
      have hstop : readValue depth (fuel + 1) (c :: t) = readNumber (c :: t) := by
        rw [readValue, readPlain]
        all_goals simp [hne]
      rw [hstop, readNumber_of_no_digit (by simpa using hc.1) hne.2.2.2.2.2.2.2.2.1] at h
      cases h

theorem skipBlanks_newLine (h : ∃ c t, cs = c :: t ∧ isBlank c = false) : skipBlanks (newLine level ++ cs) = cs := by
  obtain ⟨c, t, rfl, hc⟩ := h
  have hline : ∀ d ∈ newLine level, isBlank d = true := fun d hd => by
    rcases List.mem_cons.1 hd with rfl | hd
    · rfl
    · rw [List.eq_of_mem_replicate hd]
      rfl
  rw [skipBlanks, List.dropWhile_append_of_pos hline, List.dropWhile_cons_of_neg (by simp [hc])]

theorem skipBlanks_space (h : ∃ c t, cs = c :: t ∧ isBlank c = false) : skipBlanks (' ' :: cs) = cs := by
  obtain ⟨c, t, rfl, hc⟩ := h
  rw [skipBlanks, List.dropWhile_cons_of_pos rfl, List.dropWhile_cons_of_neg (by simp [hc])]

theorem skipBlanks_of_not {c : Char} (h : isBlank c = false) : skipBlanks (c :: cs) = c :: cs :=
  List.dropWhile_cons_of_neg (by simp [h])

/-! ## Values with parts -/

theorem ends_cons {c : Char} (h : c.isDigit = false ∧ c ≠ '.' ∧ c ≠ 'e' ∧ c ≠ 'E') : Ends (c :: rest) := fun _ hd =>
  Option.some.inj hd ▸ h

theorem ends_indentedItems (level : Nat) (items : List Json) : Ends (indentedItems level items ++ rest) := by
  cases items with
  | nil => exact ends_cons (by decide)
  | cons v items => exact ends_cons (by decide)

theorem ends_indentedFields (level : Nat) (fields : List (String × Json)) : Ends (indentedFields level fields ++ rest) := by
  rcases fields with - | ⟨⟨k, v⟩, fields⟩
  · exact ends_cons (by decide)
  · exact ends_cons (by decide)

theorem ofEntries_of_nodup {fields : List (String × Json)} (h : (fields.map Prod.fst).Nodup) :
    ofEntries fields = .object fields := by
  have hfold : fields.foldl (fun fs e => Entries.insert e.1 e.2 fs) (OrderedMap.entries OrderedMap.empty) =
      (OrderedMap.ofList fields).entries := List.foldl_hom OrderedMap.entries fun _ _ => rfl
  rw [OrderedMap.entries_ofList h] at hfold
  exact congrArg object hfold

section Steps

variable {k : String} {v : Json} {items : List Json} {fields : List (String × Json)} {more tail : List Char}

theorem readItems_last (h : readValue depth fuel cs = .ok (v, rest)) (hrest : skipBlanks rest = ']' :: tail) :
    readItems depth (fuel + 1) cs = .ok ([v], tail) := by
  rw [readItems, h]
  simp only [bind, Except.bind, hrest]

theorem readItems_more (h : readValue depth fuel cs = .ok (v, rest)) (hrest : skipBlanks rest = ',' :: more)
    (hmore : readItems depth fuel (skipBlanks more) = .ok (items, tail)) :
    readItems depth (fuel + 1) cs = .ok (v :: items, tail) := by
  rw [readItems, h]
  simp only [bind, Except.bind, hrest, hmore]

theorem readFields_last (h : readValue depth fuel (skipBlanks cs) = .ok (v, rest)) (hrest : skipBlanks rest = '\x7d' :: tail) :
    readFields depth (fuel + 1) (stringText k ++ ':' :: cs) = .ok ([(k, v)], tail) := by
  have hcolon : skipBlanks (':' :: cs) = ':' :: cs := skipBlanks_of_not rfl
  rw [stringText_append, readFields, readString_escaped]
  simp only [bind, Except.bind, hcolon, h, hrest]

theorem readFields_more (h : readValue depth fuel (skipBlanks cs) = .ok (v, rest)) (hrest : skipBlanks rest = ',' :: more)
    (hmore : readFields depth fuel (skipBlanks more) = .ok (fields, tail)) :
    readFields depth (fuel + 1) (stringText k ++ ':' :: cs) = .ok ((k, v) :: fields, tail) := by
  have hcolon : skipBlanks (':' :: cs) = ':' :: cs := skipBlanks_of_not rfl
  rw [stringText_append, readFields, readString_escaped]
  simp only [bind, Except.bind, hcolon, h, hrest, hmore]

theorem head_of_readItems {p : List Json × List Char} (h : readItems depth fuel cs = .ok p) :
    ∃ c t, cs = c :: t ∧ startsValue c = true := by
  cases fuel with
  | zero => cases h
  | succ fuel =>
    rw [readItems] at h
    cases hread : readValue depth fuel cs with
    | error e =>
      rw [hread] at h
      cases h
    | ok q => exact head_of_readValue hread

theorem readValue_list (h : readItems depth fuel (skipBlanks cs) = .ok (items, tail)) :
    readValue (depth + 1) (fuel + 1) ('[' :: cs) = .ok (.list items, tail) := by
  obtain ⟨c, t, hcs, hc⟩ := head_of_readItems h
  rw [readValue]
  split
  · next heq =>
    rw [hcs] at heq
    exact absurd (List.cons.inj heq).1 (ne_of_startsValue hc rfl)
  · rw [h]
    rfl

theorem readValue_object (hfields : (fields.map Prod.fst).Nodup) {t : List Char} (hcs : skipBlanks cs = '"' :: t)
    (h : readFields depth fuel (skipBlanks cs) = .ok (fields, tail)) :
    readValue (depth + 1) (fuel + 1) ('\x7b' :: cs) = .ok (.object fields, tail) := by
  rw [readValue]
  split
  · next heq =>
    rw [hcs] at heq
    cases heq
  · rw [h, Except.map, ofEntries_of_nodup hfields]

end Steps

/-! ## Indented values -/

section Texts

variable (level : Nat) (k : String) (v : Json) (items : List Json) (fields : List (String × Json)) (rest : List Char)

theorem indentedText_list : indentedText level (.list (v :: items)) ++ rest =
    '[' :: (newLine (level + 1) ++ (v.indentedText (level + 1) ++ (indentedItems level items ++ rest))) := by
  simp [indentedText]

theorem indentedText_object : indentedText level (.object ((k, v) :: fields)) ++ rest =
    '\x7b' :: (newLine (level + 1) ++
      (stringText k ++ ':' :: ' ' :: (v.indentedText (level + 1) ++ (indentedFields level fields ++ rest)))) := by
  simp [indentedText]

theorem indentedItems_cons : indentedItems level (v :: items) ++ rest =
    ',' :: (newLine (level + 1) ++ (v.indentedText (level + 1) ++ (indentedItems level items ++ rest))) := by
  simp [indentedItems]

theorem indentedFields_cons : indentedFields level ((k, v) :: fields) ++ rest =
    ',' :: (newLine (level + 1) ++
      (stringText k ++ ':' :: ' ' :: (v.indentedText (level + 1) ++ (indentedFields level fields ++ rest)))) := by
  simp [indentedFields]

theorem skipBlanks_stringText (level : Nat) : skipBlanks (newLine level ++ (stringText k ++ rest)) = stringText k ++ rest :=
  skipBlanks_newLine ⟨'"', _, stringText_append k rest, rfl⟩

end Texts

mutual

/-- The text of a value is read as this value. -/
theorem readValue_indented : ∀ (v : Json) {depth level fuel : Nat} {r : List Char}, v.Fits depth → Ends r →
    (v.indentedText level).length < fuel → readValue depth fuel (v.indentedText level ++ r) = .ok (v, r)
  -- there is more fuel than text, and each call reads some of it
  | _, _, _, 0, _, _, _, hfuel => absurd hfuel (Nat.not_lt_zero _)
  | .list [], 0, _, fuel + 1, _, h, _, _ => absurd h.1 (lt_irrefl 0)
  | .list [], depth + 1, _, fuel + 1, _, _, _, _ => rfl
  | .list (v :: items), 0, _, fuel + 1, _, h, _, _ => absurd h.1 (lt_irrefl 0)
  | .list (v :: items), depth + 1, level, fuel + 1, rest, h, _, hfuel => by
    have hlength : (v.indentedText (level + 1)).length + (indentedItems level items).length < fuel := by
      simp only [indentedText, List.length_append, List.length_cons] at hfuel
      omega
    have hread : readItems depth fuel (v.indentedText (level + 1) ++ (indentedItems level items ++ rest)) =
        .ok (v :: items, rest) := readItems_indented v items h.2.1 h.2.2 hlength
    obtain ⟨c, t, hcs, hc⟩ := head_of_readItems hread
    rw [indentedText_list]
    refine readValue_list ?_
    rwa [skipBlanks_newLine ⟨c, t, hcs, isBlank_of_startsValue hc⟩]
  | .object [], 0, _, fuel + 1, _, h, _, _ => absurd h.1 (lt_irrefl 0)
  | .object [], depth + 1, _, fuel + 1, _, _, _, _ => rfl
  | .object ((k, v) :: fields), 0, _, fuel + 1, _, h, _, _ => absurd h.1 (lt_irrefl 0)
  | .object ((k, v) :: fields), depth + 1, level, fuel + 1, rest, h, _, hfuel => by
    have hlength : (v.indentedText (level + 1)).length + (indentedFields level fields).length < fuel := by
      simp only [indentedText, List.length_append, List.length_cons] at hfuel
      omega
    have hread := readFields_indented k v fields (r := rest) h.2.2.1 h.2.2.2 hlength
    rw [indentedText_object]
    refine readValue_object h.2.1 ((skipBlanks_stringText k _ _).trans (stringText_append k _)) ?_
    rwa [skipBlanks_stringText]
  | .null, _, _, fuel + 1, _, h, hrest, _ => readValue_plain h hrest (fun _ => nofun) fun _ => nofun
  | .bool _, _, _, fuel + 1, _, h, hrest, _ => readValue_plain h hrest (fun _ => nofun) fun _ => nofun
  | .int _, _, _, fuel + 1, _, h, hrest, _ => readValue_plain h hrest (fun _ => nofun) fun _ => nofun
  | .double _, _, _, fuel + 1, _, h, hrest, _ => readValue_plain h hrest (fun _ => nofun) fun _ => nofun
  | .text _, _, _, fuel + 1, _, h, hrest, _ => readValue_plain h hrest (fun _ => nofun) fun _ => nofun
termination_by v => sizeOf v

theorem readItems_indented : ∀ (v : Json) (items : List Json) {depth level fuel : Nat} {r : List Char}, v.Fits depth →
    AllFit depth items → (v.indentedText (level + 1)).length + (indentedItems level items).length < fuel →
    readItems depth fuel (v.indentedText (level + 1) ++ (indentedItems level items ++ r)) = .ok (v :: items, r)
  | _, _, _, _, 0, _, _, _, hfuel => absurd hfuel (Nat.not_lt_zero _)
  | v, [], depth, level, fuel + 1, r, hv, _, hfuel => by
    have hlength : (v.indentedText (level + 1)).length < fuel := by
      simp only [indentedItems, newLine, List.length_append, List.length_cons] at hfuel
      omega
    refine readItems_last (readValue_indented v hv (ends_indentedItems level []) hlength) ?_
    rw [indentedItems, List.append_assoc]
    exact skipBlanks_newLine ⟨']', r, rfl, rfl⟩
  | v, w :: items, depth, level, fuel + 1, r, hv, hitems, hfuel => by
    have hlength : (v.indentedText (level + 1)).length < fuel ∧
        (w.indentedText (level + 1)).length + (indentedItems level items).length < fuel := by
      simp only [indentedItems, List.length_append, List.length_cons] at hfuel
      omega
    have hread := readValue_indented v (r := indentedItems level (w :: items) ++ r) hv (ends_indentedItems level _) hlength.1
    have hmore : readItems depth fuel (w.indentedText (level + 1) ++ (indentedItems level items ++ r)) =
        .ok (w :: items, r) := readItems_indented w items hitems.1 hitems.2 hlength.2
    obtain ⟨c, t, hcs, hc⟩ := head_of_readItems hmore
    rw [indentedItems_cons] at hread ⊢
    refine readItems_more hread (skipBlanks_of_not rfl) ?_
    rwa [skipBlanks_newLine ⟨c, t, hcs, isBlank_of_startsValue hc⟩]
termination_by v items => sizeOf v + sizeOf items

theorem readFields_indented : ∀ (k : String) (v : Json) (fields : List (String × Json)) {depth level fuel : Nat}
    {r : List Char}, v.Fits depth → FieldsFit depth fields →
    (v.indentedText (level + 1)).length + (indentedFields level fields).length < fuel →
    readFields depth fuel (stringText k ++ ':' :: ' ' :: (v.indentedText (level + 1) ++ (indentedFields level fields ++ r))) =
      .ok ((k, v) :: fields, r)
  | _, _, _, _, _, 0, _, _, _, hfuel => absurd hfuel (Nat.not_lt_zero _)
  | k, v, [], depth, level, fuel + 1, r, hv, _, hfuel => by
    have hlength : (v.indentedText (level + 1)).length < fuel := by
      simp only [indentedFields, newLine, List.length_append, List.length_cons] at hfuel
      omega
    have hread := readValue_indented v (r := indentedFields level [] ++ r) hv (ends_indentedFields level []) hlength
    obtain ⟨c, t, hcs, hc⟩ := head_of_readValue hread
    refine readFields_last ((congrArg _ ?_).trans hread) ?_
    · exact skipBlanks_space ⟨c, t, hcs, isBlank_of_startsValue hc⟩
    · rw [indentedFields, List.append_assoc]
      exact skipBlanks_newLine ⟨'\x7d', r, rfl, rfl⟩
  | k, v, (l, w) :: fields, depth, level, fuel + 1, r, hv, hfields, hfuel => by
    have hlength : (v.indentedText (level + 1)).length < fuel ∧
        (w.indentedText (level + 1)).length + (indentedFields level fields).length < fuel := by
      simp only [indentedFields, List.length_append, List.length_cons] at hfuel
      omega
    have hread := readValue_indented v (r := indentedFields level ((l, w) :: fields) ++ r) hv (ends_indentedFields level _)
      hlength.1
    have hmore := readFields_indented l w fields (r := r) hfields.1 hfields.2 hlength.2
    rw [indentedFields_cons] at hread ⊢
    obtain ⟨c, t, hcs, hc⟩ := head_of_readValue hread
    refine readFields_more ((congrArg _ ?_).trans hread) (skipBlanks_of_not rfl) ?_
    · exact skipBlanks_space ⟨c, t, hcs, isBlank_of_startsValue hc⟩
    · rwa [skipBlanks_stringText]
termination_by _ v fields => sizeOf v + sizeOf fields

end

/-- The indented text of a value within the limits is read as this value. -/
theorem readUnmarked_indented {v : Json} (h : v.Fits depth) : readUnmarked depth (v.indentedText 0) = .ok v := by
  have hends : Ends [] := fun _ hc => by cases hc
  have hread : readValue depth (2 * (v.indentedText 0).length + 2) (v.indentedText 0 ++ []) = .ok (v, []) :=
    readValue_indented v h hends (by omega)
  rw [List.append_nil] at hread
  obtain ⟨c, t, hcs, hc⟩ := head_of_readValue hread
  have hmark : (v.indentedText 0).head? ≠ some '\uFEFF' := by
    rw [hcs]
    exact fun hmark => ne_of_startsValue hc rfl (Option.some.inj hmark)
  have hskip : skipBlanks (v.indentedText 0) = v.indentedText 0 := by
    rw [hcs]
    exact skipBlanks_of_not (isBlank_of_startsValue hc)
  have hwhole : readWhole depth (v.indentedText 0) = .ok v := by
    rw [readWhole, hskip, hread]
    rfl
  rw [readUnmarked, if_neg hmark, read, hwhole]
  rfl

end CouplingTree.Json
