import CouplingTree.Proofs.Records

/-!
# Records that are checked

A value is a record when it is an object, has a name, and lists only texts as its methods and as its calls. The checks are
made in this order, and the first one that fails is reported. A list of records is taken as the union of what they tell.

* `Record.Check` : the checks in their order, and what each reports.
* `Record.exists_ofJson_iff`, `Record.ofJson_eq_error_iff` : a record is read when all checks hold, and else the first one
  that fails is reported.
* `CallGraph.extend` : a call graph with one record after another; `CallGraph.ofRecords_append` : more records extend it.
* `CallGraph.Unites` : the names of a call graph come from records; `CallGraph.unites_ofRecords` : so it is made of them.
* `CallGraph.ofRecords_checked` : which lists are taken, what they make, and what the others report.
-/

namespace CouplingTree

namespace Record

/-! ## Checks -/

inductive Check
  | object
  | name
  | names (list : NameList)
deriving DecidableEq

namespace Check

/-- When a check is made. -/
def place : Check → Nat
  | object => 0
  | name => 1
  | names .methods => 2
  | names .calls => 3

def Holds (v : Json) : Check → Prop
  | object => ∃ fields, v = .object fields
  | name => ∃ s, v.field? "name" = some (.text s) ∧ s ≠ ""
  | names list => ∀ items, v.field? list.key = some items → ∃ xs, items = .texts xs

end Check

/-- All checks hold. -/
def Passes (v : Json) : Prop := ∀ check : Check, check.Holds v

/-- The name in an object; empty, if there is none. -/
def nameOf (v : Json) : String := ((v.field? "name").bind Json.text?).getD ""

/-- One of the two lists in an object has a name. -/
def Names (v : Json) (list : NameList) (x : String) : Prop :=
  ∃ items, v.field? list.key = some (.list items) ∧ .text x ∈ items

namespace Check

def error (v : Json) : Check → RecordError
  | object => .notAnObject v
  | name => .unnamed v
  | names list => .notNames (nameOf v) list

structure FailsFirst (check : Check) (v : Json) : Prop where
  fails : ¬check.Holds v
  earlier : ∀ k : Check, k.place < check.place → k.Holds v

theorem exists_failsFirst {v : Json} (h : ¬Passes v) : ∃ check : Check, check.FailsFirst v := by
  obtain ⟨check, hfails⟩ := not_forall.1 h
  -- either all earlier checks hold, or one of them is taken instead
  induction hplace : check.place using Nat.strongRecOn generalizing check with
  | ind n ih =>
    by_cases hearlier : ∀ k : Check, k.place < check.place → k.Holds v
    · exact ⟨check, hfails, hearlier⟩
    · push Not at hearlier
      obtain ⟨k, hlt, hk⟩ := hearlier
      exact ih k.place (hplace ▸ hlt) k hk rfl

end Check

/-! ## Lists of names -/

variable {v : Json} {fields : List (String × Json)} {name x : String} {list : NameList} {xs : List String} {r : Record}
  {check : Check} {e : RecordError}

theorem texts?_eq_some {items : List Json} (h : texts? items = some xs) : items = xs.map Json.text := by
  induction items generalizing xs with
  | nil =>
    cases h
    rfl
  | cons v rest ih =>
    cases v with
    | text s =>
      obtain ⟨ys, hys, rfl⟩ := Option.map_eq_some_iff.1 h
      rw [ih hys, List.map_cons]
    | _ => cases h

theorem listsNames_of_nameList (h : nameList fields name list = .ok xs) : ListsNames fields list.key xs := by
  unfold nameList at h
  split at h
  · next hnone =>
    cases h
    exact .inr ⟨hnone, rfl⟩
  · next items hitems =>
    split at h
    · next names hnames =>
      cases h
      rw [texts?_eq_some hnames] at hitems
      exact .inl hitems
    · cases h
  · cases h

theorem nameList_eq_error (h : ∀ xs, ¬ListsNames fields list.key xs) (name : String) :
    nameList fields name list = .error (.notNames name list) := by
  cases hread : nameList fields name list with
  | ok xs => exact absurd (listsNames_of_nameList hread) (h xs)
  | error e =>
    unfold nameList at hread
    split at hread
    · cases hread
    · split at hread
      · cases hread
      · cases hread
        rfl
    · cases hread
      rfl

theorem Check.holds_names_iff : (Check.names list).Holds (.object fields) ↔ ∃ xs, ListsNames fields list.key xs := by
  constructor
  · intro h
    cases hfind : Entries.find? list.key fields with
    | none => exact ⟨[], .inr ⟨hfind, rfl⟩⟩
    | some items =>
      obtain ⟨xs, rfl⟩ := h items hfind
      exact ⟨xs, .inl hfind⟩
  · rintro ⟨xs, h | ⟨h, -⟩⟩ items hitems
    · exact ⟨xs, Option.some.inj (hitems.symm.trans h)⟩
    · cases hitems.symm.trans h

theorem names_iff_of_listsNames (h : ListsNames fields list.key xs) : Names (.object fields) list x ↔ x ∈ xs := by
  unfold Names
  rcases h with h | ⟨h, rfl⟩
  · constructor
    · rintro ⟨items, hitems, hx⟩
      cases hitems.symm.trans h
      simpa using hx
    · intro hx
      exact ⟨_, h, List.mem_map_of_mem hx⟩
  · refine iff_of_false ?_ List.not_mem_nil
    rintro ⟨items, hitems, -⟩
    cases hitems.symm.trans h

/-! ## Records that pass -/

theorem passes_iff : Passes v ↔ ∃ r, IsWritten v r ∧ r.name ≠ "" := by
  constructor
  · intro h
    obtain ⟨fields, rfl⟩ := h .object
    obtain ⟨name, hname, hne⟩ := h .name
    obtain ⟨methods, hmethods⟩ := Check.holds_names_iff.1 (h (.names .methods))
    obtain ⟨calls, hcalls⟩ := Check.holds_names_iff.1 (h (.names .calls))
    exact ⟨⟨name, methods, calls⟩, .object ⟨hname, hmethods, hcalls⟩, hne⟩
  · rintro ⟨r, ⟨hr⟩, hne⟩ check
    cases check with
    | object => exact ⟨_, rfl⟩
    | name => exact ⟨r.name, hr.name, hne⟩
    | names list =>
      cases list with
      | methods => exact Check.holds_names_iff.2 ⟨_, hr.methods⟩
      | calls => exact Check.holds_names_iff.2 ⟨_, hr.calls⟩

theorem ofJson_of_failsFirst (h : check.FailsFirst v) : ofJson v = .error (check.error v) := by
  cases check with
  | object =>
    cases v with
    | object fields => exact absurd ⟨fields, rfl⟩ h.fails
    | _ => rfl
  | name =>
    obtain ⟨fields, rfl⟩ := h.earlier .object (by decide)
    unfold ofJson
    dsimp only
    split
    · next s hs =>
      have hempty : s = "" := by
        by_contra hne
        exact h.fails ⟨s, hs, hne⟩
      rw [if_pos hempty]
      rfl
    · rfl
  | names list =>
    obtain ⟨fields, rfl⟩ := h.earlier .object (by cases list <;> decide)
    obtain ⟨s, hs, hne⟩ := h.earlier .name (by cases list <;> decide)
    have hfind : Entries.find? "name" fields = some (.text s) := hs
    have hname : nameOf (.object fields) = s := by
      unfold nameOf
      rw [hs]
      rfl
    have hlist := nameList_eq_error (fun xs hxs => h.fails (Check.holds_names_iff.2 ⟨xs, hxs⟩)) s
    rw [Check.error, hname]
    cases list with
    | methods =>
      simp only [ofJson, hfind, if_neg hne, hlist]
      rfl
    | calls =>
      obtain ⟨methods, hmethods⟩ := Check.holds_names_iff.1 (h.earlier (.names .methods) (by decide))
      simp only [ofJson, hfind, if_neg hne, nameList_of_listsNames hmethods, hlist]
      rfl

theorem exists_ofJson_iff : (∃ r, ofJson v = .ok r) ↔ Passes v := by
  constructor
  · rintro ⟨r, hr⟩
    by_contra hfails
    obtain ⟨check, hcheck⟩ := Check.exists_failsFirst hfails
    cases hr.symm.trans (ofJson_of_failsFirst hcheck)
  · intro h
    obtain ⟨r, hr, hne⟩ := passes_iff.1 h
    exact ⟨r, ofJson_of_isWritten hr hne⟩

theorem ofJson_eq_error_iff : ofJson v = .error e ↔ ∃ check : Check, check.FailsFirst v ∧ e = check.error v := by
  constructor
  · intro h
    have hfails : ¬Passes v := fun hpasses => by
      obtain ⟨r, hr⟩ := exists_ofJson_iff.2 hpasses
      cases hr.symm.trans h
    obtain ⟨check, hcheck⟩ := Check.exists_failsFirst hfails
    exact ⟨check, hcheck, Except.error.inj (h.symm.trans (ofJson_of_failsFirst hcheck))⟩
  · rintro ⟨check, hcheck, rfl⟩
    exact ofJson_of_failsFirst hcheck

theorem isWritten_of_ofJson (h : ofJson v = .ok r) : IsWritten v r := by
  obtain ⟨r', hr, hne⟩ := passes_iff.1 (exists_ofJson_iff.1 ⟨r, h⟩)
  cases h.symm.trans (ofJson_of_isWritten hr hne)
  exact hr

theorem IsWritten.nameOf_eq (h : IsWritten v r) : nameOf v = r.name := by
  obtain ⟨hr⟩ := h
  have hname : Json.field? "name" (.object _) = some (.text r.name) := hr.name
  unfold nameOf
  rw [hname]
  rfl

theorem IsWritten.names_iff (h : IsWritten v r) : (Names v .methods x ↔ x ∈ r.methods) ∧ (Names v .calls x ↔ x ∈ r.calls) := by
  obtain ⟨hr⟩ := h
  exact ⟨names_iff_of_listsNames hr.methods, names_iff_of_listsNames hr.calls⟩

end Record

/-! ## Lists of records -/

namespace CallGraph

variable {g : CallGraph} {vs : List Json} {e : RecordError}

/-- A call graph with what more records tell, one after another. -/
def extend (g : CallGraph) (records : List Json) : Except RecordError CallGraph :=
  records.foldlM (fun g v => (Record.ofJson v).map fun r => g.addAll r.facts) g

theorem extend_eq (g : CallGraph) (vs : List Json) :
    g.extend vs = (vs.mapM Record.ofJson).map fun rs => g.addAll (rs.flatMap Record.facts) := by
  induction vs generalizing g with
  | nil => rfl
  | cons v vs ih =>
    unfold extend at ih ⊢
    rw [List.foldlM_cons, List.mapM_cons]
    cases Record.ofJson v with
    | error e => rfl
    | ok r =>
      refine (ih (g.addAll r.facts)).trans ?_
      cases vs.mapM Record.ofJson with
      | error e => rfl
      | ok rs => exact congrArg Except.ok (addAll_append g r.facts (rs.flatMap Record.facts)).symm

theorem ofRecords_eq_map (vs : List Json) :
    ofRecords vs = (vs.mapM Record.ofJson).map fun rs => ofFacts (rs.flatMap Record.facts) := by
  rw [ofRecords]
  cases vs.mapM Record.ofJson <;> rfl

theorem ofRecords_eq_extend (vs : List Json) : ofRecords vs = empty.extend vs := by
  rw [extend_eq, ofRecords_eq_map]
  rfl

theorem ofRecords_append (vs ws : List Json) : ofRecords (vs ++ ws) = ofRecords vs >>= fun g => g.extend ws := by
  rw [ofRecords_eq_extend, ofRecords_eq_extend]
  exact List.foldlM_append

theorem exists_ofRecords_iff : (∃ g, ofRecords vs = .ok g) ↔ ∀ v ∈ vs, Record.Passes v := by
  simp only [← Record.exists_ofJson_iff]
  rw [← exists_mapM_iff, ofRecords_eq_map]
  simp only [map_eq_ok_iff]
  exact ⟨fun ⟨_, rs, hrs, _⟩ => ⟨rs, hrs⟩, fun ⟨rs, hrs⟩ => ⟨_, rs, hrs, rfl⟩⟩

theorem ofRecords_eq_error_iff : ofRecords vs = .error e ↔ ∃ before v after, vs = before ++ v :: after ∧
    (∀ b ∈ before, Record.Passes b) ∧ ∃ check : Record.Check, check.FailsFirst v ∧ e = check.error v := by
  rw [ofRecords_eq_map, map_eq_error_iff, mapM_eq_error_iff]
  simp only [Record.exists_ofJson_iff, Record.ofJson_eq_error_iff]

/-- The classes of a call graph are those that records name, in order, with what all records of their names list. -/
structure Unites (g : CallGraph) (vs : List Json) : Prop where
  names_eq : g.names = (vs.map Record.nameOf).eraseDups
  mem_declared : ∀ c x, x ∈ g.declared c ↔ ∃ v ∈ vs, Record.nameOf v = c ∧ Record.Names v .methods x
  mem_called : ∀ c x, x ∈ g.called c ↔ ∃ v ∈ vs, Record.nameOf v = c ∧ Record.Names v .calls x

theorem unites_ofRecords (h : ofRecords vs = .ok g) : g.Unites vs := by
  rw [ofRecords_eq_map] at h
  obtain ⟨rs, hrs, rfl⟩ := map_eq_ok_iff.1 h
  have hwritten : List.Forall₂ Record.IsWritten vs rs := (mapM_eq_ok_iff.1 hrs).imp fun _ _ => Record.isWritten_of_ofJson
  have hnames : vs.map Record.nameOf = rs.map Record.name := by
    refine List.forall₂_eq_eq_eq ▸ ?_
    rw [List.forall₂_map_left_iff, List.forall₂_map_right_iff]
    exact hwritten.imp fun _ _ hv => hv.nameOf_eq
  refine ⟨?_, fun c x => ?_, fun c x => ?_⟩
  · rw [names_ofFacts_records, hnames]
  · rw [mem_declared_ofFacts, List.mem_flatMap]
    simp only [Record.method_mem_facts]
    exact (exists_mem_iff_of_forall₂ (fun v r hv => by rw [hv.nameOf_eq, hv.names_iff.1]) hwritten).symm
  · rw [mem_called_ofFacts, List.mem_flatMap]
    simp only [Record.call_mem_facts]
    exact (exists_mem_iff_of_forall₂ (fun v r hv => by rw [hv.nameOf_eq, hv.names_iff.2]) hwritten).symm

/-- A list of values is taken when all of them are records, and makes the union of what they tell, so that more records
extend it. Any other list is refused for its first value that is none, with the first check that this value fails. -/
theorem ofRecords_checked (vs : List Json) :
    ((∃ g, ofRecords vs = .ok g) ↔ ∀ v ∈ vs, Record.Passes v) ∧
      (∀ g, ofRecords vs = .ok g → g.Unites vs) ∧
      (∀ ws, ofRecords (vs ++ ws) = ofRecords vs >>= fun g => g.extend ws) ∧
      ∀ e, ofRecords vs = .error e ↔ ∃ before v after, vs = before ++ v :: after ∧ (∀ b ∈ before, Record.Passes b) ∧
        ∃ check : Record.Check, check.FailsFirst v ∧ e = check.error v :=
  ⟨exists_ofRecords_iff, fun _ => unites_ofRecords, ofRecords_append vs, fun _ => ofRecords_eq_error_iff⟩

/-- Two records are about one class. -/
def overlapping : List Json :=
  [.object [("name", .text "A"), ("methods", .texts ["f"])], .object [("name", .text "B"), ("calls", .texts ["f"])],
    .object [("calls", .texts ["g"]), ("methods", .list []), ("name", .text "A")]]

/-- Both lists of the second value are no lists of names, and the third has no name. -/
def malformed : List Json :=
  [.object [("name", .text "C")], .object [("name", .text "D"), ("calls", .null), ("methods", .text "f")], .object []]

theorem overlapping_checked : (∃ g, ofRecords overlapping = .ok g ∧ g.names = ["A", "B"] ∧ "f" ∈ g.declared "A" ∧
    "g" ∈ g.called "A") ∧ ofRecords (overlapping ++ malformed) = .error (.notNames "D" .methods) := by
  have hfirst : Record.Passes (.object [("name", .text "A"), ("methods", .texts ["f"])]) :=
    Record.passes_iff.2 ⟨⟨"A", ["f"], []⟩, .object ⟨rfl, .inl rfl, .inr ⟨rfl, rfl⟩⟩, by decide⟩
  have hsecond : Record.Passes (.object [("name", .text "B"), ("calls", .texts ["f"])]) :=
    Record.passes_iff.2 ⟨⟨"B", [], ["f"]⟩, .object ⟨rfl, .inr ⟨rfl, rfl⟩, .inl rfl⟩, by decide⟩
  have hthird : Record.Passes (.object [("calls", .texts ["g"]), ("methods", .list []), ("name", .text "A")]) :=
    Record.passes_iff.2 ⟨⟨"A", [], ["g"]⟩, .object ⟨rfl, .inl rfl, .inl rfl⟩, by decide⟩
  have hfourth : Record.Passes (.object [("name", .text "C")]) :=
    Record.passes_iff.2 ⟨⟨"C", [], []⟩, .object ⟨rfl, .inr ⟨rfl, rfl⟩, .inr ⟨rfl, rfl⟩⟩, by decide⟩
  have hpass : ∀ v ∈ overlapping, Record.Passes v := by
    simp only [overlapping, List.forall_mem_cons]
    exact ⟨hfirst, hsecond, hthird, nofun⟩
  constructor
  · obtain ⟨htaken, hunites, -⟩ := ofRecords_checked overlapping
    obtain ⟨g, hg⟩ := htaken.2 hpass
    have hunion := hunites g hg
    refine ⟨g, hg, hunion.names_eq, ?_, ?_⟩
    · exact (hunion.mem_declared "A" "f").2 ⟨_, List.mem_cons_self .., rfl, _, rfl, List.mem_cons_self ..⟩
    · exact (hunion.mem_called "A" "g").2 ⟨_, List.mem_of_getElem? (i := 2) rfl, rfl, _, rfl, List.mem_cons_self ..⟩
  · obtain ⟨-, -, -, hrefused⟩ := ofRecords_checked (overlapping ++ malformed)
    refine (hrefused _).2 ⟨overlapping ++ [.object [("name", .text "C")]], _, [.object []], rfl, ?_, .names .methods, ?_, rfl⟩
    · exact List.forall_mem_append.2 ⟨hpass, List.forall_mem_singleton.2 hfourth⟩
    · constructor
      · intro h
        obtain ⟨xs, hxs⟩ := h _ rfl
        cases hxs
      · intro k hk
        cases k with
        | object => exact ⟨_, rfl⟩
        | name => exact ⟨"D", rfl, by decide⟩
        | names list => cases list <;> exact absurd hk (by decide)

end CallGraph

end CouplingTree
