import CouplingTree.Proofs.FactTables
import CouplingTree.Service.Repositories

/-!
# Databases with call facts

A database holds call facts when it has plain tables of methods and calls with the columns that are asked for. What is
selected of it and what is counted in it then depends on the rows alone: whether they are all there, and whether the values
in those columns can be read.

* `Database.HasColumns`, `IsWhole`, `LegibleIn` : a plain table has some columns, all of its rows, and legible values in them.
* `Database.exists_select_iff`, `exists_count_iff` : when it can be selected from, and counted.
* `Database.HasFacts`, `IsExport` : the tables with the facts are there, and if there is one of the classes, it has their names.
* `Database.exists_callGraph_iff` : when an export has a call graph.
* `Database.exists_repository` : what has a call graph is counted.
-/

namespace CouplingTree

open Sql (Collation Datum Relation Row Value)

/-! ## Legible values -/

/-- A text is in order. -/
def Sql.Value.IsLegible : Value → Prop
  | .text bytes => ∃ cs, Utf8.decode bytes = .ok cs
  | _ => True

/-- The values at some places of a row can be had, and the texts among them are in order. -/
def Sql.Row.IsLegible (row : Row) (places : List Nat) : Prop :=
  ∀ i ∈ places, ∃ x, row.datum (some i) = .ok x ∧ x.value.IsLegible

theorem Cell.exists_ofValue_iff {column : String} {v : Value} : (∃ c, ofValue column v = .ok c) ↔ v.IsLegible := by
  cases v with
  | text bytes =>
    cases h : Utf8.decode bytes <;> simp [ofValue, Value.IsLegible, h]
  | _ => exact iff_of_true ⟨_, rfl⟩ trivial

namespace Database

variable {d : Database} {table : String} {columns : List String} {r : Relation} {places : List Nat} {row : Row}

theorem values_chosen (places : List Nat) (row : Row) :
    (chosen places row).values = places.mapM fun i => (row.datum (some i)).map Datum.value := by
  rw [Row.values, chosen, List.tail_cons, List.mapM_map]
  rfl

/-- The cells of a row can be had when the values in it are legible. -/
theorem exists_cellsOf_iff :
    (∃ cells, cellsOf (places.map (nameAt r)) (chosen places row) = .ok cells) ↔ row.IsLegible places := by
  have hstages : (∃ cells, cellsOf (places.map (nameAt r)) (chosen places row) = .ok cells) ↔
      ∃ vs, places.mapM (fun i => (row.datum (some i)).map Datum.value) = .ok vs ∧
        ∀ c ∈ (places.map (nameAt r)).zip vs, ∃ cell, Cell.ofValue c.1 c.2 = .ok cell := by
    simp only [cellsOf, values_chosen, bind_eq_ok_iff, mapError_eq_ok_iff, ← exists_mapM_iff]
    constructor
    · rintro ⟨cells, vs, hvs, hcells⟩
      exact ⟨vs, hvs, cells, hcells⟩
    · rintro ⟨vs, hvs, cells, hcells⟩
      exact ⟨cells, vs, hvs, hcells⟩
  rw [hstages]
  constructor
  · rintro ⟨vs, hvs, hcells⟩ i hi
    have hpairs := mapM_eq_ok_iff.1 hvs
    obtain ⟨v, hv, hiv⟩ := mem_of_mapM hvs i hi
    obtain ⟨x, hx, rfl⟩ := map_eq_ok_iff.1 hiv
    have hsnd : ((places.map (nameAt r)).zip vs).map Prod.snd = vs :=
      List.map_snd_zip (Nat.le_of_eq ((List.length_map _).trans hpairs.length_eq).symm)
    rw [← hsnd] at hv
    obtain ⟨c, hc, hcx⟩ := List.mem_map.1 hv
    exact ⟨x, hx, hcx ▸ Cell.exists_ofValue_iff.1 (hcells c hc)⟩
  · intro h
    obtain ⟨vs, hvs, hlegible⟩ := mapM_eq_ok_of (P := Value.IsLegible) (f := fun i => (row.datum (some i)).map Datum.value)
      fun i hi => by
        obtain ⟨x, hx, hlegible⟩ := h i hi
        exact ⟨x.value, by rw [hx]; rfl, hlegible⟩
    exact ⟨vs, hvs, fun c hc => Cell.exists_ofValue_iff.2 (hlegible _ (List.of_mem_zip hc).2)⟩

/-! ## Plain tables -/

/-- A plain table has some columns. -/
def HasColumns (d : Database) (table : String) (columns : List String) : Prop :=
  ∃ r places, d.plain? table columns = some (r, places)

/-- Nothing is wrong behind the last row of a plain table. -/
def IsWhole (d : Database) (table : String) : Prop :=
  ∀ r places, d.plain? table [] = some (r, places) → r.rows.fault = none

/-- The values in some columns of a plain table are legible. -/
def LegibleIn (d : Database) (table : String) (columns : List String) : Prop :=
  ∀ r places, d.plain? table columns = some (r, places) → ∀ row ∈ r.rows.items, row.IsLegible places

theorem isWhole_iff (h : d.plain? table columns = some (r, places)) : d.IsWhole table ↔ r.rows.fault = none := by
  obtain ⟨htable, -⟩ := plain?_eq_some_iff.1 h
  constructor
  · exact fun hwhole => hwhole r [] (plain?_eq_some_iff.2 ⟨htable, rfl⟩)
  · intro hfault s _ hs
    cases htable.symm.trans (plain?_eq_some_iff.1 hs).1
    exact hfault

theorem legibleIn_iff (h : d.plain? table columns = some (r, places)) :
    d.LegibleIn table columns ↔ ∀ row ∈ r.rows.items, row.IsLegible places := by
  constructor
  · exact fun hlegible => hlegible r places h
  · intro hlegible s l hs
    cases h.symm.trans hs
    exact hlegible

/-- All rows of a plain table are selected when they are all there, and legible. -/
theorem exists_select_iff (h : d.HasColumns table columns) :
    (∃ rows, d.select table columns = .ok rows) ↔ d.IsWhole table ∧ d.LegibleIn table columns := by
  obtain ⟨r, places, hplain⟩ := h
  have hcells : (∃ cells, (r.rows.map (chosen places)).items.mapM (cellsOf (places.map (nameAt r))) = .ok cells) ↔
      ∀ row ∈ r.rows.items, row.IsLegible places := by
    rw [exists_mapM_iff, Sql.Stream.map, List.forall_mem_map]
    exact forall₂_congr fun row _ => exists_cellsOf_iff
  rw [isWhole_iff hplain, legibleIn_iff hplain, ← hcells]
  simp only [select_of_plain hplain, decoded, bind_eq_ok_iff]
  constructor
  · rintro ⟨rows, cells, hcells, hrows⟩
    refine ⟨?_, cells, hcells⟩
    cases hfault : r.rows.fault with
    | none => rfl
    | some p =>
      rw [Sql.Stream.map, hfault] at hrows
      cases hrows
  · rintro ⟨hfault, cells, hcells⟩
    refine ⟨cells, cells, hcells, ?_⟩
    rw [Sql.Stream.map, hfault]
    rfl

/-- The rows of a plain table are counted when they are all there. -/
theorem exists_count_iff (h : d.HasColumns table columns) : (∃ n, d.count table = .ok n) ↔ d.IsWhole table := by
  obtain ⟨r, places, hplain⟩ := h
  simp only [isWhole_iff hplain, count, (relation?_of_plain hplain).1, mapError_eq_ok_iff, map_eq_ok_iff, Sql.Stream.all]
  cases r.rows.fault <;> simp

theorem hasColumns_of_lists {rows : List (List String)} (h : d.Lists table columns rows) : d.HasColumns table columns := by
  obtain ⟨r, places, hplain, -⟩ := h
  exact ⟨r, places, hplain⟩

/-- Texts that are listed can be read. -/
theorem readable_of_lists {rows : List (List String)} (h : d.Lists table columns rows) :
    d.IsWhole table ∧ d.LegibleIn table columns :=
  (exists_select_iff (hasColumns_of_lists h)).1 ⟨_, select_of_lists h⟩

/-! ## Different values -/

/-- How the values of two columns are compared: as the first one is, or else as the second. -/
def commonCollation (d : Database) (a b : String × String) : Collation :=
  (((d.column? a.1 a.2).bind Prod.fst).or ((d.column? b.1 b.2).bind Prod.fst)).getD .binary

theorem countTogether_eq {a b : String × String} {c c' : Option Collation} {vs ws : Except Sql.Problem (List Value)}
    (ha : d.column? a.1 a.2 = some (c, vs)) (hb : d.column? b.1 b.2 = some (c', ws)) :
    d.countTogether a b = (countValues (d.commonCollation a b) vs ws).mapError .ofProblem := by
  rw [countTogether, commonCollation, ha, hb]
  rfl

/-- Values are counted unless it is not known how they are compared. -/
theorem countValues_eq_ok {c : Collation} (hc : ∀ name, c ≠ .unknown name) (vs ws : List Value) :
    countValues c (.ok vs) (.ok ws) = .ok (distinctCount c (vs ++ ws)) := by
  cases c with
  | unknown name => exact absurd rfl (hc name)
  | _ => rfl

/-- The first of two columns has its values when the rows are all there, and legible. -/
theorem exists_column? {first second : String} (h : d.HasColumns table [first, second]) (hwhole : d.IsWhole table)
    (hlegible : d.LegibleIn table [first, second]) : ∃ c vs, d.column? table first = some (c, .ok vs) := by
  obtain ⟨r, places, hplain⟩ := h
  have hfault := (isWhole_iff hplain).1 hwhole
  have hrows := (legibleIn_iff hplain).1 hlegible
  obtain ⟨hr, -, hcolumns⟩ := relation?_of_plain hplain
  obtain ⟨i, hi, l, -, rfl⟩ : ∃ i, r.column? first = some i ∧ ∃ l, [second].mapM r.column? = some l ∧ i :: l = places := by
    simpa only [List.mapM_cons, Option.bind_eq_bind, Option.bind_eq_some_iff, pure, Option.some.injEq] using
      (plain?_eq_some_iff.1 hplain).2
  obtain ⟨vs, hvs⟩ : ∃ vs, r.rows.items.mapM (fun row => (row.datum (some i)).map Datum.value) = .ok vs := by
    refine exists_mapM_iff.2 fun row hrow => ?_
    obtain ⟨x, hx, -⟩ := hrows row hrow i (List.mem_cons_self ..)
    exact ⟨x.value, by rw [hx]; rfl⟩
  refine ⟨if r.counter = some i then none else r.columns[i]?.map Sql.Column.collation, vs, ?_⟩
  simp only [column?, hr, hi, Option.bind_some, pure, checkColumns_eq_ok fun c hc => (hcolumns c hc).2,
    Sql.Stream.all, hfault, bind, Except.bind, hvs]

/-! ## Exports -/

/-- How the names of the classes are compared when they are counted. -/
def classCollation (d : Database) : Collation := d.commonCollation ("methods", "class_name") ("calls", "caller_class")

/-- The tables with the facts are there, and it is known how the names of the classes are compared. -/
structure HasFacts (d : Database) : Prop where
  methods : d.HasColumns "methods" ["class_name", "method_name"]
  calls : d.HasColumns "calls" ["caller_class", "method_name"]
  known : ∀ name, d.classCollation ≠ .unknown name

/-- The tables with the facts are there, and a table of classes has their names. -/
structure IsExport (d : Database) : Prop extends d.HasFacts where
  classes : d.hasTable "classes" = true → d.HasColumns "classes" ["name"]

/-- The names in the tables can be read, and the classes are all there. -/
structure IsLegible (d : Database) : Prop where
  methods : d.LegibleIn "methods" ["class_name", "method_name"]
  calls : d.LegibleIn "calls" ["caller_class", "method_name"]
  classes : d.hasTable "classes" = true → d.IsWhole "classes" ∧ d.LegibleIn "classes" ["name"]

theorem exists_callGraph_stages : (∃ g, d.callGraph = .ok g) ↔ (∃ rows, d.listedClasses = .ok rows) ∧
    (∃ rows, d.select "methods" ["class_name", "method_name"] = .ok rows) ∧
    ∃ rows, d.select "calls" ["caller_class", "method_name"] = .ok rows := by
  simp only [callGraph, factRows, map_eq_ok_iff, bind_eq_ok_iff]
  constructor
  · rintro ⟨-, -, ⟨classes, hclasses, methods, hmethods, calls, hcalls, -⟩, -⟩
    exact ⟨⟨classes, hclasses⟩, ⟨methods, hmethods⟩, calls, hcalls⟩
  · rintro ⟨⟨classes, hclasses⟩, ⟨methods, hmethods⟩, calls, hcalls⟩
    exact ⟨_, _, ⟨classes, hclasses, methods, hmethods, calls, hcalls, rfl⟩, rfl⟩

/-- An export has a call graph when its rows are all there, and legible. -/
theorem exists_callGraph_iff (h : d.IsExport) :
    (∃ g, d.callGraph = .ok g) ↔ d.IsWhole "methods" ∧ d.IsWhole "calls" ∧ d.IsLegible := by
  have hclasses : (∃ rows, d.listedClasses = .ok rows) ↔
      (d.hasTable "classes" = true → d.IsWhole "classes" ∧ d.LegibleIn "classes" ["name"]) := by
    by_cases htable : d.hasTable "classes" = true
    · rw [listedClasses, if_pos htable, exists_select_iff (h.classes htable)]
      exact ⟨fun hread _ => hread, fun hread => hread htable⟩
    · rw [listedClasses, if_neg htable]
      exact iff_of_true ⟨[], rfl⟩ fun hread => absurd hread htable
  rw [exists_callGraph_stages, hclasses, exists_select_iff h.methods, exists_select_iff h.calls]
  constructor
  · rintro ⟨hclasses, ⟨hmethods, hmethods'⟩, hcalls, hcalls'⟩
    exact ⟨hmethods, hcalls, hmethods', hcalls', hclasses⟩
  · rintro ⟨hmethods, hcalls, hmethods', hcalls', hclasses⟩
    exact ⟨hclasses, ⟨hmethods, hmethods'⟩, hcalls, hcalls'⟩

/-- What is counted has all its rows. -/
theorem isWhole_of_repository {p : Path} {repository : Repository} (h : d.HasFacts) (hr : d.repository p = .ok repository) :
    d.IsWhole "methods" ∧ d.IsWhole "calls" := by
  simp only [Database.repository, bind_eq_ok_iff] at hr
  obtain ⟨methods, hmethods, calls, hcalls, -⟩ := hr
  exact ⟨(exists_count_iff h.methods).1 ⟨methods, hmethods⟩, (exists_count_iff h.calls).1 ⟨calls, hcalls⟩⟩

/-- What has a call graph is counted. -/
theorem exists_repository {g : CallGraph} (h : d.HasFacts) (hg : d.callGraph = .ok g) (p : Path) :
    ∃ classes methods calls, d.repository p = .ok ⟨p.stem, classes, methods, calls, p.text⟩ := by
  obtain ⟨-, hmethods, hcalls⟩ := exists_callGraph_stages.1 ⟨g, hg⟩
  obtain ⟨hwhole, hlegible⟩ := (exists_select_iff h.methods).1 hmethods
  obtain ⟨hwhole', hlegible'⟩ := (exists_select_iff h.calls).1 hcalls
  obtain ⟨methods, hcount⟩ := (exists_count_iff h.methods).2 hwhole
  obtain ⟨calls, hcount'⟩ := (exists_count_iff h.calls).2 hwhole'
  obtain ⟨c, vs, hc⟩ := exists_column? h.methods hwhole hlegible
  obtain ⟨c', ws, hc'⟩ := exists_column? h.calls hwhole' hlegible'
  have htogether : d.countTogether ("methods", "class_name") ("calls", "caller_class") =
      .ok (distinctCount d.classCollation (vs ++ ws)) := by
    rw [countTogether_eq (a := ("methods", "class_name")) (b := ("calls", "caller_class")) hc hc', ← classCollation,
      countValues_eq_ok h.known]
    rfl
  refine ⟨distinctCount d.classCollation (vs ++ ws), methods, calls, ?_⟩
  simp only [Database.repository, hcount, hcount', htogether, bind, Except.bind]

end Database

end CouplingTree
