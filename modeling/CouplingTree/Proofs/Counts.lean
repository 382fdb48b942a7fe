import Mathlib.Data.List.Dedup
import Mathlib.Data.List.Perm.Subperm
import CouplingTree.Proofs.Exports
import CouplingTree.Proofs.OtherNames

/-!
# Counts of facts

A repository is counted by the rows of its tables, while its call graph has each class and each fact once. So the counts bound
those of the call graph, and are the same when no row tells what another one does.

* `Cell.className_eq_iff`, `Cell.methodName_eq_iff` : names are the same just when the values are that they are made from.
* `Database.select_eq_ok` : what is selected of a table is what the values in its rows are selected as.
* `Database.exists_names` : the facts of a call graph are those in the tables, under such names.
* `Database.Represents` : values that stand for all different ones; there are no more of them than names.
* `Database.distinctCount_classValues`, `Database.withFacts_length` : numbers of different values, and of classes.
* `Database.sum_declared`, `Database.sum_called` : numbers of rows, and of declarations and calls.
* `Database.repository_counts` : what the counts of a repository are.
-/

namespace CouplingTree

open Sql (Collation Datum Relation Row Value)

/-! ## Names of values -/

/-- What a value is selected as, if it is legible. -/
def Sql.Value.cell : Value → Cell
  | .null => .nothing
  | .integer i => .integer i
  | .real x => .real x
  | .blob bs => .blob bs
  | .text bs =>
    match Utf8.decode bs with
    | .ok cs => .text (String.ofList cs)
    | .error _ => .nothing

namespace Cell

variable {v w : Value}

theorem ofValue_eq_ok {column : String} {c : Cell} (h : ofValue column v = .ok c) : c = v.cell ∧ v.IsLegible := by
  cases v with
  | text bs =>
    cases hdecode : Utf8.decode bs with
    | ok cs =>
      rw [ofValue, hdecode] at h
      cases h
      rw [Value.cell, hdecode]
      exact ⟨rfl, cs, hdecode⟩
    | error e =>
      rw [ofValue, hdecode] at h
      cases h
  | _ =>
    cases h
    exact ⟨rfl, trivial⟩

/-- How a cell is shown when there is a way to show names that are no texts. -/
def shown (g : OtherName → String) : Cell → String
  | text s => s
  | c => (c.otherName?.map g).getD ""

theorem className_eq (written : List OtherName) (c : Cell) :
    c.className written = c.shown fun n => (OtherName.firstOf written n).name := by
  cases c <;> rfl

theorem methodName_eq (c : Cell) : c.methodName = c.shown OtherName.keyName := by
  cases c <;> rfl

end Cell

namespace Cell

variable {v w : Value} {g : OtherName → String} {P : OtherName → Prop}

/-- A legible value is a text or a name that is none. -/
theorem cell_cases (hv : v.IsLegible) : (∃ s, v = .text (Utf8.encode s) ∧ v.cell.shown g = s) ∨
    ∃ n, OtherName.ofValue? v = some n ∧ v.cell.shown g = g n := by
  cases v with
  | text bs =>
    obtain ⟨cs, hcs⟩ := hv
    refine .inl ⟨String.ofList cs, by rw [Utf8.encode_of_decode hcs], ?_⟩
    rw [Value.cell, hcs]
    rfl
  | _ => exact .inr ⟨_, rfl, rfl⟩

theorem otherName?_cell (hv : v.IsLegible) : v.cell.otherName? = OtherName.ofValue? v := by
  cases v with
  | text bs =>
    obtain ⟨cs, hcs⟩ := hv
    rw [Value.cell, hcs]
    rfl
  | _ => rfl

theorem encode_inj {s s' : String} (h : Utf8.encode s = Utf8.encode s') : s = s' := by
  have hdecode := Utf8.decode_encode s
  rw [h, Utf8.decode_encode] at hdecode
  exact String.toList_inj.1 (Except.ok.inj hdecode).symm

theorem rank_ne_of_other {n : OtherName} (h : OtherName.ofValue? v = some n) : v.rank ≠ 2 := by
  cases v <;> cases h <;> exact fun hrank => by simp [Value.rank] at hrank

/-- Names are the same when the values are, if names that are no texts are shown apart and unlike the texts. -/
theorem shown_eq_iff (hkey : ∀ {n m}, P n → P m → (g n = g m ↔ n.key = m.key)) (hv : v.IsLegible) (hw : w.IsLegible)
    (sv : OtherName.IsStored v) (sw : OtherName.IsStored w)
    (pv : ∀ n, OtherName.ofValue? v = some n → P n ∧ w ≠ .text (Utf8.encode (g n)))
    (pw : ∀ n, OtherName.ofValue? w = some n → P n ∧ v ≠ .text (Utf8.encode (g n))) :
    v.cell.shown g = w.cell.shown g ↔ v.same .binary w = true := by
  rcases cell_cases (g := g) hv with ⟨s, rfl, hs⟩ | ⟨n, hn, hs⟩ <;>
    rcases cell_cases (g := g) hw with ⟨s', rfl, hs'⟩ | ⟨m, hm, hs'⟩ <;> rw [hs, hs']
  · rw [Value.same_iff]
    exact ⟨fun h => ⟨rfl, rfl, congrArg Utf8.encode h⟩, fun h => encode_inj h.2.2⟩
  · exact iff_of_false (fun h => (pw m hm).2 (by rw [h])) fun h => rank_ne_of_other hm (Value.same_iff.1 h).1.symm
  · exact iff_of_false (fun h => (pv n hn).2 (by rw [h])) fun h => rank_ne_of_other hn (Value.same_iff.1 h).1
  · rw [hkey (pv n hn).1 (pw m hm).1]
    exact OtherName.key_eq_iff sv sw hn hm

end Cell

/-- Values are as they can be in a database, and no text among them shows another one that is none. -/
def AreNamed (g : OtherName → String) (vs : List Value) : Prop :=
  ∀ v ∈ vs, OtherName.IsStored v ∧ ∀ w ∈ vs, ∀ n, OtherName.ofValue? w = some n → v ≠ .text (Utf8.encode (g n))

/-- Texts alone always are. -/
theorem areNamed_of_texts {g : OtherName → String} {vs : List Value} (h : ∀ v ∈ vs, ∃ bs, v = .text bs) :
    AreNamed g vs := fun v hv => by
  obtain ⟨bs, rfl⟩ := h v hv
  refine ⟨trivial, fun w hw n hn => ?_⟩
  obtain ⟨bs', rfl⟩ := h w hw
  cases hn

namespace Cell

variable {v w : Value} {vs : List Value}

/-- Classes have the same name when the values are the same. -/
theorem className_eq_iff {written : List OtherName} (hvs : AreNamed OtherName.name vs)
    (hwritten : ∀ n, n ∈ written ↔ ∃ v ∈ vs, OtherName.ofValue? v = some n) (hv : v ∈ vs) (hw : w ∈ vs) (lv : v.IsLegible)
    (lw : w.IsLegible) : v.cell.className written = w.cell.className written ↔ v.same .binary w = true := by
  have hother : ∀ {v w}, v ∈ vs → w ∈ vs → ∀ n, OtherName.ofValue? v = some n →
      n ∈ written ∧ w ≠ .text (Utf8.encode (OtherName.firstOf written n).name) := fun {v w} hv hw n hn => by
    have hmem := (hwritten n).2 ⟨v, hv, hn⟩
    obtain ⟨u, hu, hfirst⟩ := (hwritten _).1 (OtherName.firstOf_mem hmem)
    exact ⟨hmem, (hvs w hw).2 u hu _ hfirst⟩
  rw [className_eq, className_eq]
  exact shown_eq_iff (P := (· ∈ written)) (fun hn _ => OtherName.name_firstOf_eq_iff hn) lv lw (hvs v hv).1 (hvs w hw).1
    (hother hv hw) (hother hw hv)

/-- So have methods. -/
theorem methodName_eq_iff (hvs : AreNamed OtherName.keyName vs) (hv : v ∈ vs) (hw : w ∈ vs) (lv : v.IsLegible)
    (lw : w.IsLegible) : v.cell.methodName = w.cell.methodName ↔ v.same .binary w = true := by
  rw [methodName_eq, methodName_eq]
  exact shown_eq_iff (P := fun _ => True) (fun _ _ => OtherName.keyName_eq_iff) lv lw (hvs v hv).1 (hvs w hw).1
    (fun n hn => ⟨trivial, (hvs w hw).2 v hv n hn⟩) fun n hn => ⟨trivial, (hvs v hv).2 w hw n hn⟩

end Cell

/-! ## Rows of tables -/

namespace Database

variable {d : Database} {table first second : String} {columns : List String} {r : Relation} {places : List Nat} {row : Row}
  {i j : Nat}

theorem eq_items_of_all {α : Type} {stream : Sql.Stream α} {items : List α} (h : stream.all = .ok items) :
    items = stream.items := by
  rw [Sql.Stream.all] at h
  split at h <;> cases h
  rfl

/-- Values that can all be had stay what they are. -/
theorem map_ok_of_mapM {α : Type} {xs : List (Except Sql.Problem α)} {ys : List α} (h : xs.mapM id = .ok ys) :
    ys.map .ok = xs :=
  (map_eq_map_of_mapM h fun _ _ hx => hx.symm).trans (List.map_id xs)

/-- Rows that are put in order, if all of them can be had, are the same rows. -/
theorem sortedRows_perm {o : Sql.SortTerm} {rows : Sql.Stream Sql.SortedRow} (h : (Sql.sortedRows [o] rows).fault = none) :
    (Sql.sortedRows [o] rows).items.Perm (rows.items.map Prod.snd) := by
  unfold Sql.sortedRows Sql.Stream.ofAll at h ⊢
  rw [if_neg (by simp)] at h ⊢
  split at h
  · next sorted hsorted =>
    obtain ⟨rs, hrs, hsorted⟩ := bind_eq_ok_iff.1 hsorted
    obtain ⟨keyed, hkeyed, hsorted⟩ := bind_eq_ok_iff.1 hsorted
    cases hsorted
    have hrows : keyed.map Prod.snd = rs.map Prod.snd := map_eq_map_of_mapM hkeyed fun x y hxy => by
      obtain ⟨keys, -, hxy⟩ := bind_eq_ok_iff.1 hxy
      obtain ⟨row, hrow, hxy⟩ := bind_eq_ok_iff.1 hxy
      obtain ⟨values, hvalues, hrow⟩ := bind_eq_ok_iff.1 hrow
      cases hxy
      cases hrow
      exact map_ok_of_mapM hvalues
    rw [← eq_items_of_all hrs, ← hrows]
    exact (List.mergeSort_perm _ _).map Prod.snd
  · cases h

/-- The value at a place of a row. -/
def valueAt (row : Row) (place : Nat) : Value := ((row.datum (some place)).toOption.map Datum.value).getD .null

/-- What the values at some places of a row are selected as. -/
def cellsAt (places : List Nat) (row : Row) : List Cell := places.map fun i => (valueAt row i).cell

theorem cellsOf_eq_ok {cells : List Cell} (h : cellsOf (places.map (nameAt r)) (chosen places row) = .ok cells) :
    cells = cellsAt places row ∧ ∀ i ∈ places, (valueAt row i).IsLegible := by
  obtain ⟨vs, hvs, hcells⟩ := bind_eq_ok_iff.1 h
  rw [mapError_eq_ok_iff, values_chosen] at hvs
  have hvalues : vs = places.map (valueAt row) := eq_map_of_mapM hvs fun i v hv => by
    obtain ⟨x, hx, rfl⟩ := map_eq_ok_iff.1 hv
    rw [valueAt, hx]
    rfl
  have hsnd : ((places.map (nameAt r)).zip vs).map Prod.snd = vs :=
    List.map_snd_zip (by rw [hvalues, List.length_map, List.length_map])
  have hcell := eq_map_of_mapM (g := fun c : String × Value => c.2.cell) hcells fun c cell hc => (Cell.ofValue_eq_ok hc).1
  constructor
  · have hmap : ((places.map (nameAt r)).zip vs).map (fun c => c.2.cell) =
        (((places.map (nameAt r)).zip vs).map Prod.snd).map Value.cell := by
      rw [List.map_map]
      rfl
    rw [hcell, hmap, hsnd, hvalues, List.map_map]
    rfl
  · intro i hi
    have hv : valueAt row i ∈ ((places.map (nameAt r)).zip vs).map Prod.snd := by
      rw [hsnd, hvalues]
      exact List.mem_map_of_mem hi
    obtain ⟨c, hc, hcv⟩ := List.mem_map.1 hv
    obtain ⟨cell, -, hcell⟩ := mem_of_mapM hcells c hc
    exact hcv ▸ (Cell.ofValue_eq_ok hcell).2

theorem decoded_eq_ok {rows : Sql.Stream Row} {cells : List (List Cell)} (h : decoded columns rows = .ok cells) :
    rows.fault = none ∧ rows.items.mapM (cellsOf columns) = .ok cells := by
  obtain ⟨found, hfound, hcells⟩ := bind_eq_ok_iff.1 h
  split at hcells
  · next hfault =>
    cases hcells
    exact ⟨hfault, hfound⟩
  · cases hcells

/-- Rows that are put in order are those of the table. -/
theorem inOrder_perm {rows : Sql.Stream Row} (h : inOrder r places = .ok rows) (hfault : rows.fault = none) :
    rows.items.Perm (r.rows.items.map (chosen places)) := by
  unfold inOrder at h
  split at h
  · next key _ =>
    unfold sortedBy at h
    dsimp only at h
    split at h
    · cases h
    · obtain ⟨-, -, hrows⟩ := bind_eq_ok_iff.1 h
      cases hrows
      have hperm := sortedRows_perm hfault
      rwa [Sql.Stream.map, List.map_map] at hperm
  · split at h
    · cases h
    · obtain ⟨-, -, hrows⟩ := bind_eq_ok_iff.1 h
      cases hrows
      exact List.Perm.refl _

/-- What is selected of a table is what the values in its rows are selected as. -/
theorem select_eq_ok {rows : List (List Cell)} (hr : d.relation? table = some r) (h : d.select table columns = .ok rows) :
    ∃ places, columns.mapM r.column? = some places ∧ rows.Perm (r.rows.items.map (cellsAt places)) ∧
      ∀ row ∈ r.rows.items, ∀ i ∈ places, (valueAt row i).IsLegible := by
  simp only [select, hr, bind_eq_ok_iff, mapError_eq_ok_iff] at h
  obtain ⟨places, hplaces, ordered, hordered, hrows⟩ := h
  obtain ⟨hfault, hcells⟩ := decoded_eq_ok hrows
  obtain ⟨cells, hcells, hperm⟩ := exists_mapM_of_perm (inOrder_perm hordered hfault) hcells
  rw [List.mapM_map] at hcells
  refine ⟨places, placesOf_eq_ok_iff.1 hplaces, ?_, fun row hrow => ?_⟩
  · rwa [eq_map_of_mapM hcells fun row _ hrow => (cellsOf_eq_ok hrow).1] at hperm
  · obtain ⟨found, -, hfound⟩ := mem_of_mapM hcells row hrow
    exact (cellsOf_eq_ok hfound).2

/-! ## Values in columns -/

/-- The values in a column of a table, row by row. -/
def valuesIn (d : Database) (table column : String) : List Value :=
  match d.relation? table with
  | some r => ((r.column? column).map fun i => r.rows.items.map fun row => valueAt row i).getD []
  | none => []

/-- The values in two columns of a table, row by row. -/
def rowsIn (d : Database) (table first second : String) : List (Value × Value) :=
  (d.valuesIn table first).zip (d.valuesIn table second)

/-- The rows of a table, and the places of two columns in it. -/
structure HasPair (d : Database) (table first second : String) (r : Relation) (i j : Nat) : Prop where
  relation_eq : d.relation? table = some r
  first_eq : r.column? first = some i
  second_eq : r.column? second = some j

theorem valuesIn_eq {column : String} (hr : d.relation? table = some r) (hi : r.column? column = some i) :
    d.valuesIn table column = r.rows.items.map fun row => valueAt row i := by
  rw [valuesIn, hr]
  dsimp only
  rw [hi]
  rfl

theorem HasPair.rowsIn_eq (h : d.HasPair table first second r i j) :
    d.rowsIn table first second = r.rows.items.map fun row => (valueAt row i, valueAt row j) := by
  rw [rowsIn, valuesIn_eq h.relation_eq h.first_eq, valuesIn_eq h.relation_eq h.second_eq, List.zip_map']

/-- The rows that are selected are those of the values. -/
theorem select_pair {rows : List (List Cell)} (hr : d.relation? table = some r)
    (hrows : d.select table [first, second] = .ok rows) : (∃ i j, d.HasPair table first second r i j) ∧
      rows.Perm ((d.rowsIn table first second).map fun p => [p.1.cell, p.2.cell]) ∧
      ∀ p ∈ d.rowsIn table first second, p.1.IsLegible ∧ p.2.IsLegible := by
  obtain ⟨places, hplaces, hperm, hlegible⟩ := select_eq_ok hr hrows
  simp only [List.mapM_cons, List.mapM_nil, Option.bind_eq_bind, Option.bind_eq_some_iff, pure, Option.some.injEq]
    at hplaces
  obtain ⟨i, hi, l, ⟨j, hj, -, rfl, rfl⟩, rfl⟩ := hplaces
  have hpair : d.HasPair table first second r i j := ⟨hr, hi, hj⟩
  rw [hpair.rowsIn_eq, List.map_map]
  refine ⟨⟨i, j, hpair⟩, hperm, List.forall_mem_map.2 fun row hrow => ?_⟩
  exact ⟨hlegible row hrow i (by simp), hlegible row hrow j (by simp)⟩

theorem select_single {column : String} {rows : List (List Cell)} (hr : d.relation? table = some r)
    (hrows : d.select table [column] = .ok rows) : rows.Perm ((d.valuesIn table column).map fun v => [v.cell]) ∧
      ∀ v ∈ d.valuesIn table column, v.IsLegible := by
  obtain ⟨places, hplaces, hperm, hlegible⟩ := select_eq_ok hr hrows
  simp only [List.mapM_cons, List.mapM_nil, Option.bind_eq_bind, Option.bind_eq_some_iff, pure, Option.some.injEq]
    at hplaces
  obtain ⟨i, hi, -, rfl, rfl⟩ := hplaces
  rw [valuesIn_eq hr hi, List.map_map]
  exact ⟨hperm, List.forall_mem_map.2 fun row hrow => hlegible row hrow i (by simp)⟩

/-- All rows are counted. -/
theorem HasPair.count_eq {n : Nat} (h : d.HasPair table first second r i j) (hn : d.count table = .ok n) :
    n = (d.rowsIn table first second).length := by
  simp only [count, h.relation_eq, mapError_eq_ok_iff, map_eq_ok_iff] at hn
  obtain ⟨rows, hrows, rfl⟩ := hn
  rw [eq_items_of_all hrows, h.rowsIn_eq, List.length_map]

/-- The values that are counted. -/
theorem HasPair.exists_column? (h : d.HasPair table first second r i j) : ∃ c values, d.column? table first = some (c, values) ∧
    ∀ vs, values = .ok vs → vs = (d.rowsIn table first second).map Prod.fst := by
  have hcolumn : d.column? table first = some (if r.counter = some i then none else r.columns[i]?.map Sql.Column.collation, do
      checkColumns r [i]
      (← r.rows.all).mapM fun row => (row.datum (some i)).map Datum.value) := by
    simp only [column?, h.relation_eq, h.first_eq, Option.bind_eq_bind, Option.bind_some, pure]
  refine ⟨_, _, hcolumn, fun vs hvalues => ?_⟩
  obtain ⟨-, -, hvalues⟩ := bind_eq_ok_iff.1 hvalues
  obtain ⟨rows, hrows, hvs⟩ := bind_eq_ok_iff.1 hvalues
  rw [eq_items_of_all hrows] at hvs
  rw [h.rowsIn_eq, List.map_map]
  refine eq_map_of_mapM hvs fun row v hv => ?_
  obtain ⟨x, hx, rfl⟩ := map_eq_ok_iff.1 hv
  change x.value = valueAt row i
  rw [valueAt, hx]
  rfl

/-! ## Different values -/

theorem compareRows_singleton (c : Collation) (v w : Value) : Sql.compareRows [c] [v] [w] = v.compare c w := by
  change (v.compare c w).then .eq = _
  cases v.compare c w <;> rfl

/-- Values that stand for all different ones. -/
structure Represents (c : Collation) (ws vs : List Value) : Prop where
  mem : ∀ w ∈ ws, w ∈ vs
  apart : ws.Pairwise fun w w' => w.same c w' = false
  cover : ∀ v ∈ vs, ∃ w ∈ ws, w.same c v = true

/-- As many are counted as stand for all. -/
theorem exists_representatives (c : Collation) (vs : List Value) :
    ∃ ws : List Value, ws.length = distinctCount c vs ∧ Represents c ws vs := by
  refine ⟨Sql.firstOfEach [c] (fun v => [v]) vs, rfl, fun w => Sql.mem_of_mem_firstOfEach (compareRows_singleton c),
    (Sql.pairwise_firstOfEach (compareRows_singleton c) vs).imp fun h => decide_eq_false h, fun v hv => ?_⟩
  obtain ⟨w, hw, hsame⟩ := Sql.exists_mem_firstOfEach (compareRows_singleton c) hv
  exact ⟨w, hw, decide_eq_true hsame⟩

namespace Represents

variable {c : Collation} {ws vs : List Value} {w w' : Value} {name : Value → String} {names : List String}

theorem eq_of_same (h : Represents c ws vs) (hw : w ∈ ws) (hw' : w' ∈ ws) (hsame : w.same c w' = true) : w = w' := by
  have hsymm : Std.Symm fun w w' : Value => w.same c w' = false := ⟨fun w w' h => by rw [Value.same_comm, h]⟩
  by_contra hne
  rw [h.apart.forall hw hw' hne] at hsame
  cases hsame

variable (h : Represents c ws vs) (hname : ∀ v ∈ vs, ∀ w ∈ vs, name v = name w ↔ v.same .binary w = true)
  (hnames : ∀ x, x ∈ names ↔ ∃ v ∈ vs, name v = x)
include h hname hnames

/-- The names of those that stand for all are different ones. -/
theorem subperm_names : (ws.map name).Subperm names := by
  refine List.subperm_of_subset ?_ fun x hx => ?_
  · rw [List.Nodup, List.pairwise_map]
    refine h.apart.imp_of_mem fun {w w'} hw hw' hfalse heq => ?_
    rw [Value.same_of_same_binary ((hname w (h.mem w hw) w' (h.mem w' hw')).1 heq)] at hfalse
    cases hfalse
  · obtain ⟨w, hw, rfl⟩ := List.mem_map.1 hx
    exact (hnames _).2 ⟨w, h.mem w hw, rfl⟩

theorem length_le : ws.length ≤ names.length := by
  have hle := (h.subperm_names hname hnames).length_le
  rwa [List.length_map] at hle

/-- With as many names, what is compared as the same has the same name. -/
theorem same_of_length_eq (heq : ws.length = names.length) {v v' : Value} (hv : v ∈ vs) (hv' : v' ∈ vs)
    (hsame : v.same c v' = true) : v.same .binary v' = true := by
  have hperm : (ws.map name).Perm names :=
    (h.subperm_names hname hnames).perm_of_length_le (by rw [List.length_map, heq])
  -- each value has a representative of its own name, and representatives that are the same are one
  have hown : ∀ v ∈ vs, ∃ u ∈ ws, name u = name v ∧ u.same c v = true := fun v hv => by
    obtain ⟨u, hu, huv⟩ := List.mem_map.1 (hperm.mem_iff.2 ((hnames _).2 ⟨v, hv, rfl⟩))
    exact ⟨u, hu, huv, Value.same_of_same_binary ((hname u (h.mem u hu) v hv).1 huv)⟩
  obtain ⟨u, hu, huv, husame⟩ := hown v hv
  obtain ⟨u', hu', huv', husame'⟩ := hown v' hv'
  rw [Value.same_comm] at husame'
  have hone := h.eq_of_same hu hu' (Value.same_trans (Value.same_trans husame hsame) husame')
  rw [← hname v hv v' hv', ← huv, ← huv', hone]

/-- If that is so, there are as many names. -/
theorem names_length_le (hdifferent : names.Nodup) (htells : ∀ v ∈ vs, ∀ w ∈ vs, v.same c w = true → v.same .binary w = true) :
    names.length ≤ ws.length := by
  have hsub : names ⊆ ws.map name := fun x hx => by
    obtain ⟨v, hv, rfl⟩ := (hnames x).1 hx
    obtain ⟨u, hu, hsame⟩ := h.cover v hv
    rw [← (hname u (h.mem u hu) v hv).2 (htells u (h.mem u hu) v hv hsame)]
    exact List.mem_map_of_mem hu
  have hle := (List.subperm_of_subset hdifferent hsub).length_le
  rwa [List.length_map] at hle

end Represents

/-! ## The call graph -/

/-- The classes that are listed on their own. -/
def listed (d : Database) : List Value := if d.hasTable "classes" then d.valuesIn "classes" "name" else []

/-- The classes and the names of the methods that they declare. -/
def methodRows (d : Database) : List (Value × Value) := d.rowsIn "methods" "class_name" "method_name"

/-- The classes and the names that they call. -/
def callRows (d : Database) : List (Value × Value) := d.rowsIn "calls" "caller_class" "method_name"

/-- The classes with facts, row by row. -/
def classValues (d : Database) : List Value := (d.methodRows ++ d.callRows).map Prod.fst

/-- The facts that the values tell when classes and methods have these names. -/
def facts (d : Database) (cls name : Value → String) : List Fact :=
  d.listed.map (fun v => .mention (cls v)) ++ d.methodRows.map (fun p => .method (cls p.1) (name p.2)) ++
    d.callRows.map fun p => .call (cls p.1) (name p.2)

/-- The tables that the facts are taken from are no views. -/
structure HasTables (d : Database) : Prop where
  methods : ∃ r, d.relation? "methods" = some r
  calls : ∃ r, d.relation? "calls" = some r
  classes : d.hasTable "classes" = true → ∃ r, d.relation? "classes" = some r

/-- The rows that are selected are those of the values, which are legible. -/
structure Selected (d : Database) (r : FactRows) : Prop where
  classes_perm : r.classes.Perm (d.listed.map fun v => [v.cell])
  methods_perm : r.methods.Perm (d.methodRows.map fun p => [p.1.cell, p.2.cell])
  calls_perm : r.calls.Perm (d.callRows.map fun p => [p.1.cell, p.2.cell])
  classes_legible : ∀ v ∈ d.listed ++ d.classValues, v.IsLegible
  methods_legible : ∀ p ∈ d.methodRows ++ d.callRows, p.2.IsLegible

theorem selected_of_factRows {r : FactRows} (h : d.HasTables) (hr : d.factRows = .ok r) : d.Selected r := by
  simp only [factRows, bind_eq_ok_iff] at hr
  obtain ⟨classes, hclasses, methods, hmethods, calls, hcalls, hr⟩ := hr
  cases hr
  obtain ⟨hclassesPerm, hlisted⟩ : classes.Perm (d.listed.map fun v => [v.cell]) ∧ ∀ v ∈ d.listed, v.IsLegible := by
    rw [listedClasses] at hclasses
    rw [listed]
    split at hclasses
    · next htable =>
      obtain ⟨r, hr⟩ := h.classes htable
      rw [if_pos htable]
      exact select_single hr hclasses
    · next htable =>
      cases hclasses
      rw [if_neg htable]
      exact ⟨List.Perm.refl _, fun v hv => absurd hv List.not_mem_nil⟩
  obtain ⟨_, hmethodTable⟩ := h.methods
  obtain ⟨_, hcallTable⟩ := h.calls
  obtain ⟨-, hmethodsPerm, hmethodRows⟩ := select_pair hmethodTable hmethods
  obtain ⟨-, hcallsPerm, hcallRows⟩ := select_pair hcallTable hcalls
  have hrows : ∀ p ∈ d.methodRows ++ d.callRows, p.1.IsLegible ∧ p.2.IsLegible :=
    List.forall_mem_append.2 ⟨hmethodRows, hcallRows⟩
  exact ⟨hclassesPerm, hmethodsPerm, hcallsPerm,
    List.forall_mem_append.2 ⟨hlisted, List.forall_mem_map.2 fun p hp => (hrows p hp).1⟩, fun p hp => (hrows p hp).2⟩

/-- The facts of the rows are those of the values, in some order. -/
theorem Selected.facts_perm {r : FactRows} (h : d.Selected r) :
    r.facts.Perm (d.facts (fun v => v.cell.className r.otherClasses) fun v => v.cell.methodName) := by
  have hfacts := ((h.classes_perm.filterMap (mentionOfRow r.otherClasses)).append
    (h.methods_perm.filterMap (factOfRow r.otherClasses .method))).append
      (h.calls_perm.filterMap (factOfRow r.otherClasses .call))
  simpa only [FactRows.facts, facts, List.filterMap_map, Function.comp_def, factOfRow, mentionOfRow, List.filterMap_eq_map']
    using hfacts

theorem Selected.mem_otherClasses {r : FactRows} (h : d.Selected r) (n : OtherName) :
    n ∈ r.otherClasses ↔ ∃ v ∈ d.listed ++ d.classValues, OtherName.ofValue? v = some n := by
  have hperm := (h.classes_perm.append h.methods_perm).append h.calls_perm
  have hcells : ((d.listed.map fun v => [v.cell]) ++ (d.methodRows.map fun p => [p.1.cell, p.2.cell]) ++
      d.callRows.map fun p => [p.1.cell, p.2.cell]).filterMap (fun row => row.head?.bind Cell.otherName?) =
      (d.listed ++ d.classValues).filterMap fun v => v.cell.otherName? := by
    simp only [classValues, List.filterMap_append, List.filterMap_map, List.map_append, Function.comp_def, List.head?_cons,
      Option.bind_some, List.append_assoc]
  rw [FactRows.otherClasses, (hperm.filterMap _).mem_iff, hcells, List.mem_filterMap]
  exact exists_congr fun v => and_congr_right fun hv => by rw [Cell.otherName?_cell (h.classes_legible v hv)]

/-- All names can be told apart. -/
structure IsNamed (d : Database) : Prop where
  classes : AreNamed OtherName.name (d.listed ++ d.classValues)
  methods : AreNamed OtherName.keyName ((d.methodRows ++ d.callRows).map Prod.snd)

/-- A call graph has the facts in the tables, under names that are the same just when the values are. -/
structure Names (d : Database) (cls name : Value → String) (g : CallGraph) : Prop where
  cls_eq_iff : ∀ v ∈ d.listed ++ d.classValues, ∀ w ∈ d.listed ++ d.classValues, cls v = cls w ↔ v.same .binary w = true
  name_eq_iff : ∀ p ∈ d.methodRows ++ d.callRows, ∀ q ∈ d.methodRows ++ d.callRows,
    name p.2 = name q.2 ↔ p.2.same .binary q.2 = true
  facts_perm : ∃ fs : List Fact, fs.Perm (d.facts cls name) ∧ g = .ofFacts fs

theorem exists_names {g : CallGraph} (h : d.HasTables) (hnamed : d.IsNamed) (hg : d.callGraph = .ok g) :
    ∃ cls name, d.Names cls name g := by
  obtain ⟨r, hr, rfl⟩ := map_eq_ok_iff.1 hg
  have hselected := selected_of_factRows h hr
  refine ⟨_, _, fun v hv w hw => ?_, fun p hp q hq => ?_, r.facts, hselected.facts_perm, rfl⟩
  · exact Cell.className_eq_iff hnamed.classes hselected.mem_otherClasses hv hw (hselected.classes_legible v hv)
      (hselected.classes_legible w hw)
  · exact Cell.methodName_eq_iff hnamed.methods (List.mem_map_of_mem hp) (List.mem_map_of_mem hq)
      (hselected.methods_legible p hp) (hselected.methods_legible q hq)

end Database

/-! ## Numbers of facts -/

namespace CallGraph

variable {g : CallGraph} {c : String}

/-- The classes that declare a name, or call one. -/
def withFacts (g : CallGraph) : List String := g.names.filter fun c => g.facts c ≠ .none

theorem mem_withFacts : c ∈ g.withFacts ↔ ∃ x, x ∈ g.declared c ∨ x ∈ g.called c := by
  have hnone : (¬ ∃ x, x ∈ g.declared c ∨ x ∈ g.called c) → g.facts c = .none := fun h => by
    have hdeclared : g.declared c = .empty :=
      NameSet.ext_mem fun x => iff_of_false (fun hx => h ⟨x, .inl hx⟩) (NameSet.not_mem_empty x)
    have hcalled : g.called c = .empty :=
      NameSet.ext_mem fun x => iff_of_false (fun hx => h ⟨x, .inr hx⟩) (NameSet.not_mem_empty x)
    exact (congrArg₂ ClassFacts.mk hdeclared hcalled :)
  rw [withFacts, List.mem_filter, decide_eq_true_iff]
  constructor
  · intro h
    by_contra hempty
    exact h.2 (hnone hempty)
  · rintro ⟨x, hx⟩
    refine ⟨hx.elim mem_names_of_mem_declared mem_names_of_mem_called, fun hfacts => ?_⟩
    rw [declared, called, hfacts] at hx
    exact hx.elim (NameSet.not_mem_empty x) (NameSet.not_mem_empty x)

/-- Pairs that are shared out among names are counted once each. -/
theorem sum_size_eq {f : String → NameSet} {names : List String} {pairs : List (String × String)} (hnames : names.Nodup)
    (hmem : ∀ c x, x ∈ f c ↔ (c, x) ∈ pairs) (hin : ∀ p ∈ pairs, p.1 ∈ names) :
    (names.map fun c => (f c).size).sum = pairs.dedup.length := by
  have hlength : (names.map fun c => (f c).size).sum = (names.flatMap fun c => (f c).toList.map fun x => (c, x)).length := by
    rw [List.length_flatMap]
    congr 1
    exact List.map_congr_left fun c _ => (List.length_map _).symm
  have hnodup : (names.flatMap fun c => (f c).toList.map fun x => (c, x)).Nodup := by
    refine List.nodup_flatMap.2 ⟨fun c _ => (NameSet.nodup _).map fun x y h => (Prod.mk.inj h).2, ?_⟩
    refine hnames.imp fun {c c'} hne p hp hp' => ?_
    obtain ⟨x, -, rfl⟩ := List.mem_map.1 hp
    obtain ⟨y, -, hy⟩ := List.mem_map.1 hp'
    exact hne (Prod.mk.inj hy).1.symm
  rw [hlength]
  refine ((List.perm_ext_iff_of_nodup hnodup (List.nodup_dedup pairs)).2 fun p => ?_).length_eq
  rw [List.mem_dedup, List.mem_flatMap]
  constructor
  · rintro ⟨c, -, hp⟩
    obtain ⟨x, hx, rfl⟩ := List.mem_map.1 hp
    exact (hmem c x).1 hx
  · intro hp
    exact ⟨p.1, hin p hp, List.mem_map_of_mem ((hmem p.1 p.2).2 hp)⟩

/-- A list has as many members as different ones just when none is repeated. -/
theorem length_dedup_eq_iff {α : Type} [DecidableEq α] {l : List α} : l.dedup.length = l.length ↔ l.Nodup :=
  ⟨fun h => List.dedup_eq_self.1 ((List.dedup_sublist l).eq_of_length h), fun h => by rw [List.dedup_eq_self.2 h]⟩

end CallGraph

namespace Database

variable {d : Database} {g : CallGraph} {cls name : Value → String} {table first second : String}

/-- No two rows have the same values. -/
def Distinct (rows : List (Value × Value)) : Prop :=
  rows.Pairwise fun p q => ¬ (p.1.same .binary q.1 = true ∧ p.2.same .binary q.2 = true)

theorem nodup_names_iff {rows : List (Value × Value)}
    (hcls : ∀ p ∈ rows, ∀ q ∈ rows, cls p.1 = cls q.1 ↔ p.1.same .binary q.1 = true)
    (hname : ∀ p ∈ rows, ∀ q ∈ rows, name p.2 = name q.2 ↔ p.2.same .binary q.2 = true) :
    (rows.map fun p => (cls p.1, name p.2)).Nodup ↔ Distinct rows := by
  rw [List.Nodup, List.pairwise_map]
  refine List.Pairwise.iff_of_mem fun {p q} hp hq => ?_
  rw [ne_eq, Prod.mk.injEq, hcls p hp q hq, hname p hp q hq]

/-! ## Numbers of classes -/

section Names

variable (hnames : d.Names cls name g)
include hnames

theorem Names.mem_declared {c x : String} : x ∈ g.declared c ↔ ∃ p ∈ d.methodRows, (cls p.1, name p.2) = (c, x) := by
  obtain ⟨fs, hperm, rfl⟩ := hnames.facts_perm
  rw [CallGraph.mem_declared_ofFacts, hperm.mem_iff]
  simp [facts]

theorem Names.mem_called {c x : String} : x ∈ g.called c ↔ ∃ p ∈ d.callRows, (cls p.1, name p.2) = (c, x) := by
  obtain ⟨fs, hperm, rfl⟩ := hnames.facts_perm
  rw [CallGraph.mem_called_ofFacts, hperm.mem_iff]
  simp [facts]

theorem Names.mem_names {x : String} : x ∈ g.names ↔ ∃ v ∈ d.listed ++ d.classValues, cls v = x := by
  obtain ⟨fs, hperm, rfl⟩ := hnames.facts_perm
  have hcls : (d.facts cls name).map Fact.cls = (d.listed ++ d.classValues).map cls := by
    simp only [facts, classValues, List.map_append, List.map_map, List.append_assoc]
    rfl
  rw [CallGraph.names_ofFacts, List.mem_eraseDups, (hperm.map _).mem_iff, hcls, List.mem_map]

theorem Names.mem_withFacts {x : String} : x ∈ g.withFacts ↔ ∃ v ∈ d.classValues, cls v = x := by
  simp only [CallGraph.mem_withFacts, hnames.mem_declared, hnames.mem_called, Prod.mk.injEq, classValues, List.mem_map,
    List.mem_append]
  constructor
  · rintro ⟨y, ⟨p, hp, hx, -⟩ | ⟨p, hp, hx, -⟩⟩
    · exact ⟨p.1, ⟨p, .inl hp, rfl⟩, hx⟩
    · exact ⟨p.1, ⟨p, .inr hp, rfl⟩, hx⟩
  · rintro ⟨-, ⟨p, hp | hp, rfl⟩, hx⟩
    · exact ⟨name p.2, .inl ⟨p, hp, hx, rfl⟩⟩
    · exact ⟨name p.2, .inr ⟨p, hp, hx, rfl⟩⟩

end Names

/-- The names of the classes are told apart by how they are compared. -/
def TellsClasses (d : Database) (c : Collation) : Prop :=
  ∀ v ∈ d.classValues, ∀ w ∈ d.classValues, v.same c w = true → v.same .binary w = true

theorem tellsClasses_binary (d : Database) : d.TellsClasses .binary := fun _ _ _ _ h => h

/-- There are no more different values than classes with facts, and as many when these are told apart. -/
theorem distinctCount_classValues (hnames : d.Names cls name g) (c : Collation) :
    distinctCount c d.classValues ≤ g.withFacts.length ∧
      (distinctCount c d.classValues = g.withFacts.length ↔ d.TellsClasses c) := by
  obtain ⟨ws, hcount, hws⟩ := exists_representatives c d.classValues
  have hcls : ∀ v ∈ d.classValues, ∀ w ∈ d.classValues, cls v = cls w ↔ v.same .binary w = true := fun v hv w hw =>
    hnames.cls_eq_iff v (List.mem_append_right _ hv) w (List.mem_append_right _ hw)
  have hmem : ∀ x, x ∈ g.withFacts ↔ ∃ v ∈ d.classValues, cls v = x := fun x => hnames.mem_withFacts
  have hdifferent : g.withFacts.Nodup := g.classes.nodup.filter _
  rw [← hcount]
  exact ⟨hws.length_le hcls hmem, fun heq v hv w hw => hws.same_of_length_eq hcls hmem heq hv hw,
    fun htells => Nat.le_antisymm (hws.length_le hcls hmem) (hws.names_length_le hcls hmem hdifferent htells)⟩

/-- No class is listed only. -/
def ListsNoOther (d : Database) : Prop := ∀ v ∈ d.listed, ∃ w ∈ d.classValues, v.same .binary w = true

/-- All classes have facts when none is listed only. -/
theorem withFacts_length (hnames : d.Names cls name g) :
    g.withFacts.length ≤ g.size ∧ (g.withFacts.length = g.size ↔ d.ListsNoOther) := by
  have hsize : g.size = g.names.length := (List.length_map _).symm
  rw [hsize]
  refine ⟨List.length_filter_le _ _, ?_⟩
  have hall : g.withFacts.length = g.names.length ↔ ∀ x ∈ g.names, x ∈ g.withFacts := by
    rw [CallGraph.withFacts, List.length_filter_eq_length_iff]
    exact forall₂_congr fun x hx => by rw [List.mem_filter, and_iff_right hx]
  rw [hall]
  constructor
  · intro h v hv
    have hv' := List.mem_append_left d.classValues hv
    obtain ⟨w, hw, hwv⟩ := hnames.mem_withFacts.1 (h _ (hnames.mem_names.2 ⟨v, hv', rfl⟩))
    exact ⟨w, hw, (hnames.cls_eq_iff v hv' w (List.mem_append_right _ hw)).1 hwv.symm⟩
  · intro h x hx
    obtain ⟨v, hv, rfl⟩ := hnames.mem_names.1 hx
    refine hnames.mem_withFacts.2 ?_
    obtain hlisted | hfacts := List.mem_append.1 hv
    · obtain ⟨w, hw, hsame⟩ := h v hlisted
      exact ⟨w, hw, ((hnames.cls_eq_iff v hv w (List.mem_append_right _ hw)).2 hsame).symm⟩
    · exact ⟨v, hfacts, rfl⟩

/-! ## Numbers of declarations and calls -/

/-- The names that rows tell are no more than the rows, and as many when no two rows are the same. -/
theorem sum_size_rows (hnames : d.Names cls name g) {rows : List (Value × Value)}
    {f : String → NameSet} (hrows : ∀ p ∈ rows, p ∈ d.methodRows ++ d.callRows)
    (hmem : ∀ c x, x ∈ f c ↔ (c, x) ∈ rows.map fun p => (cls p.1, name p.2)) :
    (g.names.map fun c => (f c).size).sum ≤ rows.length ∧
      ((g.names.map fun c => (f c).size).sum = rows.length ↔ Distinct rows) := by
  have hclass : ∀ p ∈ rows, p.1 ∈ d.listed ++ d.classValues := fun p hp =>
    List.mem_append_right _ (List.mem_map_of_mem (hrows p hp))
  have hin : ∀ q ∈ rows.map (fun p => (cls p.1, name p.2)), q.1 ∈ g.names := fun q hq => by
    obtain ⟨p, hp, rfl⟩ := List.mem_map.1 hq
    exact hnames.mem_names.2 ⟨p.1, hclass p hp, rfl⟩
  have hnodup : g.names.Nodup := g.classes.nodup
  have hlength : (rows.map fun p => (cls p.1, name p.2)).length = rows.length := List.length_map _
  rw [CallGraph.sum_size_eq hnodup hmem hin, ← hlength, CallGraph.length_dedup_eq_iff]
  exact ⟨(List.dedup_sublist _).length_le, nodup_names_iff
    (fun p hp q hq => hnames.cls_eq_iff _ (hclass p hp) _ (hclass q hq))
    fun p hp q hq => hnames.name_eq_iff p (hrows p hp) q (hrows q hq)⟩

theorem sum_declared (hnames : d.Names cls name g) :
    (g.names.map fun c => (g.declared c).size).sum ≤ d.methodRows.length ∧
      ((g.names.map fun c => (g.declared c).size).sum = d.methodRows.length ↔ Distinct d.methodRows) := by
  refine sum_size_rows hnames (fun p hp => List.mem_append_left _ hp) fun c x => ?_
  rw [hnames.mem_declared, List.mem_map]

theorem sum_called (hnames : d.Names cls name g) :
    (g.names.map fun c => (g.called c).size).sum ≤ d.callRows.length ∧
      ((g.names.map fun c => (g.called c).size).sum = d.callRows.length ↔ Distinct d.callRows) := by
  refine sum_size_rows hnames (fun p hp => List.mem_append_right _ hp) fun c x => ?_
  rw [hnames.mem_called, List.mem_map]

/-! ## Counts of a repository -/

/-- The values of two columns are counted together as they are compared. -/
theorem countTogether_eq_ok {a b : String × String} {c c' : Option Collation} {vs ws : Except Sql.Problem (List Value)} {n : Nat}
    (ha : d.column? a.1 a.2 = some (c, vs)) (hb : d.column? b.1 b.2 = some (c', ws)) (hn : d.countTogether a b = .ok n) :
    ∃ vs' ws', vs = .ok vs' ∧ ws = .ok ws' ∧ n = distinctCount (d.commonCollation a b) (vs' ++ ws') := by
  rw [countTogether_eq ha hb, mapError_eq_ok_iff] at hn
  cases hc : d.commonCollation a b with
  | unknown name =>
    rw [hc] at hn
    cases hn
  | _ =>
    rw [hc] at hn
    obtain ⟨vs', hvs, hn⟩ := bind_eq_ok_iff.1 hn
    obtain ⟨ws', hws, hn⟩ := bind_eq_ok_iff.1 hn
    exact ⟨vs', ws', hvs, hws, (Except.ok.inj hn).symm⟩

/-- What the counts of a repository with a call graph are. -/
theorem repository_counts {p : Path} {r : Repository} (h : d.HasTables) (hg : d.callGraph = .ok g)
    (hr : d.repository p = .ok r) : r.classCount = distinctCount d.classCollation d.classValues ∧
      r.methodCount = d.methodRows.length ∧ r.callCount = d.callRows.length := by
  obtain ⟨-, ⟨_, hmethods⟩, _, hcalls⟩ := exists_callGraph_stages.1 ⟨g, hg⟩
  obtain ⟨_, hmethodTable⟩ := h.methods
  obtain ⟨_, hcallTable⟩ := h.calls
  obtain ⟨⟨i, j, hpair⟩, -⟩ := select_pair hmethodTable hmethods
  obtain ⟨⟨i', j', hpair'⟩, -⟩ := select_pair hcallTable hcalls
  obtain ⟨c, values, hc, hvalues⟩ := hpair.exists_column?
  obtain ⟨c', values', hc', hvalues'⟩ := hpair'.exists_column?
  simp only [Database.repository, bind_eq_ok_iff] at hr
  obtain ⟨methods, hmethods, calls, hcalls, classes, hclasses, hr⟩ := hr
  cases hr
  refine ⟨?_, hpair.count_eq hmethods, hpair'.count_eq hcalls⟩
  obtain ⟨vs, ws, hvs, hws, rfl⟩ := countTogether_eq_ok (a := ("methods", "class_name")) (b := ("calls", "caller_class")) hc hc'
    hclasses
  rw [classValues, List.map_append, hvalues vs hvs, hvalues' ws hws]
  rfl

end Database

end CouplingTree
