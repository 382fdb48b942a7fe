import CouplingTree.Proofs.FactTables
import CouplingTree.Proofs.Records

/-!
# Exports that are read back

A call graph is exported as one record for each class, or as a database with a row for each name that a class declares or
calls. Both exports make it again. Without the table of classes, the classes without any name are lost, and the others come
in the order in which the rows name them.

* `Database.callGraph_of_lists` : what tables of texts tell.
* `Database.FactsOf` : the rows are those of a call graph, in any order.
* `Database.FactsOf.describe_ofRows` : with the classes in front they make it again.
* `Database.FactsOf.describe_ofRowsAlone`, `Database.FactsOf.mem_firstNames` : what they make without the classes.
* `CallGraph.reloaded` : the two formats.
-/

namespace CouplingTree

namespace Database

variable {d : Database} {g : CallGraph} {classes : List String} {methods calls : List (String × String)}

/-- The facts of rows: the classes that are listed, then the methods, then the calls. -/
def factsOfRows (classes : List String) (methods calls : List (String × String)) : List Fact :=
  classes.map .mention ++ methods.map (fun m => .method m.1 m.2) ++ calls.map fun m => .call m.1 m.2

theorem callGraph_of_lists (hclasses : d.listedClasses = .ok (classes.map fun c => [.text c]))
    (hmethods : d.Lists "methods" ["class_name", "method_name"] (methods.map fun m => [m.1, m.2]))
    (hcalls : d.Lists "calls" ["caller_class", "method_name"] (calls.map fun m => [m.1, m.2])) :
    d.callGraph = .ok (.ofFacts (factsOfRows classes methods calls)) := by
  have hrows : d.factRows = .ok ⟨classes.map fun c => [.text c], methods.map fun m => [.text m.1, .text m.2],
      calls.map fun m => [.text m.1, .text m.2]⟩ := by
    rw [factRows, hclasses, select_of_lists hmethods, select_of_lists hcalls, List.map_map, List.map_map]
    rfl
  rw [callGraph, hrows, factsOfRows, ← FactRows.facts_text]
  rfl

/-- The tables of methods and calls have the names that the classes of a call graph declare and call, in any order. -/
structure FactsOf (d : Database) (g : CallGraph) (methods calls : List (String × String)) : Prop where
  methods_listed : d.Lists "methods" ["class_name", "method_name"] (methods.map fun m => [m.1, m.2])
  calls_listed : d.Lists "calls" ["caller_class", "method_name"] (calls.map fun m => [m.1, m.2])
  mem_methods : ∀ c x, (c, x) ∈ methods ↔ x ∈ g.declared c
  mem_calls : ∀ c x, (c, x) ∈ calls ↔ x ∈ g.called c

theorem names_factsOfRows (classes : List String) (methods calls : List (String × String)) :
    (CallGraph.ofFacts (factsOfRows classes methods calls)).names =
      (classes ++ (methods ++ calls).map Prod.fst).eraseDups := by
  rw [CallGraph.names_ofFacts, factsOfRows, List.map_append, List.map_append, List.map_append, List.append_assoc]
  simp only [List.map_map]
  congr 2
  exact List.map_id classes

namespace FactsOf

variable (h : d.FactsOf g methods calls)
include h

theorem mem_declared (classes : List String) (c x : String) :
    .method c x ∈ factsOfRows classes methods calls ↔ x ∈ g.declared c := by
  rw [← h.mem_methods]
  simp [factsOfRows]

theorem mem_called (classes : List String) (c x : String) :
    .call c x ∈ factsOfRows classes methods calls ↔ x ∈ g.called c := by
  rw [← h.mem_calls]
  simp [factsOfRows]

/-- What the rows name is just the classes that declare or call something. -/
theorem mem_firstNames {c : String} :
    c ∈ ((methods ++ calls).map Prod.fst).eraseDups ↔ c ∈ g.names ∧ g.facts c ≠ .none := by
  have hnamed : c ∈ ((methods ++ calls).map Prod.fst).eraseDups ↔ (∃ x, x ∈ g.declared c) ∨ ∃ x, x ∈ g.called c := by
    rw [List.mem_eraseDups, List.map_append, List.mem_append]
    simp only [List.mem_map, Prod.exists, exists_and_right, exists_eq_right, h.mem_methods, h.mem_calls]
  have hnone : g.facts c = .none ↔ (∀ x, x ∉ g.declared c) ∧ ∀ x, x ∉ g.called c := by
    constructor
    · intro hfacts
      rw [CallGraph.declared, CallGraph.called, hfacts]
      exact ⟨NameSet.not_mem_empty, NameSet.not_mem_empty⟩
    · rintro ⟨hdeclared, hcalled⟩
      refine CallGraph.facts_ext (h := .empty) (fun x => iff_of_false (hdeclared x) (NameSet.not_mem_empty x))
        fun x => iff_of_false (hcalled x) (NameSet.not_mem_empty x)
  have hsome : c ∈ ((methods ++ calls).map Prod.fst).eraseDups ↔ g.facts c ≠ .none := by
    rw [hnamed, Ne, hnone, not_and_or]
    simp only [not_forall, not_not]
  rw [hsome]
  exact ⟨fun hc => ⟨by_contra fun hm => hc (CallGraph.facts_of_not_mem hm), hc⟩, And.right⟩

/-- The listed classes, of which some may come again, and behind them the rows, make the call graph again. -/
theorem describe_ofRows (hlisted : classes.eraseDups = g.names) :
    (CallGraph.ofFacts (factsOfRows classes methods calls)).describe = g.describe := by
  refine CallGraph.describe_ofFacts ?_ (h.mem_declared classes) (h.mem_called classes)
  have hknown : ∀ c ∈ (methods ++ calls).map Prod.fst, c ∈ classes := fun c hc => by
    have hmem := (h.mem_firstNames.1 (List.mem_eraseDups.2 hc)).1
    rwa [← hlisted, List.mem_eraseDups] at hmem
  rw [names_factsOfRows, eraseDups_append_of_subset hknown, hlisted]

theorem describe_ofRowsAlone : (CallGraph.ofFacts (factsOfRows [] methods calls)).describe =
    ((methods ++ calls).map Prod.fst).eraseDups.map fun c => (c, g.facts c) := by
  rw [CallGraph.describe_eq, names_factsOfRows, List.nil_append]
  refine List.map_congr_left fun c _ => ?_
  have hfacts : (CallGraph.ofFacts (factsOfRows [] methods calls)).facts c = g.facts c :=
    CallGraph.facts_ext (fun x => CallGraph.mem_declared_ofFacts.trans (h.mem_declared [] c x))
      fun x => CallGraph.mem_called_ofFacts.trans (h.mem_called [] c x)
  rw [hfacts]

theorem callGraph_of_classes (htable : d.hasTable "classes" = true)
    (hclasses : d.Lists "classes" ["name"] (classes.map fun c => [c])) (hlisted : classes.eraseDups = g.names) :
    ∃ g', d.callGraph = .ok g' ∧ g'.describe = g.describe := by
  have hrows : d.listedClasses = .ok (classes.map fun c => [.text c]) := by
    rw [listedClasses, if_pos htable, select_of_lists hclasses, List.map_map]
    rfl
  exact ⟨_, callGraph_of_lists hrows h.methods_listed h.calls_listed, h.describe_ofRows hlisted⟩

theorem callGraph_of_no_classes (htable : d.hasTable "classes" = false) : ∃ g', d.callGraph = .ok g' ∧
    g'.describe = ((methods ++ calls).map Prod.fst).eraseDups.map fun c => (c, g.facts c) := by
  have hlisted : d.listedClasses = .ok (([] : List String).map fun c => [.text c]) := by
    rw [listedClasses, htable]
    rfl
  exact ⟨_, callGraph_of_lists hlisted h.methods_listed h.calls_listed, h.describe_ofRowsAlone⟩

end FactsOf

end Database

/-- **Export and reload give a call graph back**, in both formats. A database without the classes gives it back without
those that declare and call nothing; the others are ordered as the rows of the methods, and then of the calls, first name
them. -/
theorem CallGraph.reloaded (g : CallGraph) (hnames : ∀ c ∈ g.names, c ≠ "") :
    (∃ g', ofRecords (g.records.map Record.toJson) = .ok g' ∧ g'.describe = g.describe) ∧
      ∀ (d : Database) (methods calls : List (String × String)), d.FactsOf g methods calls →
        (d.hasTable "classes" = true → d.Lists "classes" ["name"] (g.names.map fun c => [c]) →
          ∃ g', d.callGraph = .ok g' ∧ g'.describe = g.describe) ∧
        (d.hasTable "classes" = false → ∃ g', d.callGraph = .ok g' ∧
          g'.describe = ((methods ++ calls).map Prod.fst).eraseDups.map (fun c => (c, g.facts c)) ∧
          ∀ c, c ∈ ((methods ++ calls).map Prod.fst).eraseDups ↔ c ∈ g.names ∧ g.facts c ≠ .none) := by
  refine ⟨⟨_, ofRecords_toJson fun r hr => hnames _ ?_, describe_records g⟩, fun d methods calls h => ⟨?_, fun htable => ?_⟩⟩
  · rw [← names_records]
    exact List.mem_map_of_mem hr
  · exact fun htable hclasses => h.callGraph_of_classes htable hclasses (eraseDups_of_nodup (l := g.names) g.classes.nodup)
  · obtain ⟨g', hg', hdescribe⟩ := h.callGraph_of_no_classes htable
    exact ⟨g', hg', hdescribe, fun c => h.mem_firstNames⟩

/-- Three classes, one of which has no names. The class that is named last comes first when only the rows tell. -/
theorem three_classes_reloaded :
    let g := CallGraph.ofFacts [.mention "Idle", .call "Caller" "save", .method "Store" "save"]
    let classes := Table.ofTexts "classes" ["name"] [["Idle"], ["Caller"], ["Store"]]
    let methods := Table.ofTexts "methods" ["class_name", "method_name"] [["Store", "save"]]
    let calls := Table.ofTexts "calls" ["caller_class", "method_name"] [["Caller", "save"]]
    (∃ g', CallGraph.ofRecords (g.records.map Record.toJson) = .ok g' ∧ g'.describe = g.describe) ∧
      (∃ g', Database.callGraph { tables := [classes, methods, calls] } = .ok g' ∧ g'.describe = g.describe) ∧
      ∃ g', Database.callGraph { tables := [methods, calls] } = .ok g' ∧
        g'.describe = [("Store", g.facts "Store"), ("Caller", g.facts "Caller")] := by
  intro g classes methods calls
  have hlists : ∀ ts : List Table, Database.find? { tables := ts } "methods" = some methods →
      Database.find? { tables := ts } "calls" = some calls →
      Database.FactsOf { tables := ts } g [("Store", "save")] [("Caller", "save")] := fun ts hm hc =>
    { methods_listed := Database.lists_ofTexts hm (by decide) (by decide) (by decide)
      calls_listed := Database.lists_ofTexts hc (by decide) (by decide) (by decide)
      mem_methods := fun c x => by
        rw [CallGraph.mem_declared_ofFacts]
        simp
      mem_calls := fun c x => by
        rw [CallGraph.mem_called_ofFacts]
        simp }
  have hall : Database.FactsOf { tables := [classes, methods, calls] } g [("Store", "save")] [("Caller", "save")] :=
    hlists _ (by rw [Database.find?, List.find?_cons_of_neg (by decide), List.find?_cons_of_pos (by decide)])
      (by rw [Database.find?, List.find?_cons_of_neg (by decide), List.find?_cons_of_neg (by decide),
        List.find?_cons_of_pos (by decide)])
  have hrows : Database.FactsOf { tables := [methods, calls] } g [("Store", "save")] [("Caller", "save")] :=
    hlists _ (by rw [Database.find?, List.find?_cons_of_pos (by decide)])
      (by rw [Database.find?, List.find?_cons_of_neg (by decide), List.find?_cons_of_pos (by decide)])
  have hclasses : Database.Lists { tables := [classes, methods, calls] } "classes" ["name"] [["Idle"], ["Caller"], ["Store"]] :=
    Database.lists_ofTexts (by rw [Database.find?, List.find?_cons_of_pos (by decide)]) (by decide) (by decide) (by decide)
  have hnames : g.names.map (fun c => [c]) = [["Idle"], ["Caller"], ["Store"]] := by decide
  obtain ⟨hrecords, hdatabases⟩ := CallGraph.reloaded g (by decide)
  obtain ⟨g', hg', hdescribe, -⟩ := (hdatabases _ _ _ hrows).2 rfl
  exact ⟨hrecords, (hdatabases _ _ _ hall).1 rfl (hnames ▸ hclasses), g', hg', hdescribe⟩

end CouplingTree
