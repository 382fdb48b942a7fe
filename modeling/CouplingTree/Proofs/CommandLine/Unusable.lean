import CouplingTree.Proofs.Contract
import CouplingTree.Proofs.Files.Databases

/-!
# Inputs that are of no use

What becomes of the input of a run is settled by what is found at its path, by its format and by what it holds. It is
loaded, or refused as a misuse of the program, or it strands the run.

* `FileTree.Yields` : what a path comes to, one case for each reason.
* `FileTree.verdict` : the verdict on a path, from loading it.
* `FileTree.yields_iff` : they are the same, so that each path comes to one verdict.
* `input_judged` : a run ends as its input is judged.
* `files_strand_runs` : a directory, a file that is no database, and a database without tables strand it.
-/

namespace CouplingTree

/-- What becomes of the input of a run. -/
inductive Verdict
  | loaded (g : CallGraph)
  | refused (e : UsageError)
  | stranded (e : ProgramError)

namespace FileTree

/-- What a path comes to. -/
inductive Yields (t : FileTree) (p : Path) : Verdict → Prop
  | missing (h : t.pathExists p = .ok false) : Yields t p (.refused (.inputNotFound p.text))
  | longName (h : t.find p = .error .nameTooLong) : Yields t p (.stranded (.file ⟨.nameTooLong, p.text⟩))
  | otherFormat {x : FileEntry} (h : t.find p = .ok x) (hformat : SourceFormat.of? p = none) :
    Yields t p (.refused (.unusable ("Unsupported call-fact format: " ++ p.name)))
  -- documents
  | directory (hformat : SourceFormat.of? p = some .json) (h : t.find p = .ok .directory) :
    Yields t p (.stranded (.load (.file ⟨.isADirectory, p.text⟩)))
  | noText {c : Content} {fault : Utf8.Fault} (hformat : SourceFormat.of? p = some .json) (h : t.read p = .ok c)
    (htext : Utf8.decode c.toBytes = .error fault) : Yields t p (.refused (.unusable fault.message))
  | malformed {cs : List Char} {e : Json.ReadError} (hformat : SourceFormat.of? p = some .json)
    (h : t.readText p = .ok cs) (he : Json.readUnmarked fileDepth cs = .error e) (hother : ∀ c, e ≠ .tooDeep c) :
    Yields t p (.refused (.unusable e.message))
  | nested {cs : List Char} {c : Json.Container} (hformat : SourceFormat.of? p = some .json) (h : t.readText p = .ok cs)
    (he : Json.readUnmarked fileDepth cs = .error (.tooDeep c)) : Yields t p (.stranded (.load (.json (.tooDeep c))))
  | noClasses {v : Json} (hformat : SourceFormat.of? p = some .json) (h : t.readJson p = .ok v)
    (hclasses : ∀ records, v.field? "classes" ≠ some (.list records)) :
    Yields t p (.refused (.unusable (p.text ++ ": expected an object with a 'classes' list")))
  | badRecord {v : Json} {records : List Json} {e : RecordError} (hformat : SourceFormat.of? p = some .json)
    (h : t.readJson p = .ok v) (hclasses : v.field? "classes" = some (.list records))
    (he : CallGraph.ofRecords records = .error e) : Yields t p (.refused (.unusable e.message))
  | records {v : Json} {records : List Json} {g : CallGraph} (hformat : SourceFormat.of? p = some .json)
    (h : t.readJson p = .ok v) (hclasses : v.field? "classes" = some (.list records))
    (hg : CallGraph.ofRecords records = .ok g) : Yields t p (.loaded g)
  -- databases
  | undecodable {x : FileEntry} {fault : Utf8.Fault} (hformat : SourceFormat.of? p = some .database) (h : t.find p = .ok x)
    (he : DatabaseAddress.ofPath p = .error (.undecodableAddress fault)) : Yields t p (.refused (.unusable fault.message))
  | badAddress {x : FileEntry} {problem : AddressProblem} {value : String} (hformat : SourceFormat.of? p = some .database)
    (h : t.find p = .ok x) (he : DatabaseAddress.ofPath p = .error (.address problem value)) :
    Yields t p (.stranded (.load (.database (.address problem value))))
  | badDatabase {x : FileEntry} {a : DatabaseAddress} {e : DatabaseError} (hformat : SourceFormat.of? p = some .database)
    (h : t.find p = .ok x) (ha : DatabaseAddress.ofPath p = .ok a)
    (he : (t.openAddress a).2 >>= Database.callGraph = .error e) : Yields t p (.stranded (.load (.database e)))
  | database {x : FileEntry} {a : DatabaseAddress} {g : CallGraph} (hformat : SourceFormat.of? p = some .database)
    (h : t.find p = .ok x) (ha : DatabaseAddress.ofPath p = .ok a)
    (hg : (t.openAddress a).2 >>= Database.callGraph = .ok g) : Yields t p (.loaded g)

/-! ## The verdict from loading -/

/-- The verdict on a path that has something at it. -/
def loadVerdict : Except LoadError CallGraph → Verdict
  | .ok g => .loaded g
  | .error e => if e.blamesContent then .refused (.unusable e.message) else .stranded (.load e)

/-- The verdict on a path. -/
def verdict (t : FileTree) (p : Path) : Verdict :=
  match t.pathExists p with
  | .error e => .stranded (.file e)
  | .ok false => .refused (.inputNotFound p.text)
  | .ok true => loadVerdict (t.loadCallGraph p).2

variable {t : FileTree} {p : Path} {x : FileEntry} {c : Content} {cs : List Char} {v : Json} {w : Verdict}

theorem verdict_of_pathExists (h : t.pathExists p = .ok true) : t.verdict p = loadVerdict (t.loadCallGraph p).2 := by
  simp only [verdict, h]

theorem pathExists_of_find (h : t.find p = .ok x) : t.pathExists p = .ok true := by rw [pathExists, h]

theorem pathExists_of_readText (h : t.readText p = .ok cs) : t.pathExists p = .ok true := by
  cases hread : t.read p with
  | error e =>
    rw [readText, hread] at h
    cases h
  | ok c => exact pathExists_of_read hread

/-! ### Documents -/

theorem load_document (h : SourceFormat.of? p = some .json) :
    (t.loadCallGraph p).2 = t.readJson p >>= CallGraph.ofDocument p.text := by rw [loadCallGraph, h]

theorem readJson_of_readText (h : t.readText p = .ok cs) :
    t.readJson p = (Json.readUnmarked fileDepth cs).mapError .json := by
  rw [readJson, h]
  rfl

theorem ofDocument_of_listed {path : String} {records : List Json} (h : v.field? "classes" = some (.list records)) :
    CallGraph.ofDocument path v = (CallGraph.ofRecords records).mapError .record := by
  rw [CallGraph.ofDocument, h]

theorem ofDocument_of_not_listed {path : String} (h : ∀ records, v.field? "classes" ≠ some (.list records)) :
    CallGraph.ofDocument path v = .error (.noClasses path) := by
  unfold CallGraph.ofDocument
  split
  · next records hrecords => exact absurd hrecords (h records)
  · rfl

theorem loadVerdict_malformed {e : Json.ReadError} (h : ∀ c, e ≠ .tooDeep c) :
    loadVerdict (.error (.json e)) = .refused (.unusable e.message) := by
  cases e with
  | tooDeep c => exact absurd rfl (h c)
  | _ => rfl

/-! ### Databases -/

/-- An address that is opened is that of a path without null characters. -/
theorem openDatabase_of_find (h : t.find p = .ok x) : t.openDatabase p =
    match DatabaseAddress.ofPath p with
    | .error e => (t, .error e)
    | .ok a => t.openAddress a := by
  obtain ⟨loc, hloc, -⟩ := locate_of_find h
  have hnull : '\x00' ∉ p.text.toList := fun hmem => by
    rw [locate, if_pos hmem] at hloc
    cases hloc
  exact if_neg hnull

theorem load_address {a : DatabaseAddress} (hformat : SourceFormat.of? p = some .database) (h : t.find p = .ok x)
    (ha : DatabaseAddress.ofPath p = .ok a) :
    (t.loadCallGraph p).2 = ((t.openAddress a).2 >>= Database.callGraph).mapError .database := by
  rw [loadCallGraph, hformat]
  dsimp only
  rw [openDatabase_of_find h, ha]

theorem load_of_refused {e : DatabaseError} (hformat : SourceFormat.of? p = some .database) (h : t.find p = .ok x)
    (he : DatabaseAddress.ofPath p = .error e) : (t.loadCallGraph p).2 = .error (.database e) := by
  rw [loadCallGraph, hformat]
  dsimp only
  rw [openDatabase_of_find h, he]
  rfl

theorem raises_database (t : FileTree) (a : DatabaseAddress) :
    Raises DatabaseError.OfContent ((t.openAddress a).2 >>= Database.callGraph) :=
  raises_bind (t.raises_openAddress a) Database.raises_callGraph

/-- What is wrong with the content of a database is not taken for a misuse. -/
theorem loadVerdict_database {e : DatabaseError} (h : e.OfContent) :
    loadVerdict (.error (.database e)) = .stranded (.load (.database e)) := by
  cases e with
  | nullCharacter | undecodableAddress => exact h.elim
  | _ => rfl

/-! ## Both are the same -/

theorem Yields.verdict_eq (h : t.Yields p w) : t.verdict p = w := by
  cases h with
  | missing h => simp only [verdict, h]
  | longName h =>
    have hexists : t.pathExists p = .error ⟨.nameTooLong, p.text⟩ := by rw [pathExists, h]
    simp only [verdict, hexists]
  | otherFormat h hformat =>
    have hload : (t.loadCallGraph p).2 = .error (.unknownFormat p.name) := by rw [loadCallGraph, hformat]
    rw [verdict_of_pathExists (pathExists_of_find h), hload]
    rfl
  | directory hformat h =>
    rw [verdict_of_pathExists (pathExists_of_find h), load_document hformat, readJson, readText, read, h]
    rfl
  | noText hformat h htext =>
    rw [verdict_of_pathExists (pathExists_of_read h), load_document hformat, readJson, readText, h]
    simp only [bind, Except.bind, Except.mapError, htext]
    rfl
  | malformed hformat h he hother =>
    rw [verdict_of_pathExists (pathExists_of_readText h), load_document hformat, readJson_of_readText h, he]
    exact loadVerdict_malformed hother
  | nested hformat h he =>
    rw [verdict_of_pathExists (pathExists_of_readText h), load_document hformat, readJson_of_readText h, he]
    rfl
  | noClasses hformat h hclasses =>
    rw [verdict_of_pathExists (pathExists_of_readJson h), load_document hformat, h]
    exact congrArg loadVerdict (ofDocument_of_not_listed hclasses)
  | badRecord hformat h hclasses he =>
    rw [verdict_of_pathExists (pathExists_of_readJson h), load_document hformat, h]
    refine (congrArg loadVerdict (ofDocument_of_listed hclasses)).trans ?_
    rw [he]
    rfl
  | records hformat h hclasses hg =>
    rw [verdict_of_pathExists (pathExists_of_readJson h), load_document hformat, h]
    refine (congrArg loadVerdict (ofDocument_of_listed hclasses)).trans ?_
    rw [hg]
    rfl
  | undecodable hformat h he =>
    rw [verdict_of_pathExists (pathExists_of_find h), load_of_refused hformat h he]
    rfl
  | badAddress hformat h he =>
    rw [verdict_of_pathExists (pathExists_of_find h), load_of_refused hformat h he]
    rfl
  | badDatabase hformat h ha he =>
    rw [verdict_of_pathExists (pathExists_of_find h), load_address hformat h ha, he]
    exact loadVerdict_database (t.raises_database _ _ he)
  | database hformat h ha hg =>
    rw [verdict_of_pathExists (pathExists_of_find h), load_address hformat h ha, hg]
    rfl

/-- A document comes to a verdict. -/
theorem exists_yields_document (hformat : SourceFormat.of? p = some .json) (h : t.find p = .ok x) : ∃ w, t.Yields p w := by
  cases x with
  | directory => exact ⟨_, .directory hformat h⟩
  | file c =>
    have hread : t.read p = .ok c := by rw [read, h]
    cases htext : Utf8.decode c.toBytes with
    | error fault => exact ⟨_, .noText hformat hread htext⟩
    | ok cs =>
      have hchars : t.readText p = .ok (joinLineEnds cs) := by
        rw [readText, hread]
        simp only [bind, Except.bind, Except.mapError, htext]
      cases hjson : Json.readUnmarked fileDepth (joinLineEnds cs) with
      | error e =>
        cases e with
        | tooDeep c => exact ⟨_, .nested hformat hchars hjson⟩
        | malformed => exact ⟨_, .malformed hformat hchars hjson fun c h => by cases h⟩
        | longInteger => exact ⟨_, .malformed hformat hchars hjson fun c h => by cases h⟩
      | ok v =>
        have hvalue : t.readJson p = .ok v := by
          rw [readJson_of_readText hchars, hjson]
          rfl
        by_cases hclasses : ∃ records, v.field? "classes" = some (.list records)
        · obtain ⟨records, hclasses⟩ := hclasses
          cases hg : CallGraph.ofRecords records with
          | error e => exact ⟨_, .badRecord hformat hvalue hclasses hg⟩
          | ok g => exact ⟨_, .records hformat hvalue hclasses hg⟩
        · exact ⟨_, .noClasses hformat hvalue (not_exists.1 hclasses)⟩

/-- A database comes to a verdict. -/
theorem exists_yields_database (hformat : SourceFormat.of? p = some .database) (h : t.find p = .ok x) :
    ∃ w, t.Yields p w := by
  cases ha : DatabaseAddress.ofPath p with
  | error e =>
    obtain ⟨problem, value, rfl⟩ | ⟨fault, rfl⟩ := DatabaseAddress.raises_ofPath p e ha
    · exact ⟨_, .badAddress hformat h ha⟩
    · exact ⟨_, .undecodable hformat h ha⟩
  | ok a =>
    cases hg : (t.openAddress a).2 >>= Database.callGraph with
    | error e => exact ⟨_, .badDatabase hformat h ha hg⟩
    | ok g => exact ⟨_, .database hformat h ha hg⟩

theorem exists_yields (t : FileTree) (p : Path) : ∃ w, t.Yields p w := by
  cases hexists : t.pathExists p with
  | error e =>
    have hlong : t.find p = .error .nameTooLong := by
      unfold pathExists at hexists
      split at hexists
      · cases hexists
      · next h => exact h
      · cases hexists
    exact ⟨_, .longName hlong⟩
  | ok found =>
    cases found with
    | false => exact ⟨_, .missing hexists⟩
    | true =>
      obtain ⟨x, hx⟩ := find_of_pathExists hexists
      cases hformat : SourceFormat.of? p with
      | none => exact ⟨_, .otherFormat hx hformat⟩
      | some format =>
        cases format with
        | json => exact exists_yields_document hformat hx
        | database => exact exists_yields_database hformat hx

theorem yields_iff : t.Yields p w ↔ t.verdict p = w := by
  refine ⟨Yields.verdict_eq, ?_⟩
  rintro rfl
  obtain ⟨w, hw⟩ := t.exists_yields p
  rwa [hw.verdict_eq]

end FileTree

/-! ## Runs -/

/-- How a run ends, or goes on, as its input is judged. -/
def Verdict.Ends (elapsed : Float) (t : FileTree) (argv : List String) : Verdict → Prop
  | loaded g => ∃ c, programCall t argv = .ok c ∧ c.graph = g
  | refused e => (runProgram elapsed t argv).ending = .exit 2 ∧ (runProgram elapsed t argv).errorOutput = e.text
  | stranded e => (runProgram elapsed t argv).ending = .failure e ∧ (runProgram elapsed t argv).errorOutput = ""

theorem runProgram_of_programCall {elapsed : Float} {t : FileTree} {argv : List String} {o : Outcome}
    (h : programCall t argv = .error o) : runProgram elapsed t argv = o := by
  rw [runProgram, prepare_eq_call, h]
  rfl

theorem ends_verdict (elapsed : Float) (t : FileTree) {argv : List String} {input : String} {a : Arguments}
    (h : Arguments.parse argv = .ok (input, a)) : (t.verdict (.ofText input)).Ends elapsed t argv := by
  cases hexists : t.pathExists (.ofText input) with
  | error e =>
    have hcall : programCall t argv = .error ⟨t, "", "", .failure (.file e)⟩ := by simp only [programCall, h, hexists]
    simp only [FileTree.verdict, hexists, Verdict.Ends, runProgram_of_programCall hcall, and_self]
  | ok found =>
    cases found with
    | false =>
      have hcall : programCall t argv = .error (misuse t "" (.inputNotFound (Path.ofText input).text)) := by
        simp only [programCall, h, hexists]
      simp only [FileTree.verdict, hexists, Verdict.Ends, runProgram_of_programCall hcall, misuse, and_self]
    | true =>
      rw [FileTree.verdict_of_pathExists hexists]
      generalize hloaded : t.loadCallGraph (.ofText input) = loaded
      obtain ⟨u, result⟩ := loaded
      cases result with
      | ok g =>
        simp only [programCall, h, hexists, hloaded, FileTree.loadVerdict, Verdict.Ends]
        exact ⟨_, rfl, rfl⟩
      | error e =>
        cases hblames : e.blamesContent with
        | true =>
          have hcall : programCall t argv =
              .error (misuse u ("Loading " ++ (Path.ofText input).name ++ "...\n") (.unusable e.message)) := by
            simp only [programCall, h, hexists, hloaded, hblames, if_true]
          simp only [FileTree.loadVerdict, hblames, if_true, Verdict.Ends, runProgram_of_programCall hcall, misuse, and_self]
        | false =>
          have hcall : programCall t argv =
              .error ⟨u, "Loading " ++ (Path.ofText input).name ++ "...\n", "", .failure (.load e)⟩ := by
            simp only [programCall, h, hexists, hloaded, hblames, Bool.false_eq_true, if_false]
          simp only [FileTree.loadVerdict, hblames, Bool.false_eq_true, if_false, Verdict.Ends,
            runProgram_of_programCall hcall, and_self]

/-- **A run ends as its input is judged.** A path comes to one verdict. If its file is loaded, the call graph reaches the
engine; if it is refused, the run ends with the text of the misuse; and what strands a run ends it as it is. -/
theorem input_judged (elapsed : Float) (t : FileTree) (argv : List String) (input : String) (a : Arguments)
    (h : Arguments.parse argv = .ok (input, a)) :
    (∃! w, t.Yields (.ofText input) w) ∧ ∀ w, t.Yields (.ofText input) w → w.Ends elapsed t argv := by
  refine ⟨⟨_, FileTree.yields_iff.2 rfl, fun w hw => hw.verdict_eq.symm⟩, fun w hw => ?_⟩
  rw [← hw.verdict_eq]
  exact ends_verdict elapsed t h

/-! ## Files that strand a run -/

/-- A directory with the name of a document, a database that is a text, and one without tables. -/
def brokenTree : FileTree where
  working := []
  entries := .ofList [(["facts.json"], .directory), (["notes.db"], .file (.bytes (Utf8.encode "no database"))),
    (["empty.db"], .file (.bytes []))]

/-- A file that is missing does not strand a run. -/
theorem missing_file_refused :
    Arguments.parse ["facts.db"] = .ok ("facts.db", { Arguments.initial with input := some "facts.db" }) ∧
    brokenTree.Yields (.ofText "facts.db") (.refused (.inputNotFound "facts.db")) ∧
    (runProgram 0 brokenTree ["facts.db"]).ending = .exit 2 := by
  have hyields : brokenTree.Yields (.ofText "facts.db") (.refused (.inputNotFound "facts.db")) := .missing rfl
  obtain ⟨-, hends⟩ := input_judged 0 brokenTree ["facts.db"] "facts.db" _ rfl
  exact ⟨rfl, hyields, (hends _ hyields).1⟩

theorem yields_notes : brokenTree.Yields (.ofText "notes.db") (.stranded (.load (.database .notADatabase))) := by
  have hopen : (brokenTree.openAddress (.ofFile (.ofText "notes.db"))).2 = .error .notADatabase :=
    FileTree.readDatabase_of_magic rfl rfl (by decide +kernel) (by decide +kernel)
  exact .badDatabase rfl rfl rfl (by rw [hopen]; rfl)

/-- A directory, a file that is no database, and a database without tables strand the runs that are to read them. -/
theorem files_strand_runs :
    (runProgram 0 brokenTree ["facts.json"]).ending = .failure (.load (.file ⟨.isADirectory, "facts.json"⟩)) ∧
    (runProgram 0 brokenTree ["notes.db"]).ending = .failure (.load (.database .notADatabase)) ∧
    (runProgram 0 brokenTree ["empty.db"]).ending = .failure (.load (.database (.query (.noSuchTable "methods")))) := by
  have hends : ∀ {argv input a e}, Arguments.parse argv = .ok (input, a) → brokenTree.Yields (.ofText input) (.stranded e) →
      (runProgram 0 brokenTree argv).ending = .failure e := fun hparse hyields => by
    have hend := ends_verdict 0 brokenTree hparse
    rw [hyields.verdict_eq] at hend
    exact hend.1
  exact ⟨hends rfl (.directory rfl rfl), hends rfl yields_notes, hends rfl (.badDatabase rfl rfl rfl rfl)⟩

end CouplingTree
