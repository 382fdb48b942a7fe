import CouplingTree.Database
import CouplingTree.Files.Path
import CouplingTree.OrderedMap
import CouplingTree.Text.Utf8

/-!
# File trees

A file tree holds the directories and files by their locations, and a working directory from which relative paths
start. `descend` follows the names of a path; a double dot leads back to the directory above the one reached.

`read`, `write` and `makeDirectories` fail with the problem and the path that it was met on.
-/

namespace CouplingTree

/-- What a file holds. -/
inductive Content
  | bytes (bs : List UInt8)
  | database (d : Database)

inductive FileEntry
  | directory
  | file (content : Content)

/-- The names from the root on. -/
abbrev Location := List String

inductive FileProblem
  | missing
  | exists
  | notADirectory
  | isADirectory
  | nameTooLong
  | nullCharacter
deriving DecidableEq, Repr

structure FileError where
  problem : FileProblem
  path : String
deriving DecidableEq, Repr

def FileError.message (e : FileError) : String :=
  match e.problem with
  | .missing => "[Errno 2] No such file or directory: " ++ quoted e.path
  | .exists => "[Errno 17] File exists: " ++ quoted e.path
  | .notADirectory => "[Errno 20] Not a directory: " ++ quoted e.path
  | .isADirectory => "[Errno 21] Is a directory: " ++ quoted e.path
  | .nameTooLong => "[Errno 36] File name too long: " ++ quoted e.path
  | .nullCharacter => "embedded null byte"

structure FileTree where
  working : Location
  entries : OrderedMap Location FileEntry

namespace FileTree

/-- The most bytes of a name, and the bound for those of a path. -/
def maxNameBytes : Nat := 255

def pathBytesBound : Nat := 4096

/-- What is at a location; the working directory and those above it are always there. -/
def entryAt? (t : FileTree) (loc : Location) : Option FileEntry :=
  if loc.isPrefixOf t.working then some .directory else t.entries.find? loc

/-- Follows names from a location. All but the last have to be those of directories. -/
def descend (t : FileTree) (loc : Location) : List String → Except FileProblem Location
  | [] => .ok loc
  | name :: rest =>
    match t.entryAt? loc with
    | some .directory =>
      if name = ".." then descend t loc.dropLast rest
      else if maxNameBytes < name.utf8ByteSize then .error .nameTooLong
      else descend t (loc ++ [name]) rest
    | some (.file _) => .error .notADirectory
    | none => .error .missing

/-- Where a path starts. -/
def start (t : FileTree) (p : Path) : Location := if p.root = "" then t.working else []

/-- The location that a path leads to. There need not be anything. -/
def locate (t : FileTree) (p : Path) : Except FileProblem Location :=
  if '\x00' ∈ p.text.toList then .error .nullCharacter
  else if pathBytesBound ≤ p.text.utf8ByteSize then .error .nameTooLong
  else t.descend (t.start p) p.parts

theorem descend_of_locate {t : FileTree} {p : Path} {loc : Location} (h : t.locate p = .ok loc) :
    t.descend (t.start p) p.parts = .ok loc := by
  unfold locate at h
  split at h
  · cases h
  · split at h
    · cases h
    · exact h

/-- What a path leads to. -/
def find (t : FileTree) (p : Path) : Except FileProblem FileEntry := do
  let loc ← t.locate p
  match t.entryAt? loc with
  | some e => .ok e
  | none => .error .missing

/-- What is found is at the location that the path leads to. -/
theorem locate_of_find {t : FileTree} {p : Path} {e : FileEntry} (h : t.find p = .ok e) :
    ∃ loc, t.locate p = .ok loc ∧ t.entryAt? loc = some e := by
  unfold find at h
  cases hl : t.locate p with
  | error problem => rw [hl] at h; cases h
  | ok loc =>
    rw [hl] at h
    refine ⟨loc, rfl, ?_⟩
    cases he : t.entryAt? loc with
    | none => simp [bind, Except.bind, he] at h
    | some e' => simp [bind, Except.bind, he] at h; rw [h]

/-- Whether there is anything at a path. A name that is too long is a failure. -/
def pathExists (t : FileTree) (p : Path) : Except FileError Bool :=
  match t.find p with
  | .ok _ => .ok true
  | .error .nameTooLong => .error ⟨.nameTooLong, p.text⟩
  | .error _ => .ok false

theorem find_of_pathExists {t : FileTree} {p : Path} (h : t.pathExists p = .ok true) : ∃ e, t.find p = .ok e := by
  unfold pathExists at h
  split at h
  · next e he => exact ⟨e, he⟩
  · cases h
  · cases h

def isDirectory (t : FileTree) (p : Path) : Bool :=
  match t.find p with
  | .ok .directory => true
  | _ => false

/-- The content of a file. -/
def read (t : FileTree) (p : Path) : Except FileError Content :=
  match t.find p with
  | .ok (.file content) => .ok content
  | .ok .directory => .error ⟨.isADirectory, p.text⟩
  | .error problem => .error ⟨problem, p.text⟩

/-- Puts an entry at a location. -/
def put (t : FileTree) (loc : Location) (e : FileEntry) : FileTree := { t with entries := t.entries.insert loc e }

/-- Writes a file, which may be new, into a directory. -/
def write (t : FileTree) (p : Path) (bytes : List UInt8) : Except FileError FileTree :=
  match t.locate p with
  | .error problem => .error ⟨problem, p.text⟩
  | .ok loc =>
    match t.entryAt? loc with
    | some .directory => .error ⟨.isADirectory, p.text⟩
    | _ =>
      match t.entryAt? loc.dropLast with
      | some .directory => .ok (t.put loc (.file (.bytes bytes)))
      | some (.file _) => .error ⟨.notADirectory, p.text⟩
      | none => .error ⟨.missing, p.text⟩

/-- Makes a new directory in a directory. -/
def makeDirectory (t : FileTree) (p : Path) : Except FileProblem FileTree := do
  let loc ← t.locate p
  match t.entryAt? loc with
  | some _ => .error .exists
  | none =>
    match t.entryAt? loc.dropLast with
    | some .directory => .ok (t.put loc .directory)
    | some (.file _) => .error .notADirectory
    | none => .error .missing

/-- Makes a directory, which may be there already. -/
def ensureDirectory (t : FileTree) (p : Path) : Except FileProblem FileTree :=
  match t.makeDirectory p with
  | .ok t => .ok t
  | .error problem => if t.isDirectory p then .ok t else .error problem

/-- Makes a directory with the names given from the last to the first, and those above it where they are missing. -/
def ensureAll (t : FileTree) (root : String) : List String → FileTree × Option FileError
  | [] => (t, none)
  | name :: above =>
    let p : Path := ⟨root, (name :: above).reverse⟩
    match t.ensureDirectory p with
    | .ok t => (t, none)
    | .error .missing =>
      match ensureAll t root above with
      | (t, some e) => (t, some e)
      | (t, none) =>
        match t.ensureDirectory p with
        | .ok t => (t, none)
        | .error problem => (t, some ⟨problem, p.text⟩)
    | .error problem => (t, some ⟨problem, p.text⟩)

/-- Makes a directory and those above it. Those made before a failure stay. -/
def makeDirectories (t : FileTree) (p : Path) : FileTree × Option FileError := t.ensureAll p.root p.parts.reverse

/-- The names in a directory. -/
def namesIn (t : FileTree) (p : Path) : List String :=
  match t.locate p with
  | .error _ => []
  | .ok loc => t.entries.keys.filterMap fun l =>
      if l ≠ [] ∧ l.dropLast = loc then l.getLast? else none

end FileTree

end CouplingTree
