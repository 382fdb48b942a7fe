import CouplingTree.NameSet
import CouplingTree.Settings

/-!
# Repositories

Every database in the data directory belongs to a repository, which is named like the file. `repositories` lists those
that hold call facts, with their counts.
-/

namespace CouplingTree

structure Repository where
  id : String
  classCount : Nat
  methodCount : Nat
  callCount : Nat
  path : String
deriving DecidableEq, Repr

def Repository.toJson (r : Repository) : Json :=
  .object [("id", .text r.id), ("name", .text r.id), ("class_count", .int r.classCount),
    ("method_count", .int r.methodCount), ("call_count", .int r.callCount), ("db_path", .text r.path)]

def databasePath (repo : String) : Path := dataDirectory.join (.ofText (repo ++ ".db"))

namespace Database

/-- The repository of a database, if it holds call facts. -/
def repository (d : Database) (p : Path) : Except DatabaseError Repository := do
  let methods ← d.count "methods"
  let calls ← d.count "calls"
  let classes ← d.countTogether ("methods", "class_name") ("calls", "caller_class")
  .ok ⟨p.stem, classes, methods, calls, p.text⟩

end Database

namespace FileTree

/-- The paths of the databases, ascending by name. -/
def databasePaths (t : FileTree) : List Path :=
  let names := (t.namesIn dataDirectory).filter fun n => ".db".toList.isSuffixOf n.toList
  (NameSet.ofList names).toList.map fun n => dataDirectory.join ⟨"", [n]⟩

/-- The repositories by the names of their files. Each file is there, so opening it makes none. -/
def repositories (t : FileTree) : List Repository :=
  t.databasePaths.filterMap fun p => ((t.openDatabase p).2 >>= fun d => d.repository p).toOption

end FileTree

end CouplingTree
