import CouplingTree.CallGraph

/-!
# Call graphs in two maps

The names that classes declare and the names that they call are kept in two maps. A class is put into both of them before a
name is added to one. Which classes there are is told by the first map alone, and a description looks each of them up in
both, so that the maps must not drift apart.

`NameMaps.add` : one more fact; `NameMaps.ofFacts` : all facts, from empty maps. A set that should be there is taken by
`NameMaps.get`, which fails where it is missing.
-/

namespace CouplingTree

structure NameMaps where
  declares : OrderedMap String NameSet
  calls : OrderedMap String NameSet

structure MissingKey where
  key : String
deriving DecidableEq, Repr

namespace NameMaps

def empty : NameMaps := ⟨.empty, .empty⟩

/-- The set of a class that should be there. -/
def get (names : OrderedMap String NameSet) (c : String) : Except MissingKey NameSet :=
  match names.find? c with
  | some s => .ok s
  | none => .error ⟨c⟩

/-- An empty set for a class, unless there is one. -/
def reserve (names : OrderedMap String NameSet) (c : String) : OrderedMap String NameSet :=
  if names.contains c then names else names.insert c .empty

def put (names : OrderedMap String NameSet) (c name : String) : Except MissingKey (OrderedMap String NameSet) := do
  let s ← get names c
  .ok (names.insert c (s.insert name))

def addClass (m : NameMaps) (c : String) : NameMaps := ⟨reserve m.declares c, reserve m.calls c⟩

def addMethod (m : NameMaps) (c name : String) : Except MissingKey NameMaps := do
  let m := m.addClass c
  let declares ← put m.declares c name
  .ok { m with declares }

def addCall (m : NameMaps) (c name : String) : Except MissingKey NameMaps := do
  let m := m.addClass c
  let calls ← put m.calls c name
  .ok { m with calls }

def add (m : NameMaps) : Fact → Except MissingKey NameMaps
  | .mention c => .ok (m.addClass c)
  | .method c name => m.addMethod c name
  | .call c name => m.addCall c name

def addAll (m : NameMaps) (fs : List Fact) : Except MissingKey NameMaps := fs.foldlM add m

def ofFacts (fs : List Fact) : Except MissingKey NameMaps := empty.addAll fs

/-! ## Looking -/

def names (m : NameMaps) : List String := m.declares.keys

def size (m : NameMaps) : Nat := m.declares.size

def contains (m : NameMaps) (c : String) : Bool := m.declares.contains c

def declared (m : NameMaps) (c : String) : NameSet := (m.declares.find? c).getD .empty

def called (m : NameMaps) (c : String) : NameSet := (m.calls.find? c).getD .empty

/-- Each class of the first map with what both maps have for it. -/
def describe (m : NameMaps) : Except MissingKey (List (String × ClassFacts)) :=
  m.names.mapM fun c => do
    let declares ← get m.declares c
    let calls ← get m.calls c
    .ok (c, ⟨declares, calls⟩)

def summary (m : NameMaps) : String := s!"CallGraph(classes={m.size})"

end NameMaps

end CouplingTree
