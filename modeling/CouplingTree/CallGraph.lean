import CouplingTree.OrderedMap
import CouplingTree.NameSet

/-!
# Call graphs

A call graph holds, for each class, the names of the methods it declares and the names it calls. A call is known by its
name only: whose method it is follows from who declares that name. Classes keep the order in which they were first
mentioned.

`names_update` : what a new fact does to the list of classes; `facts_update` : what it does to the facts of a class.
-/

namespace CouplingTree

/-- One thing that is known about a class. -/
inductive Fact
  | mention (cls : String)
  | method (cls name : String)
  | call (cls name : String)
deriving DecidableEq, Repr

/-- The class that a fact is about. -/
def Fact.cls : Fact → String
  | mention c => c
  | method c _ => c
  | call c _ => c

/-- The names a class declares and the names it calls. -/
structure ClassFacts where
  declares : NameSet
  calls : NameSet
deriving DecidableEq

namespace ClassFacts

def none : ClassFacts := ⟨.empty, .empty⟩

def declare (f : ClassFacts) (name : String) : ClassFacts := { f with declares := f.declares.insert name }

def call (f : ClassFacts) (name : String) : ClassFacts := { f with calls := f.calls.insert name }

end ClassFacts

structure CallGraph where
  classes : OrderedMap String ClassFacts

namespace CallGraph

def empty : CallGraph := ⟨.empty⟩

/-- What is known about a class; nothing, if it was never mentioned. -/
def facts (g : CallGraph) (c : String) : ClassFacts := (g.classes.find? c).getD .none

/-- Changes what is known about a class. -/
def update (g : CallGraph) (c : String) (change : ClassFacts → ClassFacts) : CallGraph :=
  ⟨g.classes.insert c (change (g.facts c))⟩

def addClass (g : CallGraph) (c : String) : CallGraph := g.update c id

def addMethod (g : CallGraph) (c name : String) : CallGraph := g.update c fun f => f.declare name

def addCall (g : CallGraph) (c name : String) : CallGraph := g.update c fun f => f.call name

def add (g : CallGraph) : Fact → CallGraph
  | .mention c => g.addClass c
  | .method c name => g.addMethod c name
  | .call c name => g.addCall c name

def addAll (g : CallGraph) (fs : List Fact) : CallGraph := fs.foldl add g

def ofFacts (fs : List Fact) : CallGraph := empty.addAll fs

/-! ## Looking -/

/-- The classes in the order of their first mention. -/
def names (g : CallGraph) : List String := g.classes.keys

def size (g : CallGraph) : Nat := g.classes.size

def contains (g : CallGraph) (c : String) : Bool := g.classes.contains c

/-- The names of the methods a class declares. -/
def declared (g : CallGraph) (c : String) : NameSet := (g.facts c).declares

/-- The names a class calls. -/
def called (g : CallGraph) (c : String) : NameSet := (g.facts c).calls

/-- Each class with what it declares and what it calls, in order. -/
def describe (g : CallGraph) : List (String × ClassFacts) := g.classes.entries

def summary (g : CallGraph) : String := s!"CallGraph(classes={g.size})"

theorem names_update (g : CallGraph) (c : String) (change : ClassFacts → ClassFacts) :
    (g.update c change).names = if c ∈ g.names then g.names else g.names ++ [c] :=
  g.classes.keys_insert c _

theorem facts_update (g : CallGraph) (c d : String) (change : ClassFacts → ClassFacts) :
    (g.update c change).facts d = if d = c then change (g.facts c) else g.facts d := by
  simp only [facts, update, OrderedMap.find?_insert]
  split <;> rfl

end CallGraph

end CouplingTree
