import CouplingTree.CallGraph
import CouplingTree.Json.Value

/-!
# Class records

A class record is a JSON object with the name of a class, the names of its methods and the names it calls; the two lists
may be left out. `CallGraph.ofRecords` takes a list of records and refuses the first one that is none.
-/

namespace CouplingTree

structure Record where
  name : String
  methods : List String
  calls : List String

/-- The two lists of a record. -/
inductive NameList
  | methods
  | calls
deriving DecidableEq, Repr

def NameList.key : NameList → String
  | methods => "methods"
  | calls => "calls"

inductive RecordError
  /-- A value of a kind that has no parts to be records. -/
  | notASequence (kind : String)
  | notAnObject (value : Json)
  | unnamed (value : Json)
  | notNames (name : String) (list : NameList)

def RecordError.message : RecordError → String
  | notASequence kind => "'" ++ kind ++ "' object is not iterable"
  | notAnObject v => "Class record must be an object: " ++ v.display
  | unnamed v => "Class record without a name: " ++ v.display
  | notNames name list => name ++ ": '" ++ list.key ++ "' must be a list of method names"

namespace Record

/-- A list of texts. -/
def texts? : List Json → Option (List String)
  | [] => some []
  | .text s :: rest => (texts? rest).map (s :: ·)
  | _ :: _ => none

/-- One of the two lists; none of its names, if it is left out. -/
def nameList (fields : List (String × Json)) (name : String) (list : NameList) : Except RecordError (List String) :=
  match Entries.find? list.key fields with
  | none => .ok []
  | some (.list items) =>
    match texts? items with
    | some names => .ok names
    | none => .error (.notNames name list)
  | some _ => .error (.notNames name list)

def ofJson : Json → Except RecordError Record
  | .object fields =>
    match Entries.find? "name" fields with
    | some (.text name) =>
      if name = "" then .error (.unnamed (.object fields))
      else do
        let methods ← nameList fields name .methods
        let calls ← nameList fields name .calls
        .ok ⟨name, methods, calls⟩
    | _ => .error (.unnamed (.object fields))
  | v => .error (.notAnObject v)

def toJson (r : Record) : Json :=
  .object [("name", .text r.name), ("methods", .texts r.methods), ("calls", .texts r.calls)]

/-- What a record tells: that there is the class, what it declares, and what it calls. -/
def facts (r : Record) : List Fact :=
  .mention r.name :: r.methods.map (.method r.name) ++ r.calls.map (.call r.name)

end Record

namespace CallGraph

/-- The graph with what some records tell. -/
def ofRecords (records : List Json) : Except RecordError CallGraph := do
  let rs ← records.mapM Record.ofJson
  .ok (ofFacts (rs.flatMap Record.facts))

/-- The graph of a value whose parts are records. -/
def ofSequence (v : Json) : Except RecordError CallGraph :=
  match v.sequence? with
  | some records => ofRecords records
  | none => .error (.notASequence v.kindName)

theorem ofSequence_list (records : List Json) : ofSequence (.list records) = ofRecords records := rfl

/-- One record for each class. -/
def records (g : CallGraph) : List Record :=
  g.describe.map fun c => ⟨c.1, c.2.declares.toList, c.2.calls.toList⟩

end CallGraph

end CouplingTree
