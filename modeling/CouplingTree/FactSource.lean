import CouplingTree.Files.DatabaseFile
import CouplingTree.Json.Reader
import CouplingTree.OtherName
import CouplingTree.Records

/-!
# Where call facts come from

Call facts are exported as a JSON file of class records or as a database with the tables `methods`, `calls` and, where
there are classes without any fact, `classes`. `loadCallGraph` tells the formats apart by the suffix of the path.

`loadCallGraph_of_pathExists` : to load what is there leaves the files alone, if the path is no database address.
-/

namespace CouplingTree

/-! ## Text files -/

/-- The bytes of a file; of a database only those that it starts with. -/
def Content.toBytes : Content → List UInt8
  | .bytes bs => bs
  | .database _ => DatabaseImage.magic

/-- Ends every line with a line feed alone. -/
def joinLineEnds : List Char → List Char
  | [] => []
  | '\r' :: '\n' :: rest => '\n' :: joinLineEnds rest
  | '\r' :: rest => '\n' :: joinLineEnds rest
  | c :: rest => c :: joinLineEnds rest

inductive LoadError
  | file (e : FileError)
  | text (e : Utf8.Fault)
  | json (e : Json.ReadError)
  | record (e : RecordError)
  | database (e : DatabaseError)
  /-- A document that is no object with a list of classes. -/
  | noClasses (path : String)
  | unknownFormat (name : String)

namespace LoadError

def message : LoadError → String
  | file e => e.message
  | text e => e.message
  | json e => e.message
  | record e => e.message
  | database e => e.message
  | noClasses path => path ++ ": expected an object with a 'classes' list"
  | unknownFormat name => "Unsupported call-fact format: " ++ name

/-- Whether what was read is at fault, rather than the reading of it. -/
def blamesContent : LoadError → Bool
  | file e => decide (e.problem = .nullCharacter)
  | database .nullCharacter => true
  | database (.undecodableAddress _) => true
  | database _ => false
  | json (.tooDeep _) => false
  | _ => true

end LoadError

/-- The characters of a text file. -/
def FileTree.readText (t : FileTree) (p : Path) : Except LoadError (List Char) := do
  let content ← (t.read p).mapError .file
  let cs ← (Utf8.decode content.toBytes).mapError .text
  .ok (joinLineEnds cs)

/-- So many lists and objects may be inside each other in a file. -/
def fileDepth : Nat := 990

def FileTree.readJson (t : FileTree) (p : Path) : Except LoadError Json := do
  let cs ← t.readText p
  (Json.readUnmarked fileDepth cs).mapError .json

/-! ## The two formats -/

/-- The graph of a document with a list of class records. -/
def CallGraph.ofDocument (path : String) (v : Json) : Except LoadError CallGraph :=
  match v.field? "classes" with
  | some (.list records) => (ofRecords records).mapError .record
  | _ => .error (.noClasses path)

/-- The name in a cell that is no text. -/
def Cell.otherName? : Cell → Option OtherName
  | nothing => some .missing
  | integer i => some (.integer i)
  | real x => some (.double x)
  | blob bytes => some (.bytes bytes)
  | text _ => none

/-- The name of a method. -/
def Cell.methodName (c : Cell) : String :=
  match c with
  | text s => s
  | c => (c.otherName?.map OtherName.keyName).getD ""

/-- The name of a class. A number is written as the first one of those that are equal to it. -/
def Cell.className (written : List OtherName) (c : Cell) : String :=
  match c with
  | text s => s
  | c => (c.otherName?.map fun n => ((written.find? fun m => m.key == n.key).getD n).name).getD ""

/-- The fact of a row with a class and a name. -/
def factOfRow (written : List OtherName) (fact : String → String → Fact) : List Cell → Option Fact
  | [c, name] => some (fact (c.className written) name.methodName)
  | _ => none

/-- The fact that there is the class of a row. -/
def mentionOfRow (written : List OtherName) : List Cell → Option Fact
  | [c] => some (.mention (c.className written))
  | _ => none

theorem factOfRow_text (written : List OtherName) (fact : String → String → Fact) (c name : String) :
    factOfRow written fact [.text c, .text name] = some (fact c name) := rfl

theorem mentionOfRow_text (written : List OtherName) (c : String) :
    mentionOfRow written [.text c] = some (.mention c) := rfl

/-- A method whose name is no text, as it was written. -/
structure WrittenMethod where
  cls : String
  isCall : Bool
  name : OtherName

/-- The rows with the facts of a database: the listed classes, the methods, the calls. -/
structure FactRows where
  classes : List (List Cell)
  methods : List (List Cell)
  calls : List (List Cell)

namespace FactRows

/-- The names of classes that are no texts, in the order of the rows. -/
def otherClasses (r : FactRows) : List OtherName :=
  (r.classes ++ r.methods ++ r.calls).filterMap fun row => row.head?.bind Cell.otherName?

def facts (r : FactRows) : List Fact :=
  let written := r.otherClasses
  r.classes.filterMap (mentionOfRow written) ++ r.methods.filterMap (factOfRow written .method) ++
    r.calls.filterMap (factOfRow written .call)

def callGraph (r : FactRows) : CallGraph := .ofFacts r.facts

/-- The names of methods that are no texts, in the order of the rows. -/
def writtenMethods (r : FactRows) : List WrittenMethod :=
  let written := r.otherClasses
  let ofRow (isCall : Bool) : List Cell → Option WrittenMethod
    | [c, name] => name.otherName?.map fun n => ⟨c.className written, isCall, n⟩
    | _ => none
  r.methods.filterMap (ofRow false) ++ r.calls.filterMap (ofRow true)

end FactRows

namespace Database

/-- The classes listed on their own, if there is a table of them. -/
def listedClasses (d : Database) : Except DatabaseError (List (List Cell)) :=
  if d.hasTable "classes" then d.select "classes" ["name"] else .ok []

def factRows (d : Database) : Except DatabaseError FactRows := do
  let classes ← d.listedClasses
  let methods ← d.select "methods" ["class_name", "method_name"]
  let calls ← d.select "calls" ["caller_class", "method_name"]
  .ok ⟨classes, methods, calls⟩

def callGraph (d : Database) : Except DatabaseError CallGraph := d.factRows.map FactRows.callGraph

end Database

inductive SourceFormat
  | json
  | database
deriving DecidableEq, Repr

/-- The format of a file, by its suffix. -/
def SourceFormat.of? (p : Path) : Option SourceFormat :=
  match lowerAscii p.suffix with
  | ".json" => some json
  | ".db" | ".sqlite" | ".sqlite3" => some database
  | _ => none

/-- The call graph exported to a file. The tree is the one after it: to open a database may make a file. -/
def FileTree.loadCallGraph (t : FileTree) (p : Path) : FileTree × Except LoadError CallGraph :=
  match SourceFormat.of? p with
  | none => (t, .error (.unknownFormat p.name))
  | some .json => (t, t.readJson p >>= CallGraph.ofDocument p.text)
  | some .database =>
    let (t, d) := t.openDatabase p
    (t, (d >>= Database.callGraph).mapError .database)

/-- The rows of an export that is a database. -/
def FileTree.factRows? (t : FileTree) (p : Path) : Option FactRows :=
  match SourceFormat.of? p with
  | some .database => ((t.openDatabase p).2 >>= Database.factRows).toOption
  | _ => none

/-- The names of classes in an export that are no texts. -/
def FileTree.otherClasses (t : FileTree) (p : Path) : List OtherName := ((t.factRows? p).map FactRows.otherClasses).getD []

/-- The names of methods in an export that are no texts. -/
def FileTree.writtenMethods (t : FileTree) (p : Path) : List WrittenMethod :=
  ((t.factRows? p).map FactRows.writtenMethods).getD []

end CouplingTree
