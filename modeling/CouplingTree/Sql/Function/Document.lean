import CouplingTree.Sql.Document.Path

/-!
# Functions of documents

These functions read documents from texts, take parts out of them, and make documents of values. A text counts as a
document only if one of them has made it; any other text becomes a text in quotes.

`arrow_null` : nothing is taken out of nothing.
-/

namespace CouplingTree.Sql

namespace Document

/-- The document that a value is written in, unless it is nothing. -/
def ofValue? : Value → Except Problem (Option Document)
  | .null => .ok none
  | v => (ofBytes? (beforeZero v.bytes)).elim (.error .brokenDocument) fun d => .ok (some d)

/-- What is made of the document in a value; nothing is made of nothing. -/
def withDocument (v : Value) (f : Document → Except Problem Datum) : Except Problem Datum := do
  match ← ofValue? v with
  | none => return ⟨.null, false⟩
  | some d => f d

/-- The text of a value as a path. -/
def path? : Value → Option Bytes
  | .null => none
  | v => some (beforeZero v.bytes)

/-- The part of a document that a value leads to. -/
def partAt (d : Document) (v : Value) : Except Problem (Option Document) :=
  match path? v with
  | none => .ok none
  | some path => d.lookup path

/-- A document as a datum, whatever it is. -/
def marked (d : Document) : Datum := ⟨.text d.written, true⟩

def nothing : Datum := ⟨.null, false⟩

/-! ## Taking parts -/

def extract (v : Value) : List Value → Except Problem Datum
  | [] => .ok nothing
  | [p] => withDocument v fun d => do return ((← d.partAt p).map Document.datum).getD nothing
  | ps => withDocument v fun d => do
    let parts ← ps.mapM d.partAt
    return ⟨.text (0x5B :: commas (parts.map fun p => (p.getD .null).written) ++ [0x5D]), true⟩

/-- A path that may be only a number or a name. -/
def fullPath (path : Bytes) : Bytes :=
  match path with
  | 0x24 :: _ => path
  | 0x5B :: _ => 0x24 :: path
  | b :: _ => if isDigitByte b then 0x24 :: 0x5B :: path ++ [0x5D] else 0x24 :: 0x2E :: path
  | [] => [0x24, 0x2E]

/-- What an arrow leads to: a document, or the value that it stands for. -/
def arrow (asDocument : Bool) (v path : Value) : Except Problem Datum :=
  withDocument v fun d =>
    match path? path with
    | none => .ok nothing
    | some p => do
      match ← d.lookup (fullPath p) with
      | none => return nothing
      | some d => return if asDocument then marked d else ⟨d.datum.value, false⟩

theorem arrow_null (asDocument : Bool) (path : Value) : arrow asDocument .null path = .ok nothing := rfl

def length (v : Value) (path : Option Value) : Except Problem Datum :=
  withDocument v fun d => do
    return match ← path.elim (.ok (some d)) d.partAt with
    | none => nothing
    | some (list items) => ⟨.integer items.length, false⟩
    | some _ => ⟨.integer 0, false⟩

def kindAt (v : Value) (path : Option Value) : Except Problem Datum :=
  withDocument v fun d => do
    return ((← path.elim (.ok (some d)) d.partAt).map fun d => (⟨.ofString d.kind, false⟩ : Datum)).getD nothing

def isDocument : Value → Value
  | .null => .null
  | v => .ofBool (ofBytes? (beforeZero v.bytes)).isSome

/-! ## Making documents -/

def ofItems (vs : List Datum) : Except Problem Datum := do
  return ⟨.text (0x5B :: commas (← vs.mapM writtenDatum) ++ [0x5D]), true⟩

/-- The members of an object from names and values in turn. -/
def membersOf (function : String) : List Datum → Except Problem (List Bytes)
  | name :: v :: rest => do
    match name.value with
    | .text bs =>
      let member := writtenText bs ++ 0x3A :: (← writtenDatum v)
      return member :: (← membersOf function rest)
    | _ => throw (.memberName function)
  | _ => .ok []

def ofMembers (function : String) (vs : List Datum) : Except Problem Datum := do
  if vs.length % 2 = 1 then throw (.oddMembers function)
  return ⟨.text (0x7B :: commas (← membersOf function vs) ++ [0x7D]), true⟩

/-! ## Changing documents -/

/-- Which parts a function changes. -/
structure Scope where
  /-- Whether parts that are there are replaced. -/
  replaces : Bool
  /-- Whether parts that are not there are added. -/
  adds : Bool

/-- Puts values where paths lead to. A value that has been put in place of all stands for the document. -/
def put (s : Scope) : Document → Option Datum → List Datum → Except Problem Datum
  | d, whole, path :: v :: rest => do
    match path? path.value with
    | none => put s d whole rest
    | some p =>
      let new := fixed (← writtenDatum v)
      let isWhole := decide (p = [0x24]) && s.replaces
      let d ← d.changed ⟨fun old => if s.replaces then new else old, if s.adds then some new else none⟩ p
      put s d (if isWhole then some v else whole) rest
  | d, whole, _ => .ok (whole.getD (marked d))

def changeAll (name : String) (s : Scope) : List Datum → Except Problem Datum
  | [] => .ok nothing
  | v :: changes =>
    if changes.length % 2 = 1 then .error (.unpairedValues name)
    else withDocument v.value fun d => put s d none changes

/-- Takes away what paths lead to. Nothing is left if a path is missing. -/
def without : Document → List Value → Except Problem Datum
  | d, [] => .ok (if d.isRemoved then nothing else marked d)
  | d, p :: rest =>
    match path? p with
    | none => .ok nothing
    | some path => do without (← d.changed ⟨fun _ => removed, none⟩ path) rest

def remove : List Datum → Except Problem Datum
  | [] => .ok nothing
  | v :: paths => withDocument v.value fun d => without d (paths.map Datum.value)

def merge (v w : Value) : Except Problem Datum :=
  withDocument v fun d => withDocument w fun e => .ok (marked (merged depthLimit d e))

/-! ## Rows -/

/-- The columns of the parts of a document. -/
def partColumns : List String := ["key", "value", "type", "atom", "id", "parent", "fullkey", "path"]

def Part.datums (p : Part) : List Datum :=
  let isWhole : Bool :=
    match p.document with
    | list _ | object _ => false
    | _ => true
  [⟨p.key, false⟩, p.document.datum, ⟨.ofString p.document.kind, false⟩,
    if isWhole then p.document.datum else nothing, ⟨.integer p.id, false⟩,
    ⟨p.parent.elim .null fun i => .integer i, false⟩, ⟨.text p.way, false⟩, ⟨.text p.path, false⟩]

/-- The parts of the document in a value, from where a path leads to: the direct ones, or all of them. -/
def parts (recursive : Bool) (v : Value) (path : Option Value) : Except Problem (List Part) := do
  match ← ofValue? v with
  | none => return []
  | some d =>
    match path with
    | some .null => return []
    | path =>
      let root := (path.bind path?).getD [0x24]
      match ← d.locate root with
      | none => return []
      | some f => return if recursive then allParts f else partsOf root f

end Document

namespace ScalarFunction

/-- A function that looks at marks or makes them. -/
def ofData (name : String) (least most : Nat) (f : List Datum → Except Problem Datum) : ScalarFunction :=
  { name, least, most, apply := fun _ ds => f ds }

/-- A function of a document and perhaps a path. -/
def ofDocument (name : String) (f : Value → Option Value → Except Problem Datum) : ScalarFunction :=
  ofData name 1 2 fun ds => match ds with
    | [d] => f d.value none
    | [d, p] => f d.value (some p.value)
    | _ => .ok Document.nothing

def arrow (name : String) (asDocument : Bool) : ScalarFunction :=
  ofData name 2 2 fun ds => match ds with
    | [d, p] => Document.arrow asDocument d.value p.value
    | _ => .ok Document.nothing

def ofDocuments : List ScalarFunction := [
  ofData "json" 1 1 fun ds => match ds with
    | [d] => Document.withDocument d.value fun d => .ok (Document.marked d)
    | _ => .ok Document.nothing,
  ofData "json_array" 0 unbounded Document.ofItems,
  ofData "json_object" 0 unbounded (Document.ofMembers "json_object"),
  ofData "json_quote" 1 1 fun ds => match ds with
    | [d] => (Document.writtenDatum d).map fun bs => ⟨.text bs, true⟩
    | _ => .ok Document.nothing,
  ofData "json_extract" 0 unbounded fun ds => match ds with
    | d :: ps => Document.extract d.value (ps.map Datum.value)
    | [] => .ok Document.nothing,
  arrow "->" true, arrow "->>" false,
  ofDocument "json_array_length" Document.length,
  ofDocument "json_type" Document.kindAt,
  unary "json_valid" Document.isDocument,
  ofData "json_set" 0 unbounded (Document.changeAll "json_set" ⟨true, true⟩),
  ofData "json_insert" 0 unbounded (Document.changeAll "json_insert" ⟨false, true⟩),
  ofData "json_replace" 0 unbounded (Document.changeAll "json_replace" ⟨true, false⟩),
  ofData "json_remove" 0 unbounded Document.remove,
  ofData "json_patch" 2 2 fun ds => match ds with
    | [d, e] => Document.merge d.value e.value
    | _ => .ok Document.nothing]

end ScalarFunction

end CouplingTree.Sql
