import CouplingTree.Report.Document
import CouplingTree.Service.Inputs
import CouplingTree.Service.Repositories
import CouplingTree.Service.Routes

/-!
# The service

`handle` answers a request over a file tree: it decomposes the classes in a request or those of a repository, reads and
writes the settings of a repository, and lists the repositories. Only the writing of settings changes a file.
-/

namespace CouplingTree

structure Request where
  method : String
  path : String
  query : String
  body : String

inductive Body
  | document (v : Json)
  | text (s : String)

structure Response where
  status : Nat
  body : Body

/-- Why a request could not be answered. -/
inductive ServiceError
  | settings (e : SettingsError)
  | keyNotText
  | file (e : FileError)
  | database (e : DatabaseError)
  | record (e : RecordError)
  | report (e : ReportError)
  | unsendableNumber

def ReportError.message : ReportError → String
  | account e => e.message
  | layout e => e.message

def ServiceError.message : ServiceError → String
  | settings e => e.message
  | keyNotText => "keywords must be strings"
  | file e => e.message
  | database e => e.message
  | record e => e.message
  | report e => e.message
  | unsendableNumber => "Out of range float values are not JSON compliant"

/-! ## Sending documents -/

namespace Json

mutual

/-- The document without the fields whose names mark them as internal. -/
def withoutInternal : Json → Json
  | list items => list (itemsWithoutInternal items)
  | object fields => object (fieldsWithoutInternal fields)
  | v => v

def itemsWithoutInternal : List Json → List Json
  | [] => []
  | v :: rest => v.withoutInternal :: itemsWithoutInternal rest

def fieldsWithoutInternal : List (String × Json) → List (String × Json)
  | [] => []
  | (k, v) :: rest =>
    if "_sa".toList.isPrefixOf k.toList then fieldsWithoutInternal rest
    else (k, v.withoutInternal) :: fieldsWithoutInternal rest

end

mutual

/-- Whether all numbers are finite. -/
def isFinite : Json → Bool
  | double x => Binary64.isFinite x
  | list items => itemsFinite items
  | object fields => fieldsFinite fields
  | _ => true

def itemsFinite : List Json → Bool
  | [] => true
  | v :: rest => v.isFinite && itemsFinite rest

def fieldsFinite : List (String × Json) → Bool
  | [] => true
  | (_, v) :: rest => v.isFinite && fieldsFinite rest

end

end Json

namespace Response

/-- A document as it stands. -/
def plain (status : Nat) (v : Json) : Except ServiceError Response :=
  if v.isFinite then .ok ⟨status, .document v⟩ else .error .unsendableNumber

/-- A document without its internal fields. -/
def send (status : Nat) (v : Json) : Except ServiceError Response := plain status v.withoutInternal

def detail (status : Nat) (v : Json) : Except ServiceError Response := plain status (.object [("detail", v)])

def complaints (cs : List Complaint) : Except ServiceError Response :=
  send 422 (.object [("detail", .list (cs.map Complaint.toJson))])

end Response

/-! ## Answers -/

/-- What a body holds, or the answer with the complaints about it. -/
def readRequest {α : Type} (q : Request) (read : List (String × Json) → Input.Checked α) :
    Except (Except ServiceError Response) α :=
  match readBody q.body with
  | .error e =>
    match e.complaint? with
    | some c => .error (Response.complaints [c])
    | none => .error (Response.detail 400 (.text "There was an error parsing the body"))
  | .ok v => (Input.inside (.field "body") (objectOf read v)).mapError Response.complaints

/-- The report on a call graph. -/
def reportOn (g : CallGraph) (p : Parameters Float) : Except ServiceError (Report Float) :=
  match decompose g p with
  | .ok d => .ok d.report
  | .error e => .error (.report e)

def answerDecompose (q : DecomposeRequest) : Except ServiceError Response := do
  let g ← (CallGraph.ofRecords (q.records.map Record.toJson)).mapError .record
  let report ← reportOn g (q.settings.parameters q.maxSelected)
  Response.send 200 report.toJson

/-- The settings of a repository, or the complaints about what is stored. -/
def storedSettings (t : FileTree) (repo : String) : Except ServiceError (Input.Checked (Settings Float)) := do
  let raw ← (t.readSettings repo).mapError .settings
  match raw.mapM fun e => e.1.text?.map fun k => (k, e.2) with
  | none => .error .keyNotText
  | some fields => .ok (checkedSettings fields)

/-- The database of a repository, or nothing, if there is no such file. As it is opened only where there is something,
no file is made. -/
def repositoryDatabase (t : FileTree) (repo : String) : Except ServiceError (Option Database) := do
  let found ← (t.pathExists (databasePath repo)).mapError .file
  if found then
    let d ← (t.openDatabase (databasePath repo)).2.mapError .database
    .ok (some d)
  else .ok none

def unknownRepository (repo : String) : String :=
  s!"Repo '{repo}' not found. Export its call facts to data/{repo}.db"

def answerDecomposition (t : FileTree) (repo : String) (o : Overrides) : Except ServiceError Response := do
  match ← storedSettings t repo with
  | .error cs => Response.detail 422 (.list (cs.map Complaint.toShortJson))
  | .ok stored =>
    let s := stored.override o
    match ← repositoryDatabase t repo with
    | none => Response.detail 404 (.text (unknownRepository repo))
    | some d =>
      let g ← d.callGraph.mapError .database
      let report ← reportOn g (s.parameters none)
      Response.send 200 (.object (("repo_id", .text repo) :: ("config", s.toJson) :: report.fields))

def answerReadSettings (t : FileTree) (repo : String) : Except ServiceError Response := do
  let raw ← (t.readSettings repo).mapError .settings
  if raw.all fun e => e.1.isFinite then Response.send 200 raw.toJson else .error .unsendableNumber

/-- Stores settings and answers with them. -/
def answerWriteSettings (t : FileTree) (repo : String) (s : Settings Float) : FileTree × Except ServiceError Response :=
  match t.writeSettings repo s.toJson with
  | .ok t' => (t', Response.send 200 s.toJson)
  | .error e => (t, .error (.file e))

def answerRepositories (t : FileTree) : Except ServiceError Response :=
  Response.send 200 (.object [("repos", .list (t.repositories.map Repository.toJson))])

def Route.answer (t : FileTree) (q : Request) : Route → FileTree × Except ServiceError Response
  | decompose =>
    match readRequest q checkedRequest with
    | .error answer => (t, answer)
    | .ok r => (t, answerDecompose r)
  | decomposition repo =>
    match checkedOverrides (Query.fields q.query) with
    | .error cs => (t, Response.complaints cs)
    | .ok o => (t, answerDecomposition t repo o)
  | readSettings repo => (t, answerReadSettings t repo)
  | writeSettings repo =>
    match readRequest q checkedSettings with
    | .error answer => (t, answer)
    | .ok s => answerWriteSettings t repo s
  | repositories => (t, answerRepositories t)

/-- Answers a request; the tree is the one after it. -/
def handle (t : FileTree) (q : Request) : FileTree × Except ServiceError Response :=
  match Destination.of q.method q.path with
  | .route r => r.answer t q
  | .wrongMethod => (t, Response.detail 405 (.text "Method Not Allowed"))
  | .redirect => (t, .ok ⟨307, .text ""⟩)
  | .nowhere => (t, Response.detail 404 (.text "Not Found"))

end CouplingTree
