import CouplingTree.FactSource
import CouplingTree.Json.Writer
import CouplingTree.Numbers.Scalar

/-!
# Settings of a repository

Each repository may have settings of its own in the data directory, which override the defaults. They are stored as a
JSON document: an object, or a list of keys with their values. `readSettings` merges what is stored into the defaults,
`writeSettings` stores an object.
-/

namespace CouplingTree

/-- Where the databases and the settings of the repositories are. -/
def dataDirectory : Path := .ofText "data"

/-- What a decomposition of a repository depends on. -/
structure Settings (α : Type) where
  minCoupling : α
  maxModules : Int
  threshold : α

namespace Settings

def default {α : Type} [Scalar α] : Settings α := ⟨0, 5, 0⟩

def fields (s : Settings Float) : List (String × Json) :=
  [("min_coupling", .double s.minCoupling), ("max_modules", .int s.maxModules), ("threshold", .double s.threshold)]

def toJson (s : Settings Float) : Json := .object s.fields

end Settings

/-! ## Merging -/

/-- Stored settings before any check. A key that comes from a list need not be a text. -/
abbrev RawSettings := List (Json × Json)

namespace RawSettings

/-- The number that a key counts as. -/
def number? : Json → Option Rat
  | .bool b => some (if b then 1 else 0)
  | .int i => some (Rat.ofInt i)
  | .double x => Binary64.toRat? x
  | _ => none

/-- Whether two keys are the same: equal texts, or equal numbers of whatever kind. A double that is no number is the same
as itself. -/
def sameKey : Json → Json → Bool
  | .text s, .text t => decide (s = t)
  | .null, .null => true
  | .double x, .double y =>
    decide (Binary64.value x = Binary64.value y) ||
      (Binary64.isFinite x && decide (Binary64.toRat? x = Binary64.toRat? y))
  | a, b =>
    match number? a, number? b with
    | some p, some q => decide (p = q)
    | _, _ => false

/-- Gives a key a value; one that is there keeps its place and its form. -/
def put (key value : Json) : RawSettings → RawSettings
  | [] => [(key, value)]
  | (k, v) :: rest => if sameKey k key then (k, value) :: rest else (k, v) :: put key value rest

/-- Gives keys their values from left to right. -/
def putAll (raw : RawSettings) (es : List (Json × Json)) : RawSettings := es.foldl (fun raw e => raw.put e.1 e.2) raw

def ofFields (fields : List (String × Json)) : RawSettings := fields.map fun f => (.text f.1, f.2)

def defaults : RawSettings := ofFields Settings.default.fields

inductive MergeError
  | notIterable (kind : String)
  | notASequence (index : Nat)
  | wrongLength (index length : Nat)
  | unhashable (kind : String)
deriving DecidableEq, Repr

def MergeError.message : MergeError → String
  | notIterable kind => s!"'{kind}' object is not iterable"
  | notASequence index => s!"cannot convert dictionary update sequence element #{index} to a sequence"
  | wrongLength index length => s!"dictionary update sequence element #{index} has length {length}; 2 is required"
  | unhashable kind => s!"unhashable type: '{kind}'"

def isHashable : Json → Bool
  | .list _ => false
  | .object _ => false
  | _ => true

/-- The key and the value in an element of a list, the element standing at a place. -/
def entryOf (index : Nat) (element : Json) : Except MergeError (Json × Json) :=
  match Json.sequence? element with
  | none => .error (.notASequence index)
  | some [key, value] => if isHashable key then .ok (key, value) else .error (.unhashable key.kindName)
  | some parts => .error (.wrongLength index parts.length)

def entriesFrom (index : Nat) : List Json → Except MergeError (List (Json × Json))
  | [] => .ok []
  | element :: rest => do
    let e ← entryOf index element
    let es ← entriesFrom (index + 1) rest
    .ok (e :: es)

/-- The keys and values of a stored document. -/
def entriesOf : Json → Except MergeError (List (Json × Json))
  | .object fields => .ok (ofFields fields)
  | v =>
    match Json.sequence? v with
    | some elements => entriesFrom 0 elements
    | none => .error (.notIterable v.kindName)

/-- Merges a stored document. -/
def merge (raw : RawSettings) (stored : Json) : Except MergeError RawSettings := do
  let es ← entriesOf stored
  .ok (raw.putAll es)

/-- The text of a key in a document. -/
def keyText : Json → String
  | .text s => s
  | k => String.ofList k.plainText

def toJson (raw : RawSettings) : Json := .object (raw.map fun e => (keyText e.1, e.2))

end RawSettings

/-! ## The store -/

/-- The file with the settings of a repository. -/
def settingsPath (repo : String) : Path := dataDirectory.join (.ofText (repo ++ ".decomposition.json"))

inductive SettingsError
  | load (e : LoadError)
  | merge (e : RawSettings.MergeError)

def SettingsError.message : SettingsError → String
  | load e => e.message
  | merge e => e.message

namespace FileTree

/-- The defaults with the settings of a repository over them. -/
def readSettings (t : FileTree) (repo : String) : Except SettingsError RawSettings := do
  let found ← (t.pathExists (settingsPath repo)).mapError fun e => SettingsError.load (.file e)
  if found then
    let stored ← (t.readJson (settingsPath repo)).mapError .load
    (RawSettings.defaults.merge stored).mapError .merge
  else .ok RawSettings.defaults

def writeSettings (t : FileTree) (repo : String) (settings : Json) : Except FileError FileTree :=
  t.write (settingsPath repo) (Utf8.encode settings.indented)

end FileTree

end CouplingTree
