import CouplingTree.Json.Encoding
import CouplingTree.Records
import CouplingTree.Report.Basic
import CouplingTree.Service.Fields
import CouplingTree.Settings
import CouplingTree.Text.Character
import CouplingTree.Text.Utf8

/-!
# What requests contain

The bodies and the query parameters that the service understands. Unknown fields are passed over.

A query string is sent as bytes, each of which is a character. It lists names with their values, parted by ampersands.
A plus sign stands for a blank, and a percent sign with two hexadecimal digits for a byte of UTF-8. Of values under one
name the last one counts.
-/

namespace CouplingTree

/-! ## Query strings -/

namespace Query

/-- The bytes of a component; a percent sign without two digits after it stands for itself. -/
def componentBytes : List Char → List UInt8
  | '%' :: a :: b :: rest =>
    match hexValue? a, hexValue? b with
    | some high, some low => UInt8.ofNat (high * 16 + low) :: componentBytes rest
    | _, _ => UInt8.ofNat '%'.toNat :: componentBytes (a :: b :: rest)
  | c :: rest => Utf8.encode (String.singleton c) ++ componentBytes rest
  | [] => []

def decodeComponent (cs : List Char) : String :=
  String.ofList (Utf8.decodeLossy (componentBytes (cs.map fun c => if c = '+' then ' ' else c)))

/-- Parts a text at every ampersand. -/
def splitFields : List Char → List (List Char)
  | [] => [[]]
  | '&' :: rest => [] :: splitFields rest
  | c :: rest =>
    match splitFields rest with
    | [] => [[c]]
    | field :: fields => (c :: field) :: fields

/-- A name and its value; a name without an equals sign has the empty value. -/
def fieldOf (cs : List Char) : String × String :=
  (decodeComponent (cs.takeWhile (· ≠ '=')), decodeComponent ((cs.dropWhile (· ≠ '=')).drop 1))

/-- The bytes of a text, each as the character of its number. -/
def byteChars (s : String) : List Char := (Utf8.encode s).map fun b => Char.ofNat b.toNat

/-- The names and values in order. -/
def fields (s : String) : List (String × String) :=
  ((splitFields (byteChars s)).filter fun f => f ≠ []).map fieldOf

/-- The last value under a name. -/
def value? (fs : List (String × String)) (name : String) : Option String :=
  (fs.reverse.find? fun f => decide (f.1 = name)).map Prod.snd

end Query

open Input

/-! ## Documents -/

/-- Why a body is no document. -/
inductive BodyError
  | absent
  | malformed (fault : Json.Fault) (index : Nat)
  | unreadable

/-- So many lists and objects may be inside each other in a body. -/
def bodyDepth : Nat := 970

/-- The document in a body. -/
def readBody (body : String) : Except BodyError Json :=
  if body = "" then .error .absent
  else
    match Json.decode body with
    | none => .error .unreadable
    | some cs =>
      match Json.read bodyDepth cs with
      | .ok v => .ok v
      | .error (.malformed fault place) => .error (.malformed fault place.index)
      | .error _ => .error .unreadable

namespace BodyError

/-- The complaint about a body that is no document, unless there is nothing to say about it. -/
def complaint? : BodyError → Option Complaint
  | absent => some ⟨[.field "body"], .missing, .null⟩
  | malformed fault index => some ⟨[.field "body", .index index], .malformed fault.message, .object []⟩
  | unreadable => none

end BodyError

/-- An object, whose fields are read. -/
def objectOf {α : Type} (read : List (String × Json) → Checked α) : Json → Checked α
  | .object fields => read fields
  | v => .error [⟨[], .notAnObject, v⟩]

/-! ## Class records -/

/-- The record of a class; each of its lists may be left out. -/
def checkedRecord (fields : List (String × Json)) : Checked Record :=
  (both (required fields "name" text)
    (both (optional fields "methods" [] (items text)) (optional fields "calls" [] (items text)))).map
      fun r => ⟨r.1, r.2.1, r.2.2⟩

/-! ## Parameters -/

/-- The settings among some fields, the defaults where there are none. -/
def checkedSettings (fields : List (String × Json)) : Checked (Settings Float) :=
  let d : Settings Float := Settings.default
  (both (optional fields "min_coupling" d.minCoupling share)
    (both (optional fields "max_modules" d.maxModules count) (optional fields "threshold" d.threshold share))).map
      fun r => ⟨r.1, r.2.1, r.2.2⟩

/-- What is to be decomposed, and how. -/
structure DecomposeRequest where
  records : List Record
  settings : Settings Float
  maxSelected : Option Int

def checkedRequest (fields : List (String × Json)) : Checked DecomposeRequest :=
  (both (required fields "classes" (items (objectOf checkedRecord)))
    (both (checkedSettings fields) (optional fields "max_selected" none (nullable count)))).map
      fun r => ⟨r.1, r.2.1, r.2.2⟩

/-- Values that take the place of settings. -/
structure Overrides where
  minCoupling : Option Float
  maxModules : Option Int
  threshold : Option Float

/-- A query parameter, which may be left out. -/
def parameter {α : Type} (fs : List (String × String)) (name : String) (read : Json → Checked α) : Checked (Option α) :=
  match Query.value? fs name with
  | none => .ok none
  | some s => (inside (.field "query") (inside (.field name) (read (.text s)))).map some

def checkedOverrides (fs : List (String × String)) : Checked Overrides :=
  (both (parameter fs "min_coupling" share)
    (both (parameter fs "max_modules" count) (parameter fs "threshold" share))).map
      fun r => ⟨r.1, r.2.1, r.2.2⟩

namespace Settings

def override (s : Settings Float) (o : Overrides) : Settings Float :=
  ⟨o.minCoupling.getD s.minCoupling, o.maxModules.getD s.maxModules, o.threshold.getD s.threshold⟩

def parameters (s : Settings Float) (maxSelected : Option Int) : Parameters Float :=
  ⟨s.minCoupling, s.maxModules, s.threshold, maxSelected⟩

end Settings

end CouplingTree
