import CouplingTree.OrderedMap
import CouplingTree.OtherName

/-!
# JSON values

Integers and doubles are told apart, and the fields of an object keep their order. `Json.display` is the text of a value
inside messages.
-/

namespace CouplingTree

inductive Json
  | null
  | bool (b : Bool)
  | int (i : Int)
  | double (x : Float)
  | text (s : String)
  | list (items : List Json)
  | object (fields : List (String × Json))
deriving Inhabited

namespace Json

/-- The field of an object. -/
def field? (key : String) : Json → Option Json
  | object fields => Entries.find? key fields
  | _ => none

def text? : Json → Option String
  | text s => some s
  | _ => none

def texts (xs : List String) : Json := list (xs.map text)

/-- A name that is no text. -/
def ofOther : OtherName → Json
  | .missing => null
  | .integer i => int i
  | .double x => double x
  | .bytes bs => text (OtherName.bytes bs).display

/-- A name, which may be no text. -/
def ofName (s : String) : Json :=
  match OtherName.ofText? s with
  | none => text s
  | some n => ofOther n

def names (xs : List String) : Json := list (xs.map ofName)

/-- An object from entries in which a key may come again: it keeps its first place and takes its last value. -/
def ofEntries (es : List (String × Json)) : Json :=
  object (es.foldl (fun fields e => Entries.insert e.1 e.2 fields) [])

/-! ## Kinds -/

/-- What a key or a value is called in a message. -/
def kindName : Json → String
  | .null => "NoneType"
  | .bool _ => "bool"
  | .int _ => "int"
  | .double _ => "float"
  | .text _ => "str"
  | .list _ => "list"
  | .object _ => "dict"

/-- What a value is made of, when it is taken as a sequence: items, characters, or keys. -/
def sequence? : Json → Option (List Json)
  | .list items => some items
  | .text s => some (s.toList.map fun c => .text (String.singleton c))
  | .object fields => some (fields.map fun f => .text f.1)
  | _ => none

/-! ## Values inside messages -/

mutual

def display : Json → String
  | null => "None"
  | bool b => if b then "True" else "False"
  | int i => toString i
  | double x => DoubleStyle.display.text x
  | text s => quoted s
  | list items => bracketed (displayItems items)
  | object fields => "\x7b" ++ ", ".intercalate (displayFields fields) ++ "\x7d"

def displayItems : List Json → List String
  | [] => []
  | v :: rest => v.display :: displayItems rest

def displayFields : List (String × Json) → List String
  | [] => []
  | (k, v) :: rest => (quoted k ++ ": " ++ v.display) :: displayFields rest

end

end Json

end CouplingTree
