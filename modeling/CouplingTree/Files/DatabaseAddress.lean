import CouplingTree.Database
import CouplingTree.Files.Path
import CouplingTree.Text.Character

/-!
# Database addresses

A path to a database that starts with `file:` is an address. It names the file up to a question mark; after it come
fields, parted by ampersands, that say how the file is opened. A percent sign with two hexadecimal digits stands for a
byte, and a zero byte ends the component that it is in. Nothing counts from a number sign on.

`DatabaseAddress.ofPath_of_isPlain` : any other path is an address that leads to itself.
-/

namespace CouplingTree

/-- What a database is opened for. -/
inductive Access
  | read
  | write
  /-- To write, and a missing file is made. -/
  | create
  /-- There is no file. -/
  | memory
deriving DecidableEq, Repr

namespace Access

def ofName? : String → Option Access
  | "ro" => some read
  | "rw" => some write
  | "rwc" => some create
  | "memory" => some memory
  | _ => none

/-- Whether what a database is opened for so far lets it be opened for something else. -/
def allows : Access → Access → Bool
  | read, write => false
  | read, create => false
  | write, create => false
  | _, _ => true

end Access

structure DatabaseAddress where
  path : Path
  access : Access
  /-- Whether the database is kept apart from all files. -/
  inMemory : Bool
  /-- A file that has to be there, because a new file is made like it. -/
  model : Option String
  /-- Whether nothing beside the file is looked at, because nothing changes it. -/
  isFixed : Bool
  /-- Whether the file cannot be shared, which a log of commits needs. -/
  isUnshared : Bool
deriving DecidableEq, Repr

namespace DatabaseAddress

/-- A file that is opened as it is, or made. -/
def ofFile (p : Path) : DatabaseAddress := ⟨p, .create, false, none, false, false⟩

/-! ## Components -/

/-- The bytes of a component. -/
def componentBytes : List Char → List UInt8
  | '%' :: a :: b :: rest =>
    match hexValue? a, hexValue? b with
    | some high, some low =>
      if high = 0 ∧ low = 0 then [] else UInt8.ofNat (high * 16 + low) :: componentBytes rest
    | _, _ => UInt8.ofNat '%'.toNat :: componentBytes (a :: b :: rest)
  | c :: rest => Utf8.encode (String.singleton c) ++ componentBytes rest
  | [] => []

/-- Bytes as a text; those that are none are replaced. -/
def text (bytes : List UInt8) : String := String.ofList (Utf8.decodeLossy bytes)

/-- Parts a text at every character of a kind. -/
def splitAll (mark : Char) : List Char → List (List Char)
  | [] => [[]]
  | c :: rest =>
    if c = mark then [] :: splitAll mark rest
    else
      match splitAll mark rest with
      | [] => [[c]]
      | part :: parts => (c :: part) :: parts

/-- What is before the first character of a kind, and what is after it. -/
def splitFirst (mark : Char) (cs : List Char) : List Char × List Char :=
  (cs.takeWhile (· ≠ mark), (cs.dropWhile (· ≠ mark)).drop 1)

/-- A name and its value. -/
structure Field where
  name : String
  value : List UInt8

def fieldOf (cs : List Char) : Field :=
  let (name, value) := splitFirst '=' cs
  ⟨text (componentBytes name), componentBytes value⟩

/-- The fields that have a name. -/
def fields (cs : List Char) : List Field :=
  ((splitAll '&' cs).map fieldOf).filter fun f => f.name ≠ ""

/-! ## Fields -/

/-- The ways to reach files; the last one keeps them in memory. -/
def memorySystem : String := "memdb"

def systems : List String := ["unix", "unix-none", "unix-dotfile", "unix-excl", memorySystem]

/-- Refuses a value. It has to be a text to be shown. -/
def refuse {α : Type} (problem : AddressProblem) (value : List UInt8) : Except DatabaseError α :=
  match Utf8.decode (Utf8.encode problem.message ++ value) with
  | .ok _ => .error (.address problem (text value))
  | .error fault => .error (.undecodableAddress fault)

/-- How a database is opened according to the fields so far. -/
structure Opening where
  access : Access
  system : Option (List UInt8)

/-- Takes a field into account; those of other names say nothing here. -/
def Opening.add (o : Opening) (f : Field) : Except DatabaseError Opening :=
  match f.name with
  | "vfs" => .ok { o with system := some f.value }
  | "cache" =>
    if text f.value = "shared" ∨ text f.value = "private" then .ok o else refuse .unknownCache f.value
  | "mode" =>
    match Access.ofName? (text f.value) with
    | none => refuse .unknownAccess f.value
    | some a => if o.access.allows a then .ok { o with access := a } else refuse .refusedAccess f.value
  | _ => .ok o

/-- The way to reach files, which has to be a known one. -/
def Opening.systemName (o : Opening) : Except DatabaseError (Option String) :=
  match o.system with
  | none => .ok none
  | some value => if text value ∈ systems then .ok (some (text value)) else refuse .unknownSystem value

/-! ## Addresses -/

/-- The ways to reach files that do not share them. -/
def unsharedSystems : List String := ["unix-none", "unix-dotfile"]

/-- Whether a value says yes: a number whose lowest byte is not zero, or a word. -/
def saysYes (value : String) : Bool :=
  match value.toList with
  | c :: cs =>
    if c.isDigit then
      ((c :: cs).takeWhile Char.isDigit).foldl (fun n c => (n * 10 + (c.toNat - '0'.toNat)) % 256) 0 ≠ 0
    else lowerAscii value ∈ ["on", "yes", "true"]
  | [] => false

/-- Whether the first field of a name says yes. -/
def isSet (fs : List Field) (name : String) : Bool :=
  ((fs.find? fun f => f.name = name).map fun f => saysYes (text f.value)).getD false

/-- The name of a database that is kept in memory. -/
def memoryName : String := ":memory:"

/-- The address after its start. -/
def parse (cs : List Char) : Except DatabaseError DatabaseAddress := do
  let (file, query) := splitFirst '?' (cs.takeWhile (· ≠ '#'))
  let name := text (componentBytes file)
  let fs := fields query
  let opening ← fs.foldlM Opening.add ⟨.create, none⟩
  let system ← opening.systemName
  .ok {
    path := .ofText name
    access := opening.access
    inMemory := opening.access = .memory ∨ name = "" ∨ name = memoryName ∨ system = some memorySystem
    model := (fs.find? fun f => f.name = "modeof").map fun f => text f.value
    isFixed := isSet fs "immutable"
    isUnshared := isSet fs "nolock" ∨ system.any fun s => s ∈ unsharedSystems }

/-- What follows the start of an address. -/
def afterStart? : List Char → Option (List Char)
  | 'f' :: 'i' :: 'l' :: 'e' :: ':' :: rest => some rest
  | _ => none

/-- Whether a path is no address. -/
def isPlain (p : Path) : Bool := (afterStart? p.text.toList).isNone

def ofPath (p : Path) : Except DatabaseError DatabaseAddress :=
  match afterStart? p.text.toList with
  | some rest => parse rest
  | none => .ok (ofFile p)

theorem ofPath_of_isPlain {p : Path} (h : isPlain p = true) : ofPath p = .ok (ofFile p) := by
  unfold isPlain at h
  rw [Option.isNone_iff_eq_none] at h
  simp [ofPath, h]

end DatabaseAddress

end CouplingTree
