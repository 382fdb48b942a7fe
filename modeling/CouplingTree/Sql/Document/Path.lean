import CouplingTree.Sql.Document.Basic

/-!
# Paths into documents

A path starts with a dollar sign and leads from a document to one of its parts: a member behind a point, or an item by its
number in brackets, counted from the end behind a hash sign. What is wrong with a path is a problem only where it leads
to.

`find_nil` : a path without steps leads to the document itself.
-/

namespace CouplingTree.Sql

namespace Document

/-- A step of a path. -/
inductive Step
  | member (name : Bytes)
  | item (n : Nat)
  /-- The item so many places before the end of the list. -/
  | fromEnd (n : Nat)
deriving DecidableEq

namespace Step

def number (ds : Bytes) : Nat := LeadingNumber.number ds

/-- The number behind a bracket, and what follows the closing one. -/
def item? (rest : Bytes) : Option (Step × Bytes) :=
  let (ds, after) := LeadingNumber.readDigits rest
  match ds, after, rest with
  | _ :: _, 0x5D :: after, _ => some (.item (number ds % 0x100000000), after)
  | _, _, 0x23 :: 0x5D :: after => some (.fromEnd 0, after)
  | _, _, 0x23 :: 0x2D :: after =>
    match LeadingNumber.readDigits after with
    | (d :: ds, 0x5D :: after) => some (.fromEnd (number (d :: ds) % 0x100000000), after)
    | _ => none
  | _, _, _ => none

/-- The first step of a path, and the rest of it; or the part of the path at which it goes wrong. -/
def read : Bytes → Except Bytes (Step × Bytes)
  | 0x2E :: 0x22 :: rest =>
    let name := rest.takeWhile (· ≠ 0x22)
    match rest.drop name.length with
    | _ :: after => .ok (.member name, after)
    | [] => .error (0x22 :: rest)
  | 0x2E :: rest =>
    let name := rest.takeWhile fun b => b ≠ 0x2E && b ≠ 0x5B
    if name.isEmpty then .error rest else .ok (.member name, rest.drop name.length)
  | 0x5B :: rest => (item? rest).elim (.error (0x5B :: rest)) .ok
  | path => .error path

end Step

/-- Whether a path goes on into members or into items. -/
def goesInto (path : Bytes) : Document → Bool
  | object _ => path.head?.any (· = 0x2E)
  | list _ => path.head?.any (· = 0x5B)
  | _ => false

/-- A path that cannot go on, although there is nothing wrong with it so far. -/
def isIdle (d : Document) (path : Bytes) : Bool :=
  match d, path with
  | fixed _, _ | removed, _ => true
  | d, 0x2E :: _ =>
    match d with
    | object _ => false
    | _ => true
  | list _, _ => false
  | _, 0x5B :: 0x23 :: _ => true
  | _, _ => false

/-- The place of the item that a step means in a list of some length. -/
def itemPlace? (length : Nat) : Step → Option Nat
  | .item n => if n < length then some n else none
  | .fromEnd n => if 0 < n ∧ n ≤ length then some (length - n) else none
  | .member _ => none

/-! ## Finding -/

/-- A part of a document, with its place and the way to it. -/
structure Found where
  document : Document
  place : Nat
  /-- What it is in, and its name there. -/
  parent : Option (Document × Nat) := none
  name : Option MemberName := none
  /-- The steps that have been taken, as they are written. -/
  way : Bytes := [0x24]
  parentWay : Bytes := [0x24]

def isLetter (b : UInt8) : Bool := let c := lowerByte b; 0x61 ≤ c && c ≤ 0x7A

/-- The step to a member, as it is written. -/
def memberStep (n : MemberName) : Bytes :=
  let isPlain : Bool :=
    match n.content with
    | b :: rest => isLetter b && rest.all isWordByte
    | [] => false
  0x2E :: if isPlain then n.content else quoted n.content

def itemStep (n : Nat) : Bytes := Utf8.encode ("[" ++ toString n ++ "]")

/-- The first member of a name, with the place of its value. -/
def memberAt? (name : Bytes) : Nat → List (MemberName × Document) → Option (Nat × MemberName × Document)
  | _, [] => none
  | place, (n, d) :: rest => if n.content = name then some (place + 1, n, d) else memberAt? name (place + 1 + d.size) rest

/-- The item at a place of a list, with its place in the document. -/
def itemAt? : Nat → Nat → List Document → Option (Nat × Document)
  | _, _, [] => none
  | place, 0, d :: _ => some (place, d)
  | place, n + 1, d :: rest => itemAt? (place + d.size) n rest

/-- The part that a path leads to, in so many steps at most. -/
def find : Nat → Found → Bytes → Except Problem (Option Found)
  | _, f, [] => .ok (some f)
  | 0, _, _ => .ok none
  | fuel + 1, f, path =>
    if isIdle f.document path then .ok none
    else
      match Step.read path with
      | .error rest => .error (.brokenPath (String.ofList (Utf8.decodeLossy rest)))
      | .ok (step, rest) =>
        match f.document, step with
        | object members, .member name =>
          match memberAt? name (f.place + 1) members with
          | none => .ok none
          | some (place, n, d) =>
            find fuel ⟨d, place, some (f.document, f.place), some n, f.way ++ memberStep n, f.way⟩ rest
        | list items, step =>
          match (itemPlace? items.length step).bind fun n => itemAt? (f.place + 1) n items with
          | none => .ok none
          | some (place, d) => find fuel ⟨d, place, some (f.document, f.place), none, f.way ++ itemStep 0, f.way⟩ rest
        | _, _ => .ok none

theorem find_nil (fuel : Nat) (f : Found) : find fuel f [] = .ok (some f) := by
  cases fuel <;> rfl

/-- The steps of a path behind its dollar sign. -/
def stepsOf : Bytes → Except Problem Bytes
  | 0x24 :: steps => .ok steps
  | path => .error (.brokenPath (String.ofList (Utf8.decodeLossy path)))

/-- The part of a document that a path leads to. -/
def locate (d : Document) (path : Bytes) : Except Problem (Option Found) := do
  let steps ← stepsOf path
  find (steps.length + 1) ⟨d, 0, none, none, [0x24], [0x24]⟩ steps

def lookup (d : Document) (path : Bytes) : Except Problem (Option Document) := do
  return (← d.locate path).map Found.document

/-! ## Changing -/

/-- What is done where a path leads to: with a part that is there, and with one that is not. -/
structure Change where
  present : Document → Document
  /-- What is added where there is nothing. -/
  absent : Option Document

/-- What the rest of a path makes out of nothing. -/
def built (added : Document) : Nat → Bytes → Except Problem (Option Document)
  | _, [] => .ok (some added)
  | 0, _ => .ok none
  | fuel + 1, path =>
    if !(path.head?.any (· = 0x2E)) && !((Utf8.encode "[0]").isPrefixOf path) then .ok none
    else
      match Step.read path with
      | .error rest => .error (.brokenPath (String.ofList (Utf8.decodeLossy rest)))
      | .ok (.member name, rest) => do return (← built added fuel rest).map fun d => object [(⟨name, false⟩, d)]
      | .ok (_, rest) => do return (← built added fuel rest).map fun d => list [d]

/-- A document with a change where a path leads to, in so many steps at most. -/
def change (c : Change) : Nat → Document → Bytes → Except Problem Document
  | _, d, [] => .ok (c.present d)
  | 0, d, _ => .ok d
  | fuel + 1, d, path =>
    if isIdle d path then .ok d
    else
      match Step.read path with
      | .error rest => .error (.brokenPath (String.ofList (Utf8.decodeLossy rest)))
      | .ok (step, rest) =>
        let added : Except Problem (Option Document) :=
          match c.absent with
          | none => .ok none
          | some d => built d fuel rest
        match d, step with
        | object members, .member name =>
          match members.findIdx? fun m => m.1.content = name with
          | some i => do
            let (n, old) := members[i]?.getD (⟨name, false⟩, .null)
            return object (members.set i (n, ← change c fuel old rest))
          | none => do
            return (← added).elim d fun new => object (members ++ [(⟨name, false⟩, new)])
        | list items, step =>
          let present := (List.range items.length).filter fun i => !(items[i]?.any isRemoved)
          match (itemPlace? present.length step).bind fun n => present[n]? with
          | some i => do
            return list (items.set i (← change c fuel (items[i]?.getD .null) rest))
          | none =>
            if step = .item present.length || step = .fromEnd 0 then do
              return (← added).elim d fun new => list (items ++ [new])
            else .ok d
        | _, _ => .ok d

def changed (d : Document) (c : Change) (path : Bytes) : Except Problem Document := do
  let steps ← stepsOf path
  change c (steps.length + 1) d steps

/-! ## Merging -/

/-- A document without members that are nothing. -/
def withoutNulls : Nat → Document → Document
  | fuel + 1, object members =>
    object (members.filterMap fun m =>
      match m.2 with
      | null => none
      | d => some (m.1, withoutNulls fuel d))
  | _, d => d

/-- A document with the changes that another one describes: members that are nothing are taken away, others are merged
or put in their place. -/
def merged : Nat → Document → Document → Document
  | 0, d, _ => d
  | fuel + 1, target, object changes =>
    match target with
    | object members =>
      object (changes.foldl (fun ms c =>
        match ms.findIdx? fun m => m.1.content = c.1.content with
        | some i =>
          match c.2 with
          | null => ms.set i (c.1, .removed)
          | d => ms.set i (c.1, merged fuel (ms[i]?.elim .null Prod.snd) d)
        | none =>
          match c.2 with
          | null => ms
          | d => ms ++ [(c.1, withoutNulls fuel d)]) members)
    | _ => withoutNulls fuel (object changes)
  | _, _, d => d

/-! ## Parts as rows -/

/-- A part of a document as a row of a table. -/
structure Part where
  key : Value
  document : Document
  id : Nat
  parent : Option Nat
  way : Bytes
  path : Bytes

/-- The key of a member, and where its value is. -/
def keyOf (n : MemberName) : Value := .text (content n.content)

/-- The direct parts of what a path has led to, or that itself if it has none. -/
def partsOf (root : Bytes) (f : Found) : List Part :=
  match f.document with
  | list items =>
    (items.foldl (fun (s : Nat × Nat × List Part) d =>
      (s.1 + d.size, s.2.1 + 1, ⟨.integer s.2.1, d, s.1, none, root ++ itemStep s.2.1, root⟩ :: s.2.2))
      (f.place + 1, 0, [])).2.2.reverse
  | object members =>
    (members.foldl (fun (s : Nat × List Part) m =>
      (s.1 + 1 + m.2.size, ⟨keyOf m.1, m.2, s.1 + 1, none, root ++ memberStep m.1, root⟩ :: s.2))
      (f.place + 1, [])).2.reverse
  | d => [⟨.null, d, f.place, none, root, root⟩]

/-- A document and all that is in it, nested so deeply at most. -/
def partsBelow : Nat → Part → List Part
  | 0, p => [p]
  | depth + 1, p =>
    p :: match p.document with
    | list items =>
      (items.foldl (fun (s : Nat × Nat × List (List Part)) d =>
        (s.1 + d.size, s.2.1 + 1,
          partsBelow depth ⟨.integer s.2.1, d, s.1, some p.id, p.way ++ itemStep s.2.1, p.way⟩ :: s.2.2))
        (p.id + 1, 0, [])).2.2.reverse.flatten
    | object members =>
      (members.foldl (fun (s : Nat × List (List Part)) m =>
        (s.1 + 1 + m.2.size,
          partsBelow depth ⟨keyOf m.1, m.2, s.1 + 1, some p.id, p.way ++ memberStep m.1, p.way⟩ :: s.2))
        (p.id + 1, [])).2.reverse.flatten
    | _ => []

/-- What a path has led to and all that is in it. -/
def allParts (f : Found) : List Part :=
  let isWhole : Bool :=
    match f.document with
    | list _ | object _ => false
    | _ => true
  let key := if isWhole then .null else (f.name.map keyOf).getD .null
  partsBelow depthLimit ⟨key, f.document, f.place, none, f.way, f.parentWay⟩

end Document

end CouplingTree.Sql
