import CouplingTree.Text.Character
import CouplingTree.Text.Quoted

/-!
# Paths

A path is a root, which is empty for a relative path, and a list of names. Empty names and single dots say nothing and
are left out; double dots stay.

`suffix` and `stem` part a file name at its last dot, unless that dot is its first or last character.
-/

namespace CouplingTree

structure Path where
  root : String
  parts : List String
deriving DecidableEq, Repr

namespace Path

/-- Parts a text at every slash. -/
def splitSlashes : List Char → List (List Char)
  | [] => [[]]
  | '/' :: rest => [] :: splitSlashes rest
  | c :: rest =>
    match splitSlashes rest with
    | [] => [[c]]
    | part :: parts => (c :: part) :: parts

/-- Two slashes in front are a root of their own; three or more are one. -/
def rootOf : List Char → String
  | '/' :: '/' :: '/' :: _ => "/"
  | '/' :: '/' :: _ => "//"
  | '/' :: _ => "/"
  | _ => ""

def ofText (s : String) : Path where
  root := rootOf s.toList
  parts := ((splitSlashes s.toList).filter fun part => part ≠ [] ∧ part ≠ ['.']).map String.ofList

def text (p : Path) : String :=
  if p.root = "" ∧ p.parts = [] then "." else p.root ++ "/".intercalate p.parts

/-- The last name, or nothing. -/
def name (p : Path) : String := p.parts.getLast?.getD ""

def parent (p : Path) : Path := { p with parts := p.parts.dropLast }

/-- A path taken from the place of another one. -/
def join (p q : Path) : Path := if q.root = "" then { p with parts := p.parts ++ q.parts } else q

/-! ## File names -/

/-- The characters before the last dot of a name and those from it on, if it is neither first nor last. -/
def splitName (name : String) : List Char × List Char :=
  let cs := name.toList
  let after := (cs.reverse.takeWhile (· ≠ '.')).reverse
  let stem := cs.take (cs.length - after.length - 1)
  if after = [] ∨ stem = [] then (cs, []) else (stem, '.' :: after)

def suffix (p : Path) : String := String.ofList (splitName p.name).2

def stem (p : Path) : String := String.ofList (splitName p.name).1

end Path

end CouplingTree
