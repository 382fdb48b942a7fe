import CouplingTree.Sql.Value

/-!
# Patterns

A pattern is a list of items, each of which stands for one character or for any number of them. `ofLike` and `ofGlob`
read the two ways to write patterns.

`matchesAll_exactly` : a pattern without wildcards matches the text that it is.
-/

namespace CouplingTree.Sql

/-- Splits bytes into the continuation bytes in front and the characters after them. A byte that begins a longer
character takes the continuation bytes behind it with it; otherwise each of them is a character. -/
def splitCharacters : Bytes → Bytes × List Bytes
  | [] => ([], [])
  | b :: rest =>
    let (loose, cs) := splitCharacters rest
    if 0xC0 ≤ b then ([], (b :: loose) :: cs)
    else if 0x80 ≤ b then (b :: loose, cs)
    else ([], [b] :: (loose.map ([·]) ++ cs))

def characters (bs : Bytes) : List Bytes :=
  let (loose, cs) := splitCharacters bs
  loose.map ([·]) ++ cs

inductive PatternItem
  /-- Any number of characters. -/
  | many
  | one
  | exactly (c : Bytes)
  /-- A character in some ranges, or in none of them. -/
  | oneOf (negated : Bool) (ranges : List (Bytes × Bytes))
deriving DecidableEq

namespace Pattern

/-- Whether a property holds of the end of a list from some place on. -/
def anySuffix (p : List Bytes → Bool) : List Bytes → Bool
  | [] => p []
  | c :: cs => p (c :: cs) || anySuffix p cs

def accepts (fold : Bytes → Bytes) (c : Bytes) : PatternItem → Bool
  | .many => false
  | .one => true
  | .exactly d => decide (fold c = fold d)
  | .oneOf negated ranges =>
    negated != ranges.any fun r => compareBytes r.1 c ≠ .gt ∧ compareBytes c r.2 ≠ .gt

/-- Whether all of a text is as the items say. Characters that are folded to the same one count as one. -/
def matchesAll (fold : Bytes → Bytes) : List PatternItem → List Bytes → Bool
  | [], cs => cs.isEmpty
  | .many :: items, cs => anySuffix (matchesAll fold items) cs
  | _ :: _, [] => false
  | item :: items, c :: cs => accepts fold c item && matchesAll fold items cs

theorem matchesAll_exactly (fold : Bytes → Bytes) : ∀ cs : List Bytes, matchesAll fold (cs.map .exactly) cs = true
  | [] => rfl
  | c :: cs => by simp [matchesAll, accepts, matchesAll_exactly fold cs]

/-- Items from characters where a percent sign is any number of characters and an underscore one. The escape character
takes the meaning from the one after it. -/
def ofLike (escape : Option Bytes) : List Bytes → List PatternItem
  | [] => []
  | [c] => if some c = escape then [.oneOf false []] else [plain c]
  | c :: d :: rest =>
    if some c = escape then .exactly d :: ofLike escape rest else plain c :: ofLike escape (d :: rest)
where
  plain (c : Bytes) : PatternItem := if c = [0x25] then .many else if c = [0x5F] then .one else .exactly c

/-- The ranges before a closing bracket, and what follows it. -/
def ranges? : List Bytes → Option (List (Bytes × Bytes) × List Bytes)
  | [] => none
  | [c] => if c = [0x5D] then some ([], []) else none
  | [c, d] => if c = [0x5D] then some ([], [d]) else if d = [0x5D] then some ([(c, c)], []) else none
  | c :: d :: e :: rest =>
    if c = [0x5D] then some ([], d :: e :: rest)
    else if d = [0x2D] ∧ e ≠ [0x5D] then (ranges? rest).map fun r => ((c, e) :: r.1, r.2)
    else (ranges? (d :: e :: rest)).map fun r => ((c, c) :: r.1, r.2)

/-- The set after an opening bracket. A closing bracket in front is one of its characters. -/
def set (cs : List Bytes) : PatternItem × List Bytes :=
  let negated := cs.head?.any (· = [0x5E])
  let body := if negated then cs.drop 1 else cs
  let found :=
    if body.head?.any (· = [0x5D]) then
      (ranges? (body.drop 1)).map fun r => (([0x5D], [0x5D]) :: r.1, r.2)
    else ranges? body
  match found with
  | some (rs, rest) => (.oneOf negated rs, rest)
  | none => (.oneOf false [], [])

/-- Items from characters where a star is any number of characters, a question mark one, and brackets hold a set. -/
def ofGlob : Nat → List Bytes → List PatternItem
  | 0, _ => []
  | _, [] => []
  | fuel + 1, c :: rest =>
    if c = [0x2A] then .many :: ofGlob fuel rest
    else if c = [0x3F] then .one :: ofGlob fuel rest
    else if c = [0x5B] then (set rest).1 :: ofGlob fuel (set rest).2
    else .exactly c :: ofGlob fuel rest

def like (escape : Option Bytes) (pattern text : Bytes) : Bool :=
  matchesAll (·.map lowerByte) (ofLike escape (characters (beforeZero pattern))) (characters (beforeZero text))

def glob (pattern text : Bytes) : Bool :=
  let cs := characters (beforeZero pattern)
  matchesAll id (ofGlob cs.length cs) (characters (beforeZero text))

end Pattern

end CouplingTree.Sql
