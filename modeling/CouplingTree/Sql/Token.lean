import CouplingTree.Sql.Problem
import CouplingTree.Text.Character

/-!
# Tokens

`tokens` parts a statement into words, quoted names, texts, numbers and signs; blanks and comments are left out. Every
token keeps the place where it starts, so that a part of a statement can be shown as it is written.

`length_tokens_pos` : there is always a last token, which says that nothing follows.
-/

namespace CouplingTree.Sql

/-- What a token is. -/
inductive TokenKind
  | word
  /-- A word that is none elsewhere: it has a meaning only between its neighbours. -/
  | keyword
  | name
  | text
  | blob
  | integer
  | real
  | sign
  | parameter
  /-- Something that no statement has. -/
  | illegal
  | stop
deriving DecidableEq, Repr

structure Token where
  kind : TokenKind
  /-- How it is written. -/
  source : String
  /-- What is between the quotes; any other token is its own content. -/
  content : String
  start : Nat
deriving DecidableEq, Repr

namespace Token

/-! ## Characters -/

/-- Whether a character belongs to words. -/
def isWordChar (c : Char) : Bool := c.isAlphanum || c = '_' || c = '$' || decide (0x80 ≤ c.toNat)

/-- Whether a character may begin a word. -/
def isWordStart (c : Char) : Bool := c.isAlpha || c = '_' || decide (0x80 ≤ c.toNat)

/-- A mark of the byte order counts as a blank. -/
def isBlank (c : Char) : Bool :=
  c = ' ' || c = '\t' || c = '\n' || c = '\x0c' || c = '\r' || decide (c.toNat = 0xFEFF)

def isHexDigit (c : Char) : Bool := c.isDigit || ('a' ≤ c && c ≤ 'f') || ('A' ≤ c && c ≤ 'F')

/-! ## Pieces -/

/-- How many characters at the start have a property. -/
def span (p : Char → Bool) (cs : List Char) : Nat := (cs.takeWhile p).length

/-- What is quoted up to a closing character, and how many characters that takes with it. A closing character that is
doubled stands for itself. -/
def quoted? (close : Char) : List Char → Option (List Char × Nat)
  | [] => none
  | [c] => if c = close then some ([], 1) else none
  | c :: d :: rest =>
    if c ≠ close then (quoted? close (d :: rest)).map fun q => (c :: q.1, q.2 + 1)
    else if d = close then (quoted? close rest).map fun q => (c :: q.1, q.2 + 2)
    else some ([], 1)

/-- How long a comment between slashes and stars is after its start. -/
def commentLength : List Char → Nat
  | '*' :: '/' :: _ => 2
  | _ :: rest => commentLength rest + 1
  | [] => 0

/-- How many characters at the start say nothing. -/
def skipped : List Char → Nat
  | '-' :: '-' :: rest => 2 + span (· ≠ '\n') rest
  | '/' :: '*' :: c :: rest => 2 + commentLength (c :: rest)
  | c :: _ => if isBlank c then 1 else 0
  | [] => 0

/-- How long an exponent is. -/
def exponentLength : List Char → Nat
  | e :: c :: rest =>
    if e ≠ 'e' ∧ e ≠ 'E' then 0
    else if c.isDigit then 1 + span Char.isDigit (c :: rest)
    else if (c = '+' ∨ c = '-') ∧ rest.head?.any Char.isDigit then 2 + span Char.isDigit rest
    else 0
  | _ => 0

/-- A number. Characters of words right after it make it illegal. -/
def number (cs : List Char) : TokenKind × Nat :=
  let (kind, n) :=
    match cs with
    | '0' :: x :: d :: rest =>
      if (x = 'x' ∨ x = 'X') ∧ isHexDigit d then (TokenKind.integer, 2 + span isHexDigit (d :: rest)) else plain cs
    | cs => plain cs
  let extra := span isWordChar (cs.drop n)
  if extra = 0 then (kind, n) else (.illegal, n + extra)
where
  /-- A number in decimal digits. -/
  plain (cs : List Char) : TokenKind × Nat :=
    let whole := span Char.isDigit cs
    let point :=
      match cs.drop whole with
      | '.' :: rest => 1 + span Char.isDigit rest
      | _ => 0
    let exponent := exponentLength (cs.drop (whole + point))
    (if point + exponent = 0 then .integer else .real, whole + point + exponent)

/-- What is quoted up to a closing character is a token of a kind; without the end it is illegal. -/
def quotation (kind : TokenKind) (close : Char) (rest : List Char) : TokenKind × List Char × Nat :=
  match quoted? close rest with
  | some (content, n) => (kind, content, n + 1)
  | none => (.illegal, [], rest.length + 1)

/-- A name in brackets. -/
def bracketed (rest : List Char) : TokenKind × List Char × Nat :=
  let n := span (· ≠ ']') rest
  if n = rest.length then (.illegal, [], n + 1) else (.name, rest.take n, n + 2)

/-- A blob after its mark: pairs of digits in quotes. -/
def blob (rest : List Char) : TokenKind × List Char × Nat :=
  let n := span isHexDigit rest
  if rest.drop n |>.head?.any (· = '\x27') then
    if n % 2 = 0 then (.blob, rest.take n, n + 3) else (.illegal, [], n + 3)
  else
    let m := span (· ≠ '\x27') rest
    (.illegal, [], if m = rest.length then m + 2 else m + 3)

/-- Signs of more than one character, longer ones first. -/
def longSigns : List String := ["->>", "->", "||", "<<", ">>", "<=", ">=", "<>", "!=", "=="]

def shortSigns : List Char := ['(', ')', ';', '+', '-', '*', '/', '%', '=', '<', '>', '|', ',', '&', '~', '.']

def signAt (cs : List Char) : TokenKind × Nat :=
  match longSigns.find? fun s => s.toList.isPrefixOf cs with
  | some s => (.sign, s.length)
  | none => if cs.head?.any (· ∈ shortSigns) then (.sign, 1) else (.illegal, 1)

/-- A parameter after its mark. -/
def parameterAt (rest : List Char) : TokenKind × Nat :=
  let n := span isWordChar rest
  if n = 0 then (.illegal, 1) else (.parameter, n + 1)

/-- The kind of the first token, its content if that is not how it is written, and its length. -/
def first (cs : List Char) : TokenKind × Option (List Char) × Nat :=
  let plain (t : TokenKind × Nat) : TokenKind × Option (List Char) × Nat := (t.1, none, t.2)
  let withContent (t : TokenKind × List Char × Nat) : TokenKind × Option (List Char) × Nat := (t.1, some t.2.1, t.2.2)
  match cs with
  | [] => (.stop, none, 0)
  | c :: rest =>
    if c = '\x27' then withContent (quotation .text c rest)
    else if c = '"' ∨ c = '\x60' then withContent (quotation .name c rest)
    else if c = '[' then withContent (bracketed rest)
    else if (c = 'x' ∨ c = 'X') ∧ rest.head?.any (· = '\x27') then withContent (blob (rest.drop 1))
    else if c.isDigit ∨ c = '.' ∧ rest.head?.any Char.isDigit then plain (number cs)
    else if isWordStart c then plain (.word, span isWordChar cs)
    else if c = '?' then (.parameter, none, 1 + span Char.isDigit rest)
    else if c = '$' ∨ c = '@' ∨ c = '#' ∨ c = ':' then plain (parameterAt rest)
    else plain (signAt cs)

/-! ## Statements -/

/-- The tokens from a place on, with so many steps at most. -/
def tokensFrom : Nat → Nat → List Char → List Token
  | 0, place, _ => [⟨.stop, "", "", place⟩]
  | _, place, [] => [⟨.stop, "", "", place⟩]
  | fuel + 1, place, cs =>
    let blank := skipped cs
    if 0 < blank then tokensFrom fuel (place + blank) (cs.drop blank)
    else
      let (kind, content, n) := first cs
      let source := String.ofList (cs.take n)
      ⟨kind, source, (content.map String.ofList).getD source, place⟩ :: tokensFrom fuel (place + n) (cs.drop n)

theorem length_tokensFrom_pos : ∀ (fuel place : Nat) (cs : List Char), 0 < (tokensFrom fuel place cs).length
  | 0, _, _ => by simp [tokensFrom]
  | _ + 1, _, [] => by simp [tokensFrom]
  | fuel + 1, place, c :: cs => by
    unfold tokensFrom
    simp only
    split
    · exact length_tokensFrom_pos fuel _ _
    · simp

/-! ## Words -/

/-- Whether a token is a word, in letters of either case. -/
def isWord (w : String) (t : Token) : Bool := decide (t.kind = .word) && decide (lowerAscii t.source = w)

def isKeyword (w : String) (t : Token) : Bool := decide (t.kind = .keyword) && decide (lowerAscii t.source = w)

def isSign (s : String) (t : Token) : Bool := decide (t.kind = .sign) && decide (t.source = s)

/-- Words that say how tables are joined. They may be names, but not behind an expression. -/
def joinWords : List String := ["cross", "full", "inner", "left", "natural", "outer", "right"]

/-- Words that are no names. -/
def reservedWords : List String := [
  "add", "all", "alter", "and", "as", "autoincrement", "between", "case", "check", "collate", "commit", "constraint",
  "create", "default", "deferrable", "delete", "distinct", "drop", "else", "escape", "except", "exists", "foreign",
  "from", "group", "having", "in", "index", "insert", "intersect", "into", "is", "isnull", "join", "limit", "not",
  "nothing", "notnull", "null", "on", "or", "order", "primary", "references", "returning", "select", "set", "table",
  "then", "to", "transaction", "union", "unique", "update", "using", "values", "when", "where"]

/-- The name that a token is behind an expression or a table. -/
def alias? (t : Token) : Option String :=
  match t.kind with
  | .name | .text => some t.content
  | .word =>
    if lowerAscii t.source ∈ reservedWords ∨ lowerAscii t.source ∈ joinWords ∨ lowerAscii t.source = "indexed" then none
    else some t.source
  | _ => none

/-- The name that a token is where a name is due. -/
def name? (t : Token) : Option String :=
  match t.kind with
  | .name | .text => some t.content
  | .word => if lowerAscii t.source ∈ reservedWords then none else some t.source
  | _ => none

/-! ## Words with a meaning between their neighbours -/

/-- The word that a token is between the one before it and those behind it. Windows are named in front of their
definitions, and a function is followed by a window or a filter in brackets. -/
def inContext (before : Option Token) (t : Token) (behind : List Token) : Token :=
  let isBracket : Option Token → String → Bool := fun t s => t.any (isSign s)
  let isName : Bool := behind.head?.any fun t => t.name?.isSome
  let isMeant : Bool :=
    t.isWord "window" && isName && behind[1]?.any (isWord "as") ||
    t.isWord "over" && isBracket before ")" && (isBracket behind.head? "(" || isName) ||
    t.isWord "filter" && isBracket before ")" && isBracket behind.head? "("
  if isMeant then { t with kind := .keyword } else t

def allInContext (before : Option Token) : List Token → List Token
  | [] => []
  | t :: rest => inContext before t rest :: allInContext (some t) rest

theorem length_allInContext : ∀ (before : Option Token) (ts : List Token), (allInContext before ts).length = ts.length
  | _, [] => rfl
  | _, t :: rest => by simp [allInContext, length_allInContext (some t) rest]

end Token

/-- The tokens of a statement up to a zero. -/
def tokens (statement : List Char) : List Token :=
  let cs := statement.takeWhile (· ≠ '\x00')
  Token.allInContext none (Token.tokensFrom (cs.length + 1) 0 cs)

theorem length_tokens_pos (statement : List Char) : 0 < (tokens statement).length := by
  rw [tokens, Token.length_allInContext]
  exact Token.length_tokensFrom_pos _ _ _

end CouplingTree.Sql
