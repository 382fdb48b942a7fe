import CouplingTree.Sql.Grammar.Window
import CouplingTree.Text.Character

/-!
# Reading expressions

Operators bind more or less closely, and those that bind alike are taken from left to right. Each level is read with
operands of the next closer one.
-/

namespace CouplingTree.Sql

open Parser

namespace Grammar

/-! ## Numbers and blobs -/

/-- The number in digits of a base. -/
def digitsValue (base : Nat) (cs : List Char) : Nat := cs.foldl (fun n c => n * base + (hexValue? c).getD 0) 0

/-- An integer that takes all of 64 bits may be negative. -/
def wrap (n : Nat) : Int := if n < Nat.pow 2 63 then n else (n : Int) - Nat.pow 2 64

def integerValue (source : String) : Value :=
  match source.toList with
  | '0' :: 'x' :: ds | '0' :: 'X' :: ds => .integer (wrap (digitsValue 16 ds))
  | ds => ((LeadingNumber.read? (Utf8.encode (String.ofList ds))).map LeadingNumber.toValue).getD .null

def realValue (source : String) : Value :=
  ((LeadingNumber.read? (Utf8.encode source)).map fun n => Value.real n.toDouble).getD .null

def blobBytes : List Char → Bytes
  | a :: b :: rest => UInt8.ofNat (digitsValue 16 [a, b]) :: blobBytes rest
  | _ => []

/-- The value that a token stands for. -/
def literal? (t : Token) : Option Value :=
  match t.kind with
  | .integer => some (integerValue t.source)
  | .real => some (realValue t.source)
  | .text => some (.ofString t.content)
  | .blob => some (.blob (blobBytes t.content.toList))
  | .word => if t.isWord "null" then some .null else none
  | _ => none

/-! ## Operators -/

/-- The operator that a sign is on a level, from the loosest one on. -/
def operator? (level : Nat) (t : Token) : Option BinaryOp :=
  let word (w : String) (op : BinaryOp) : Option BinaryOp := if t.isWord w then some op else none
  let signs (table : List (String × BinaryOp)) : Option BinaryOp :=
    if t.kind = .sign then table.lookup t.source else none
  match level with
  | 0 => word "or" .or
  | 1 => word "and" .and
  | 3 => signs [("<", .compare .less), ("<=", .compare .atMost), (">", .compare .greater), (">=", .compare .atLeast)]
  | 4 => signs [("&", .arithmetic .bitAnd), ("|", .arithmetic .bitOr), ("<<", .arithmetic .shiftLeft),
      (">>", .arithmetic .shiftRight)]
  | 5 => signs [("+", .arithmetic .add), ("-", .arithmetic .subtract)]
  | 6 => signs [("*", .arithmetic .multiply), ("/", .arithmetic .divide), ("%", .arithmetic .remainder)]
  | 7 => signs [("||", .concat)]
  | _ => none

/-- The level of equality and of what is like it. -/
def equalityLevel : Nat := 2

/-- The level of the arrows that lead into documents. -/
def arrowLevel : Nat := 7

/-- The operators of the closest level are in front of their operands. -/
def closestLevel : Nat := 8

/-- The functions behind words for patterns. -/
def patternFunctions : List String := ["like", "glob", "regexp", "match"]

/-- The function of a pattern that a token stands for, as it is written. -/
def patternFunction? (t : Token) : Option String := if patternFunctions.any t.isWord then some t.source else none

/-- Words that stand for functions without values. -/
def clockWords : List String := ["current_date", "current_time", "current_timestamp"]

variable (g : Grammar)

/-- A query or nothing, according to whether one begins. -/
def query? : Parser (Option Query) := do
  let t ← peek
  if t.isWord "select" || t.isWord "values" || t.isWord "with" then return some (← g.query) else return none

/-- The last of one or two names, with the first of two. -/
def qualifiedName : Parser (Option String × String) := do
  let first ← name
  if ← acceptSign "." then return (some first, ← name) else return (none, first)

/-! ## Operators of equality -/

/-- The values of a row that is one of several. -/
def rowOf (width : Nat) (e : Expr) : Except Problem (List Expr) :=
  let es : List Expr :=
    match e with
    | .row es => es
    | e => [e]
  if es.length = width then .ok es else .error (.rowWidth es.length width)

/-- What it is to be one of some items. -/
def memberOfItems (e : Expr) (items : List Expr) : Except Problem Expr :=
  match e, items with
  | _, [] => .ok (.column none none "false" .bare)
  | .row es, [.single q] => .ok (.memberOf (.row es) q)
  | .row es, items => do return .memberOf (.row es) (.ofRows (← items.mapM (rowOf es.length)))
  | e, [item] =>
    if item.isLiteral then .ok (.binary (.compare .equal) e (.unary .plus item))
    else
      match item with
      | .single q => .ok (.memberOf e q)
      | item => .ok (.member e [item])
  | e, items => .ok (.member e items)

/-- What a value may be one of. To be none of no items is true. -/
def membership (negated : Bool) (e : Expr) : Parser Expr := do
  if (← peek).isSign "(" then
    skip
    match ← g.query? with
    | some q =>
      expectSign ")"
      return .negatedIf negated (.memberOf e q)
    | none =>
      let items ← if (← peek).isSign ")" then pure [] else commaList g.expression
      expectSign ")"
      if items.isEmpty && negated then return .column none none "true" .bare
      else return .negatedIf negated (← memberOfItems e items)
  else
    let (schema, n) ← qualifiedName
    let source ←
      if ← acceptSign "(" then
        let arguments ← if (← peek).isSign ")" then pure [] else commaList g.expression
        expectSign ")"
        pure (Source.function schema n arguments none)
      else pure (Source.table schema n none .free)
    return .negatedIf negated (.memberOf e (.ofSource [.all] source []))

/-- A comparison with `is`, where nothing has a test of its own. -/
def identityOf (op : Comparison) (e other : Expr) : Expr :=
  match other with
  | .value .null => .unary (if op = .is then .isNull else .notNull) e
  | other => .binary (.compare op) e other

/-- The rest of a comparison with `is`. -/
def identity (operand : Parser Expr) (e : Expr) : Parser Expr := do
  let negated ← acceptWord "not"
  let distinct ← acceptWords "distinct" ["from"]
  return identityOf (if negated = distinct then .is else .isNot) e (← operand)

/-- What follows an operand on the level of equality, with operands of the next level; so many are in each other. -/
def equality (operand : Parser Expr) : Nat → Expr → Parser (Option Expr)
  | 0, _ => refuse
  | fuel + 1, e => do
    if (← acceptSign "=") || (← acceptSign "==") then return some (.binary (.compare .equal) e (← operand))
    else if (← acceptSign "<>") || (← acceptSign "!=") then return some (.binary (.compare .unequal) e (← operand))
    else if ← acceptWord "isnull" then return some (.unary .isNull e)
    else if ← acceptWord "notnull" then return some (.unary .notNull e)
    else if ← acceptWord "is" then return some (← identity operand e)
    else
      let negated ← acceptWord "not"
      if negated && (← acceptWord "null") then return some (.unary .notNull e)
      else if ← acceptWord "between" then
        let low ← extendAll (equality operand fuel) (← operand)
        expectWord "and"
        return some (.negatedIf negated (.between e low (← operand)))
      else if ← acceptWord "in" then return some (← g.membership negated e)
      else
        match ← takeIf? patternFunction? with
        | some f =>
          let pattern ← operand
          match ← after? "escape" operand with
          | some escape => return some (.negatedIf negated (.ofCall f [pattern, e, escape]))
          | none => return some (.negatedIf negated (.ofCall f [pattern, e]))
        | none => if negated then refuse else return none

/-! ## Operands -/

def choice : Parser Expr := do
  let base ← if (← peek).isWord "when" then pure none else pure (some (← g.expression))
  let first ← branch
  let branches ← extendAll (fun bs => do
    if (← peek).isWord "when" then return some ((← branch) :: bs) else return none) [first]
  let otherwise ← after? "else" g.expression
  expectWord "end"
  return .choice base branches.reverse otherwise
where
  branch : Parser (Expr × Expr) := do
    expectWord "when"
    let condition ← g.expression
    expectWord "then"
    return (condition, ← g.expression)

/-- A name of a type: words and, in brackets, numbers. -/
def typeName : Parser String := do
  let words ← extendAll (fun ws => do
    match ← takeIf? Token.alias? with
    | some w => return some (w :: ws)
    | none => return none) []
  if words.isEmpty then return ""
  else
    let size ← inBrackets? (commaList signedNumber)
    let base := " ".intercalate words.reverse
    return match size with
      | some ns => base ++ "(" ++ ",".intercalate ns ++ ")"
      | none => base
where
  signedNumber : Parser String := do
    let minus ← acceptSign "-"
    let _ ← if minus then pure false else acceptSign "+"
    let n ← take fun t => if t.kind = .integer ∨ t.kind = .real then some t.source else none
    return if minus then "-" ++ n else n

def conversion : Parser Expr := do
  inBrackets do
    let e ← g.expression
    expectWord "as"
    return .cast e (← typeName)

/-- What stands behind a function: the rows that it takes, and those that it sees. -/
def calledWith (f : String) (distinct whole : Bool) (arguments : List Expr) : Parser Expr := do
  let filter ←
    if ← accept (Token.isKeyword "filter") then
      inBrackets do
        expectWord "where"
        return some (← g.expression)
    else pure none
  if ← accept (Token.isKeyword "over") then
    let window ← g.windowOrName
    if distinct then throw .distinctInWindow
    return .call f distinct whole arguments filter (some window)
  else return .call f distinct whole arguments filter none

/-- A function after its name and the opening bracket. -/
def arguments (f : String) : Parser Expr := do
  if ← acceptSign "*" then
    expectSign ")"
    g.calledWith f false true []
  else
    let distinct ← acceptWord "distinct"
    let _ ← if distinct then pure false else acceptWord "all"
    let es ← if (← peek).isSign ")" then pure [] else commaList g.expression
    expectSign ")"
    g.calledWith f distinct false es

/-- Whether a token may be the name of a function. -/
def namesFunction (t : Token) : Bool :=
  t.kind = .name || t.kind = .word && !(Token.joinWords.any t.isWord)

/-- A column or a function, from its name on. -/
def named : Parser Expr := do
  let t ← peek
  let first ← name
  let quoting : Quoting :=
    if t.kind ≠ .name then .bare else if t.source.toList.head? = some '"' then .doubleQuoted else .quoted
  if namesFunction t && (← peek).isSign "(" then
    skip
    g.arguments first
  else if ← acceptSign "." then
    let second ← name
    if ← acceptSign "." then return .column (some first) (some second) (← name) .quoted
    else return .column none (some first) second .quoted
  else return .column none none first quoting

/-- What a trigger does in place of going on, after the word for it. -/
def raising : Parser Expr := inBrackets do
  if !(← acceptWord "ignore") then
    expect fun t => ["rollback", "abort", "fail"].any t.isWord
    expectSign ","
    let _ ← name
  return .raise

/-- What is in brackets: a query, an expression, or several of them side by side. -/
def bracketed : Parser Expr := inBrackets do
  match ← g.query? with
  | some q => return .single q
  | none =>
    match ← commaList g.expression with
    | [e] => return e
    | es => return .row es

/-- An operand without operators. -/
def operand : Parser Expr := do
  let t ← peek
  if t.kind = .parameter then
    skip
    return .parameter
  else if t.kind = .text && (← peekSecond).isSign "." then g.named
  else
    match literal? t with
    | some v =>
      skip
      return .value v
    | none =>
      if t.isSign "(" then g.bracketed
      else if ← acceptWord "case" then g.choice
      else if ← acceptWord "cast" then g.conversion
      else if ← acceptWord "exists" then return .exists (← inBrackets g.query)
      else if ← acceptWord "raise" then raising
      else if clockWords.any t.isWord && !(← peekSecond).isSign "." then
        skip
        return .ofCall t.source []
      else g.named

/-- The integer that is only one with a minus sign. -/
def leastLiteral : String := "9223372036854775808"

/-- An operand with the operators in front of it, so many at most, and the collations behind it. -/
def closest (condition : Parser Expr) : Nat → Parser Expr
  | 0 => refuse
  | fuel + 1 => do
    let t ← peek
    if t.isWord "not" then
      skip
      return .unary .not (← condition)
    else
      let e ← prefixed condition fuel
      extendAll (fun e => do
        if ← acceptWord "collate" then return some (.collate e (← name)) else return none) e
where
  prefixed (condition : Parser Expr) : Nat → Parser Expr
    | 0 => refuse
    | fuel + 1 => do
      if ← acceptSign "-" then
        if (← peek).kind = .integer ∧ (← peek).source = leastLiteral then
          skip
          return .value (.integer leastInteger)
        else return .unary .negate (← prefixed condition fuel)
      else if ← acceptSign "+" then return .unary .plus (← prefixed condition fuel)
      else if ← acceptSign "~" then return .unary .complement (← prefixed condition fuel)
      else if (← peek).isWord "not" then
        skip
        return .unary .not (← condition)
      else g.operand

/-- An operator between two operands. A zero that is written beside `and` takes the place of both. -/
def ofOperator (op : BinaryOp) (a b : Expr) : Expr :=
  match op, a, b with
  | .and, .value (.integer 0), _ | .and, _, .value (.integer 0) => .value (.integer 0)
  | op, a, b => .binary op a b

/-- An operator between operands, or a function that is written like one. -/
def joined (level : Nat) (inner : Parser Expr) (e : Expr) : Parser (Option Expr) := do
  let t ← peek
  if level = arrowLevel && (t.isSign "->" || t.isSign "->>") then
    skip
    return some (.ofCall t.source [e, ← inner])
  else
    match ← takeIf? (operator? level) with
    | some op => return some (ofOperator op e (← inner))
    | none => return none

/-- The levels of operators, from a closer one to a looser one; so many levels are left. -/
def level : Nat → Nat → Parser Expr
  | 0, fuel => do
    match fuel with
    | 0 => refuse
    | fuel + 1 => g.closest (level (closestLevel - equalityLevel) fuel) (← get).length
  | n + 1, fuel => do
    let inner := level n fuel
    let place := closestLevel - (n + 1)
    let e ← inner
    extendAll (fun e => do
      if place = equalityLevel then g.equality inner (← get).length e else joined place inner e) e
termination_by n fuel => (fuel, n)

/-- An expression with all its operators. -/
def expressionHere : Parser Expr := do g.level closestLevel (← get).length

end Grammar

end CouplingTree.Sql
