import CouplingTree.Json.Value

/-!
# Writing JSON

`Json.compact` writes a value on one line, `Json.indented` with one item or field a line and two blanks of indentation
a level. Both write printable ASCII only.

`escapeChar_ascii` : what a character is written as is printable ASCII.
-/

namespace CouplingTree.Json

def escapeUnit (n : Nat) : List Char := '\\' :: 'u' :: hexText 4 n

/-- A character inside a string: as itself, by a short escape, or by its UTF-16 code units. -/
def escapeChar (c : Char) : List Char :=
  if c = '"' ∨ c = '\\' then ['\\', c]
  else if 0x20 ≤ c.toNat ∧ c.toNat < 0x7F then [c]
  else if c = '\n' then ['\\', 'n']
  else if c = '\r' then ['\\', 'r']
  else if c = '\t' then ['\\', 't']
  else if c.toNat = 0x0C then ['\\', 'f']
  else if c.toNat = 0x08 then ['\\', 'b']
  else if c.toNat < 0x10000 then escapeUnit c.toNat
  else
    let n := c.toNat - 0x10000
    escapeUnit (0xD800 + n / 0x400) ++ escapeUnit (0xDC00 + n % 0x400)

def stringText (s : String) : List Char := '"' :: s.toList.flatMap escapeChar ++ ['"']

/-- Values without parts. -/
def plainText : Json → List Char
  | null => ['n', 'u', 'l', 'l']
  | bool true => ['t', 'r', 'u', 'e']
  | bool false => ['f', 'a', 'l', 's', 'e']
  | int i => (toString i).toList
  | double x => (DoubleStyle.json.text x).toList
  | text s => stringText s
  | list _ => ['[', ']']
  | object _ => ['\x7b', '\x7d']

/-! ## One line -/

mutual

def compactText : Json → List Char
  | list (v :: rest) => '[' :: compactText v ++ compactItems rest
  | object ((k, v) :: rest) => '\x7b' :: stringText k ++ ':' :: compactText v ++ compactFields rest
  | v => plainText v

def compactItems : List Json → List Char
  | [] => [']']
  | v :: rest => ',' :: compactText v ++ compactItems rest

def compactFields : List (String × Json) → List Char
  | [] => ['\x7d']
  | (k, v) :: rest => ',' :: stringText k ++ ':' :: compactText v ++ compactFields rest

end

def compact (v : Json) : String := String.ofList v.compactText

/-! ## One item a line -/

def newLine (depth : Nat) : List Char := '\n' :: List.replicate (2 * depth) ' '

mutual

/-- A value that stands `depth` levels deep. -/
def indentedText (depth : Nat) : Json → List Char
  | list (v :: rest) =>
    '[' :: newLine (depth + 1) ++ indentedText (depth + 1) v ++ indentedItems depth rest
  | object ((k, v) :: rest) =>
    '\x7b' :: newLine (depth + 1) ++ stringText k ++ ':' :: ' ' :: indentedText (depth + 1) v ++ indentedFields depth rest
  | v => plainText v

def indentedItems (depth : Nat) : List Json → List Char
  | [] => newLine depth ++ [']']
  | v :: rest => ',' :: newLine (depth + 1) ++ indentedText (depth + 1) v ++ indentedItems depth rest

def indentedFields (depth : Nat) : List (String × Json) → List Char
  | [] => newLine depth ++ ['\x7d']
  | (k, v) :: rest =>
    ',' :: newLine (depth + 1) ++ stringText k ++ ':' :: ' ' :: indentedText (depth + 1) v ++ indentedFields depth rest

end

def indented (v : Json) : String := String.ofList (v.indentedText 0)

/-! ## ASCII -/

theorem hexDigit_ascii {d : Nat} (h : d < 16) : 0x20 ≤ (Nat.digitChar d).toNat ∧ (Nat.digitChar d).toNat < 0x7F := by
  have key : ∀ e : Fin 16, 0x20 ≤ (Nat.digitChar e).toNat ∧ (Nat.digitChar e).toNat < 0x7F := by decide
  exact key ⟨d, h⟩

theorem hexText_ascii : ∀ (width n : Nat), ∀ c ∈ hexText width n, 0x20 ≤ c.toNat ∧ c.toNat < 0x7F
  | 0, _, _, h => absurd h List.not_mem_nil
  | width + 1, n, c, h => by
    rcases List.mem_append.1 h with h | h
    · exact hexText_ascii width _ c h
    · rw [List.mem_singleton.1 h]
      exact hexDigit_ascii (Nat.mod_lt n (by decide))

theorem escapeUnit_ascii (n : Nat) : ∀ c ∈ escapeUnit n, 0x20 ≤ c.toNat ∧ c.toNat < 0x7F := by
  intro c h
  rcases List.mem_cons.1 h with rfl | h
  · decide
  rcases List.mem_cons.1 h with rfl | h
  · decide
  exact hexText_ascii 4 n c h

theorem pair_ascii {a b d : Char} (ha : 0x20 ≤ a.toNat ∧ a.toNat < 0x7F) (hb : 0x20 ≤ b.toNat ∧ b.toNat < 0x7F)
    (h : d ∈ [a, b]) : 0x20 ≤ d.toNat ∧ d.toNat < 0x7F := by
  rcases List.mem_cons.1 h with rfl | h
  · exact ha
  · exact List.mem_singleton.1 h ▸ hb

theorem escapeChar_ascii (c : Char) : ∀ d ∈ escapeChar c, 0x20 ≤ d.toNat ∧ d.toNat < 0x7F := by
  intro d h
  unfold escapeChar at h
  split at h
  · next hc => rcases hc with rfl | rfl <;> exact pair_ascii (by decide) (by decide) h
  split at h
  · next hc => exact List.mem_singleton.1 h ▸ hc
  iterate 5
    split at h
    · exact pair_ascii (by decide) (by decide) h
  split at h
  · exact escapeUnit_ascii _ d h
  · rcases List.mem_append.1 h with h | h <;> exact escapeUnit_ascii _ d h

end CouplingTree.Json
