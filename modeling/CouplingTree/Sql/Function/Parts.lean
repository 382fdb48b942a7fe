import CouplingTree.Sql.Block
import CouplingTree.Sql.Function.Document

/-!
# Parts of documents as rows

Two functions make rows of a document: one for each of its direct parts, or one for each part however deep it is. A path
may lead to the part that is begun with.

`rows_null` : nothing has no parts.
-/

namespace CouplingTree.Sql

namespace Document

/-- A part as the values of a row, behind which are the document and the path. -/
def Part.row (p : Part) (number : Nat) (document root : Value) : Row :=
  let plain (v : Value) : Except Problem Datum := .ok ⟨v, false⟩
  let isWhole : Bool :=
    match p.document with
    | list _ | object _ => true
    | _ => false
  [plain (.integer number), plain p.key, .ok p.document.datum, plain (.ofString p.document.kind),
    if isWhole then plain .null else .ok p.document.datum, plain (.integer p.id),
    plain ((p.parent.map fun i => .integer i).getD .null), plain (.text p.way), plain (.text p.path), plain document,
    plain root]

/-- The part that a path leads to, with the path. -/
def start (document : Value) (root : Option Value) : Except Problem (Option (Found × Bytes)) := do
  let whole : Bytes := [0x24]
  match ← ofValue? document with
  | none => return none
  | some d =>
    match root with
    | none => return (← d.locate whole).map fun f => (f, whole)
    | some v =>
      match path? v with
      | none => return none
      | some path => return (← d.locate path).map fun f => (f, path)

/-- The rows of a document. -/
def rows (isDeep : Bool) (arguments : List Datum) : Stream Row :=
  match arguments with
  | [] => ⟨[], none⟩
  | document :: rest =>
    let root := rest.head?.map Datum.value
    match start document.value root with
    | .error p => ⟨[], some p⟩
    | .ok none => ⟨[], none⟩
    | .ok (some (f, path)) =>
      let parts := if isDeep then allParts f else partsOf path f
      ⟨parts.zipIdx.map fun p => p.1.row p.2 (.text document.value.bytes) (.text path), none⟩

theorem rows_null (isDeep : Bool) : rows isDeep [⟨.null, false⟩] = ⟨[], none⟩ := rfl

/-- The functions that make rows of documents. -/
def tableFunctions : List TableFunction :=
  let column (n : String) : Column := { name := n, affinity := some .blob }
  let function (name : String) (isDeep : Bool) : TableFunction := {
    name, columns := ["key", "value", "type", "atom", "id", "parent", "fullkey", "path"].map column
    hidden := ["json", "root"].map column, least := 1, cost := 0, estimate := 46, rows := rows isDeep }
  [function "json_each" false, function "json_tree" true]

end Document

end CouplingTree.Sql
