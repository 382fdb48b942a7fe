import CouplingTree.Database
import CouplingTree.Text.Utf16

/-!
# Pages of a database image

A database image is a file of pages of one size, numbered from one. The first page starts with a header, which tells the
size of the pages and the encoding of texts. Rows are kept in trees of pages: a table has them in the leaves of its
tree, and an index in all of its pages. What does not fit into a page goes on in a chain of other pages.

`DatabaseImage.ofBytes` reads the header, `DatabaseImage.entries` finds the rows in the tree below a page, and
`DatabaseImage.payload?` reads some bytes of a row.

Beside a database there may be a file with pages that are to be written to it before it is read.
`PageWrite.size_written` : the image after the writes has as many pages as it is told to have.
-/

namespace CouplingTree

open Sql (Stream Problem)

inductive TextEncoding
  | utf8
  | utf16 (order : ByteOrder)
deriving DecidableEq, Repr

structure DatabaseImage where
  bytes : Array UInt8
  pageSize : Nat
  /-- The bytes of a page that are in use. -/
  usableSize : Nat
  pageCount : Nat
  encoding : TextEncoding

/-- Where a row is: its first bytes are in a page, and the others in the chain that starts behind them. -/
structure RowEntry where
  id : Int
  length : Nat
  /-- The place of the page that it is in. -/
  page : Nat
  /-- The place of its first byte. -/
  start : Nat
  /-- How many of its bytes are in the page. -/
  here : Nat
deriving DecidableEq, Repr

/-- What the pages of a tree hold. -/
inductive TreeKind
  | table
  | index
deriving DecidableEq, Repr

namespace DatabaseImage

/-! ## Bytes -/

/-- The byte at a place; behind the end there are zeros. -/
def byteAt (bytes : Array UInt8) (i : Nat) : UInt8 := bytes[i]?.getD 0

/-- Some bytes from a place on. -/
def bytesAt (bytes : Array UInt8) (start count : Nat) : List UInt8 :=
  (List.range count).map fun i => byteAt bytes (start + i)

/-- The number of some bytes from a place on. -/
def numberAt (bytes : Array UInt8) (start count : Nat) : Nat := ByteOrder.highNumber (bytesAt bytes start count)

/-- Reads a number of up to `count + 1` bytes that is written in groups of seven bits, each but the last with the highest
bit set; the byte after `count` groups is taken whole. The number comes with the place after it. -/
def groupsFrom (bytes : Array UInt8) : Nat → Nat → Nat → Nat × Nat
  | 0, i, n => (n * 256 + (byteAt bytes i).toNat, i + 1)
  | count + 1, i, n =>
    let b := (byteAt bytes i).toNat
    if b < 128 then (n * 128 + b, i + 1) else groupsFrom bytes count (i + 1) (n * 128 + (b - 128))

/-- A number of up to nine bytes, with the place after it. -/
def groupsAt (bytes : Array UInt8) (i : Nat) : Nat × Nat := groupsFrom bytes 8 i 0

/-- Reads a length of up to `count + 1` bytes, the last of which gives seven bits like the others. -/
def lengthFrom (bytes : Array UInt8) : Nat → Nat → Nat → Nat × Nat
  | 0, i, n => (n * 128 + (byteAt bytes i).toNat % 128, i + 1)
  | count + 1, i, n =>
    let b := (byteAt bytes i).toNat
    if b < 128 then (n * 128 + b, i + 1) else lengthFrom bytes count (i + 1) (n * 128 + (b - 128))

/-- Lengths have 32 bits. -/
def lengthBound : Nat := Nat.pow 2 32

/-- The length of a row, with the place after it. -/
def lengthAt (bytes : Array UInt8) (i : Nat) : Nat × Nat :=
  let (n, i) := lengthFrom bytes 8 i 0
  (n % lengthBound, i)

/-- A number of some bits with a sign. -/
def signed (bits n : Nat) : Int := if n < Nat.pow 2 (bits - 1) then n else (n : Int) - Nat.pow 2 bits

/-! ## The header -/

/-- The first bytes of every image. -/
def magic : List UInt8 := Utf8.encode "SQLite format 3\x00"

/-- The bytes of the header on the first page. -/
def headerSize : Nat := 100

/-- The size of pages that the header tells, if it is one. -/
def pageSize? (bytes : Array UInt8) : Option Nat :=
  let n := (byteAt bytes 16).toNat * 256 + (byteAt bytes 17).toNat * 65536
  if n ∈ [512, 1024, 2048, 4096, 8192, 16384, 32768, 65536] then some n else none

/-- The pages that the header counts, unless what it says is out of date. -/
def countedPages? (bytes : Array UInt8) : Option Nat :=
  let n := numberAt bytes 28 4
  if n = 0 ∨ bytesAt bytes 24 4 ≠ bytesAt bytes 92 4 then none else some n

def encodingOf : Nat → TextEncoding
  | 2 => .utf16 .lowFirst
  | 3 => .utf16 .highFirst
  | _ => .utf8

/-- The fewest bytes of a page that have to be in use. -/
def leastUsableSize : Nat := 480

/-- Formats of tables after this one are not known. -/
def lastFormat : Nat := 4

/-- Reads the header. -/
def ofBytes (bytes : Array UInt8) : Except DatabaseError DatabaseImage :=
  match pageSize? bytes with
  | none => .error .notADatabase
  | some pageSize =>
    if bytesAt bytes 0 magic.length ≠ magic ∨ 2 < (byteAt bytes 19).toNat ∨ bytesAt bytes 21 3 ≠ [64, 32, 32] then
      .error .notADatabase
    else
      let present := (bytes.size + pageSize - 1) / pageSize
      let pageCount := (countedPages? bytes).getD present
      let usableSize := pageSize - (byteAt bytes 20).toNat
      if present < pageCount then .error .malformed
      else if usableSize < leastUsableSize then .error .notADatabase
      else if lastFormat < (byteAt bytes 47).toNat then .error .unsupportedFormat
      else .ok ⟨bytes, pageSize, usableSize, pageCount, encodingOf (numberAt bytes 56 4 % 4)⟩

/-! ## Pages -/

/-- The place where a page starts. -/
def pageStart (d : DatabaseImage) (page : Nat) : Nat := (page - 1) * d.pageSize

def hasPage (d : DatabaseImage) (page : Nat) : Bool := decide (0 < page ∧ page ≤ d.pageCount)

/-- Some bytes of a chain of pages, after so many others. Each page starts with the number of the next one. -/
def chained? (d : DatabaseImage) : Nat → Nat → Nat → Nat → Option (List UInt8)
  | _, _, _, 0 => some []
  | 0, _, _, _ => none
  | fuel + 1, page, offset, count =>
    if !d.hasPage page then none
    else
      let start := d.pageStart page
      let next := numberAt d.bytes start 4
      let size := d.usableSize - 4
      if size ≤ offset then d.chained? fuel next (offset - size) count
      else
        let here := min count (size - offset)
        (d.chained? fuel next 0 (count - here)).map (bytesAt d.bytes (start + 4 + offset) here ++ ·)

/-- Some bytes of a row from an offset on, if all of them are where they have to be. -/
def payload? (d : DatabaseImage) (e : RowEntry) (offset count : Nat) : Option (List UInt8) :=
  if d.pageSize * d.pageCount < offset + count ∨ d.usableSize < e.start - e.page + e.here then none
  else
    let here := min count (e.here - offset)
    let chain := numberAt d.bytes (e.start + e.here) 4
    (d.chained? (offset + count) chain (offset - e.here) (count - here)).map
      (bytesAt d.bytes (e.start + offset) here ++ ·)

/-- How many bytes of a row of some length are in its page. -/
def localSize (d : DatabaseImage) (kind : TreeKind) (length : Nat) : Nat :=
  let most :=
    match kind with
    | .table => d.usableSize - 35
    | .index => (d.usableSize - 12) * 64 / 255 - 23
  let least := (d.usableSize - 12) * 32 / 255 - 23
  if length ≤ most then length
  else
    let wanted := least + (length - least) % (d.usableSize - 4)
    if wanted ≤ most then wanted else least

/-- The row at a place in a page that starts at another place. Those of an index have no number. -/
def entryAt (d : DatabaseImage) (kind : TreeKind) (page i : Nat) : RowEntry :=
  let (length, i) := lengthAt d.bytes i
  let (id, start) := if kind = .table then groupsAt d.bytes i else (0, i)
  ⟨signed 64 id, length, page, start, d.localSize kind length⟩

/-! ## Trees -/

/-- The most pages on the way down a tree. -/
def maxDepth : Nat := 20

/-- The place of the header of a page within it; the header of the image comes first. -/
def headerStart (d : DatabaseImage) (page : Nat) : Nat := d.pageStart page + if page = 1 then headerSize else 0

/-- The places that a page lists after its header. -/
def listedPlaces (d : DatabaseImage) (page first count : Nat) : List Nat :=
  (List.range count).map fun k => d.pageStart page + numberAt d.bytes (first + 2 * k) 2 % d.pageSize

/-- The bytes that mark leaves and branches. -/
def leafMark : TreeKind → UInt8
  | .table => 13
  | .index => 10

def branchMark : TreeKind → UInt8
  | .table => 5
  | .index => 2

/-- The rows in the pages below one, in order. Only the root may be empty. -/
def entriesBelow (d : DatabaseImage) (kind : TreeKind) : Nat → Bool → Nat → Stream RowEntry
  | 0, _, _ => ⟨[], some .malformed⟩
  | depth + 1, isRoot, page =>
    if !d.hasPage page then ⟨[], some .malformed⟩
    else
      let start := d.pageStart page
      let header := d.headerStart page
      let mark := byteAt d.bytes header
      let count := numberAt d.bytes (header + 3) 2
      let mayBeEmpty := isRoot && (mark = leafMark kind || page = 1)
      if (d.pageSize - 8) / 6 < count ∨ count = 0 ∧ !mayBeEmpty then ⟨[], some .malformed⟩
      else if mark = leafMark kind then ⟨(d.listedPlaces page (header + 8) count).map (d.entryAt kind start), none⟩
      else if mark = branchMark kind then
        let below (child : Nat) : Stream RowEntry := d.entriesBelow kind depth false child
        let own (i : Nat) : Stream RowEntry :=
          if kind = .index then ⟨[d.entryAt kind start (i + 4)], none⟩ else ⟨[], none⟩
        let listed := Stream.concat (fun i => (below (numberAt d.bytes i 4)).append (own i)) #[]
          (d.listedPlaces page (header + 12) count) none
        listed.append (below (numberAt d.bytes (header + 8) 4))
      else ⟨[], some .malformed⟩

/-- The rows of the tree whose root is a page. -/
def entries (d : DatabaseImage) (kind : TreeKind) (page : Nat) : Stream RowEntry := d.entriesBelow kind maxDepth true page

end DatabaseImage

/-! ## Writing pages -/

/-- The number of a page, and the bytes that are written to it. -/
structure PageWrite where
  page : Nat
  content : List UInt8

namespace PageWrite

/-- How many more pages than the files hold are filled with zeros at most. No image counts on more. -/
def maxFill : Nat := 4096

/-- Cuts bytes to a number, or fills them up with zeros. -/
def resized (bytes : Array UInt8) (size : Nat) : Array UInt8 :=
  Array.ofFn fun i : Fin size => DatabaseImage.byteAt bytes i

/-- Puts bytes from a place on, as far as there is room. -/
def put (bytes : Array UInt8) (start : Nat) : List UInt8 → Array UInt8
  | [] => bytes
  | b :: rest => put (bytes.setIfInBounds start b) (start + 1) rest

theorem size_put (bytes : Array UInt8) (start : Nat) (content : List UInt8) : (put bytes start content).size = bytes.size := by
  induction content generalizing bytes start with
  | nil => rfl
  | cons b rest ih => simp [put, ih]

/-- The image of so many pages after some writes. -/
def written (pageSize pageCount : Nat) (ws : List PageWrite) (bytes : Array UInt8) : Array UInt8 :=
  ws.foldl (fun bytes w => put bytes ((w.page - 1) * pageSize) (w.content.take pageSize))
    (resized bytes (pageCount * pageSize))

theorem size_written (pageSize pageCount : Nat) (ws : List PageWrite) (bytes : Array UInt8) :
    (written pageSize pageCount ws bytes).size = pageCount * pageSize := by
  have h : ∀ start : Array UInt8, (ws.foldl (fun bytes w =>
      put bytes ((w.page - 1) * pageSize) (w.content.take pageSize)) start).size = start.size := by
    induction ws with
    | nil => exact fun _ => rfl
    | cons w ws ih => exact fun start => (ih _).trans (size_put _ _ _)
  exact (h _).trans (by simp [resized])

end PageWrite

end CouplingTree
