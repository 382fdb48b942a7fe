import CouplingTree.DatabaseImage.Pages

/-!
# Taking changes back

Before pages of a database are changed, what they hold is written to a journal. Where a journal is left over, the
changes were not finished: the database gets back its size and the pages in the journal. A journal consists of parts, each
with a header in a sector of its own, that tells the number of records. A record has the number of a page, its bytes and
a sum. It counts only if the sum is right, and those after one that does not count are left out.

`Rollback.restored_of_noHeader` : a file without a header changes nothing.
-/

namespace CouplingTree

/-- What the header of a part tells. -/
structure JournalHeader where
  /-- The number of records, if it was known. -/
  count : Option Nat
  /-- What sums start with. -/
  seed : Nat
  /-- The pages of the database before the changes. -/
  pageCount : Nat

/-- A journal with the sizes that its first header tells. -/
structure Rollback where
  bytes : Array UInt8
  sectorSize : Nat
  pageSize : Nat

namespace Rollback

open DatabaseImage (byteAt bytesAt numberAt)

def magic : List UInt8 := [0xD9, 0xD5, 0x05, 0xF9, 0x20, 0xA1, 0x63, 0xD7]

/-- The size of sectors before a header tells it. -/
def firstSectorSize : Nat := 512

/-- The most bytes of the name of a journal. -/
def maxNameSize : Nat := 512

def isPowerOfTwo (n : Nat) : Bool := n ≠ 0 && twoTo n.log2 = n

/-- Reads the sizes; a header that tells no size of pages leaves it as it is in the database. -/
def ofBytes? (bytes : Array UInt8) (pageSize : Nat) : Option Rollback :=
  let sectorSize := numberAt bytes 20 4
  let told := numberAt bytes 24 4
  let pageSize := if told = 0 then pageSize else told
  if bytes.size < firstSectorSize ∨ bytesAt bytes 0 8 ≠ magic ∨ sectorSize < 32 ∨ 65536 < sectorSize ∨
      !isPowerOfTwo sectorSize ∨ pageSize < 512 ∨ 65536 < pageSize ∨ !isPowerOfTwo pageSize then none
  else some ⟨bytes, sectorSize, pageSize⟩

/-- The header at a place. For the first one there has to be a sector of the size that is taken before it is read. -/
def headerAt? (r : Rollback) (i : Nat) : Option JournalHeader :=
  if r.bytes.size < i + (if i = 0 then firstSectorSize else r.sectorSize) ∨ bytesAt r.bytes i 8 ≠ magic then none
  else
    let n := numberAt r.bytes (i + 8) 4
    some ⟨if n = 0xFFFFFFFF then none else some n, numberAt r.bytes (i + 12) 4, numberAt r.bytes (i + 16) 4⟩

def recordSize (r : Rollback) : Nat := r.pageSize + 8

/-- The sum of a page: of every two hundredth byte, counted from its end. -/
def sumOf (r : Rollback) (seed start : Nat) : Nat :=
  let places := (List.range (r.pageSize / 200 + 1)).filter fun k => 200 * (k + 1) < r.pageSize
  places.foldl (fun n k => (n + (byteAt r.bytes (start + (r.pageSize - 200 * (k + 1)))).toNat) % twoTo 32) seed

/-- Records are not kept of this page, which is never used. -/
def lockPage (r : Rollback) : Nat := 0x40000000 / r.pageSize + 1

/-- What a record gives. -/
inductive Reading
  | write (w : PageWrite)
  /-- A page that was not there before the changes. -/
  | beyond
  /-- The part ends before its count tells, because this is no record. -/
  | noRecord
  /-- The journal ends. -/
  | short

/-- The record at a place. -/
def recordAt (r : Rollback) (h : JournalHeader) (pageCount i : Nat) : Reading :=
  let page := numberAt r.bytes i 4
  if r.bytes.size < i + 4 + r.pageSize then .short
  else if page = 0 ∨ page = r.lockPage then .noRecord
  else if pageCount < page then .beyond
  else if r.bytes.size < i + r.recordSize then .short
  else if r.sumOf h.seed (i + 4) ≠ numberAt r.bytes (i + 4 + r.pageSize) 4 then .noRecord
  else .write ⟨page, bytesAt r.bytes (i + 4) r.pageSize⟩

/-- The records from a place on, at most so many, with the place where the next part may start, if there may be one. -/
def recordsFrom (r : Rollback) (h : JournalHeader) (pageCount : Nat) : Nat → Nat → List PageWrite × Option Nat
  | 0, i => ([], some i)
  | count + 1, i =>
    match r.recordAt h pageCount i with
    | .short => ([], none)
    | .noRecord => ([], some r.bytes.size)
    | .beyond => recordsFrom r h pageCount count (i + r.recordSize)
    | .write w =>
      let (ws, next) := recordsFrom r h pageCount count (i + r.recordSize)
      (w :: ws, next)

/-- The place of the next sector that starts at a place or behind it. -/
def nextSector (r : Rollback) (i : Nat) : Nat := (i + r.sectorSize - 1) / r.sectorSize * r.sectorSize

/-- The records of the parts from a place on; at most so many parts. -/
def partsFrom (r : Rollback) (pageCount : Nat) : Nat → Nat → List PageWrite
  | 0, _ => []
  | fuel + 1, i =>
    let start := r.nextSector i
    match r.headerAt? start with
    | none => []
    | some h =>
      let room := (r.bytes.size - r.sectorSize) / r.recordSize
      let (ws, next) := r.recordsFrom h pageCount (min (h.count.getD room) (room + 1)) (start + r.sectorSize)
      ws ++ (next.elim [] fun i => r.partsFrom pageCount fuel i)

/-- The database before the changes. -/
def restored (journal bytes : Array UInt8) : Array UInt8 :=
  match ofBytes? journal ((DatabaseImage.pageSize? bytes).getD firstSectorSize) with
  | none => bytes
  | some r =>
    match r.headerAt? 0 with
    | none => bytes
    | some h =>
      let pageCount := min h.pageCount ((bytes.size + journal.size) / r.pageSize + PageWrite.maxFill)
      PageWrite.written r.pageSize pageCount (r.partsFrom h.pageCount (journal.size / r.sectorSize + 1) 0) bytes

/-- The name of a journal of several databases that this one is part of. Without that one, the changes are finished. -/
def wholeName? (journal : Array UInt8) : Option (List UInt8) :=
  let size := numberAt journal (journal.size - 16) 4
  let name := bytesAt journal (journal.size - 16 - size) size
  let sum := name.foldl (fun n b => (n + (if b.toNat < 128 then b.toNat else twoTo 32 - 256 + b.toNat)) % twoTo 32) 0
  if journal.size < 16 ∨ bytesAt journal (journal.size - 8) 8 ≠ magic ∨ size = 0 ∨ journal.size - 16 < size ∨
      maxNameSize < size ∨ sum ≠ numberAt journal (journal.size - 12) 4 then none
  else some name

theorem restored_of_noHeader {journal bytes : Array UInt8}
    (h : ofBytes? journal ((DatabaseImage.pageSize? bytes).getD firstSectorSize) = none) :
    restored journal bytes = bytes := by
  simp [restored, h]

end Rollback

end CouplingTree
