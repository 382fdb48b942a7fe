import CouplingTree.DatabaseImage.Pages

/-!
# Logs of commits

A log holds pages that were written since the database was last brought up to date. Each frame of it has a header and a
page; the last frame of a commit tells how many pages the database has after it. A frame counts only if its sum, which
goes on from the frame before it, is right, and only up to the last commit.

`CommitLog.committed_of_none` : without a commit, nothing is written.
-/

namespace CouplingTree

/-- Two sums that grow with every two numbers of 32 bits. -/
structure PairSum where
  first : UInt32
  second : UInt32
deriving DecidableEq, Repr

namespace PairSum

def zero : PairSum := ⟨0, 0⟩

def add (s : PairSum) (a b : UInt32) : PairSum :=
  let first := s.first + a + s.second
  ⟨first, s.second + b + first⟩

/-- The number of four bytes. -/
def word (order : ByteOrder) (a b c d : UInt8) : UInt32 := UInt32.ofNat (order.number [a, b, c, d])

/-- Goes on with some bytes, eight at a time. -/
def addBytes (order : ByteOrder) (s : PairSum) : List UInt8 → PairSum
  | a :: b :: c :: d :: e :: f :: g :: h :: rest => addBytes order (s.add (word order a b c d) (word order e f g h)) rest
  | _ => s

end PairSum

/-- What the header of a log tells. -/
structure CommitLog where
  bytes : Array UInt8
  order : ByteOrder
  pageSize : Nat
  salt : List UInt8
  sum : PairSum

/-- What a file is that stands where a log would be. -/
inductive LogFile
  | log (l : CommitLog)
  /-- A log of a version that is not known. -/
  | unknownVersion
  | other

/-- A page in a log. -/
structure Frame where
  write : PageWrite
  /-- The number of pages after the commit that the frame ends; zero inside of one. -/
  pageCount : Nat

namespace CommitLog

open DatabaseImage (bytesAt numberAt)

def headerSize : Nat := 32

def frameHeaderSize : Nat := 24

/-- The first number of a log whose sums take the lowest bytes first. -/
def lowFirstMagic : Nat := 0x377F0682

def knownVersion : Nat := 3007000

def orderOf? (magic : Nat) : Option ByteOrder :=
  if magic = lowFirstMagic then some .lowFirst
  else if magic = lowFirstMagic + 1 then some .highFirst
  else none

/-- The sum that is written at a place. -/
def sumAt (bytes : Array UInt8) (i : Nat) : PairSum :=
  ⟨UInt32.ofNat (numberAt bytes i 4), UInt32.ofNat (numberAt bytes (i + 4) 4)⟩

def isPageSize (n : Nat) : Bool := n ∈ [512, 1024, 2048, 4096, 8192, 16384, 32768, 65536]

/-- Reads the header. -/
def ofBytes (bytes : Array UInt8) : LogFile :=
  let pageSize := numberAt bytes 8 4
  match orderOf? (numberAt bytes 0 4) with
  | none => .other
  | some order =>
    let sum := PairSum.zero.addBytes order (bytesAt bytes 0 24)
    if bytes.size ≤ headerSize ∨ !isPageSize pageSize ∨ sum ≠ sumAt bytes 24 then .other
    else if numberAt bytes 4 4 ≠ knownVersion then .unknownVersion
    else .log ⟨bytes, order, pageSize, bytesAt bytes 16 8, sum⟩

def frameSize (l : CommitLog) : Nat := frameHeaderSize + l.pageSize

/-- The frame at a place with the sum up to its end, if it counts. -/
def frameAt? (l : CommitLog) (sum : PairSum) (start : Nat) : Option (Frame × PairSum) :=
  let page := numberAt l.bytes start 4
  let content := bytesAt l.bytes (start + frameHeaderSize) l.pageSize
  let sum := (sum.addBytes l.order (bytesAt l.bytes start 8)).addBytes l.order content
  if bytesAt l.bytes (start + 8) 8 ≠ l.salt ∨ page = 0 ∨ sum ≠ sumAt l.bytes (start + 16) then none
  else some (⟨⟨page, content⟩, numberAt l.bytes (start + 4) 4⟩, sum)

/-- The frames from a place on up to the first one that does not count, at most so many. -/
def framesFrom (l : CommitLog) : Nat → PairSum → Nat → List Frame
  | 0, _, _ => []
  | count + 1, sum, start =>
    match l.frameAt? sum start with
    | none => []
    | some (frame, sum) => frame :: l.framesFrom count sum (start + l.frameSize)

def frames (l : CommitLog) : List Frame :=
  l.framesFrom ((l.bytes.size - headerSize) / l.frameSize) l.sum headerSize

/-- The frames up to the last commit. -/
def committed (fs : List Frame) : List Frame := (fs.reverse.dropWhile fun f => f.pageCount = 0).reverse

theorem committed_of_none {fs : List Frame} (h : ∀ f ∈ fs, f.pageCount = 0) : committed fs = [] := by
  have dropped : ∀ gs : List Frame, (∀ f ∈ gs, f.pageCount = 0) → gs.dropWhile (fun f => f.pageCount = 0) = [] := by
    intro gs hg
    induction gs with
    | nil => rfl
    | cons f gs ih =>
      have hf := hg f List.mem_cons_self
      simpa [List.dropWhile_cons, hf] using ih fun g hm => hg g (List.mem_cons_of_mem _ hm)
  simp only [committed, dropped fs.reverse fun f hf => h f (List.mem_reverse.1 hf), List.reverse_nil]

/-- The size of the pages of a database, which its first page tells. -/
def databasePageSize (l : CommitLog) (ws : List PageWrite) (bytes : Array UInt8) : Nat :=
  let first := (ws.reverse.find? fun w => w.page = 1).map fun w => w.content.toArray
  (DatabaseImage.pageSize? (first.getD bytes)).getD l.pageSize

/-- The database with the commits of the log. -/
def applied (l : CommitLog) (bytes : Array UInt8) : Array UInt8 :=
  let fs := committed l.frames
  let ws := fs.map Frame.write
  match fs.getLast? with
  | none => bytes
  | some last =>
    let pageSize := l.databasePageSize ws bytes
    PageWrite.written pageSize (min last.pageCount ((bytes.size + l.bytes.size) / pageSize + PageWrite.maxFill)) ws bytes

end CommitLog

end CouplingTree
