import CouplingTree.DatabaseImage.CommitLog
import CouplingTree.DatabaseImage.Modules
import CouplingTree.DatabaseImage.Rollback
import CouplingTree.Files.DatabaseAddress
import CouplingTree.Files.Tree

/-!
# Database files

`FileTree.openDatabase` opens the database at a path, which may be an address. Double dots of the path take back the name
before them, whether there is a directory of this name or not, and the location that is left has to be short enough.
Where it leads to nothing, an empty file is made, unless the address forbids it. Before the file is read, changes are taken
back that a journal beside it tells of, and those are done that a log beside it holds.

`openDatabase_of_pathExists` : opening a database where there is something changes nothing, if the path is no address.
-/

namespace CouplingTree

/-- The bytes of a location written as an absolute path. -/
def Location.byteLength (loc : Location) : Nat := loc.foldl (fun n name => n + name.utf8ByteSize + 1) 0

namespace FileTree

/-- The most bytes of the location of a database, and of one on the way to it. -/
def maxDatabaseBytes : Nat := 504

def maxWayBytes : Nat := 511

/-- Whether nothing stands in the way to a location: no file above it, and no name that is too long. It may be missing. -/
def isPassable (t : FileTree) (loc : Location) : Bool :=
  match t.descend [] loc with
  | .ok _ => true
  | .error problem => decide (problem = .missing)

/-- The location that the names of a path to a database lead to from another one. -/
def databaseLocation (t : FileTree) (loc : Location) : List String → Option Location
  | [] => if loc ≠ [] ∧ loc.byteLength ≤ maxDatabaseBytes then some loc else none
  | name :: rest =>
    if name = ".." then databaseLocation t loc.dropLast rest
    else if (loc ++ [name]).byteLength ≤ maxWayBytes ∧ t.isPassable (loc ++ [name]) then
      databaseLocation t (loc ++ [name]) rest
    else none

/-- What is beside a file under its name with an ending. -/
def beside? (t : FileTree) (loc : Location) (ending : String) : Option FileEntry :=
  t.entryAt? (loc.dropLast ++ [loc.getLast?.getD "" ++ ending])

/-- Whether there are changes in a journal that have to be taken back. -/
def isHotJournal : FileEntry → Bool
  | .file (.bytes bs) => bs.head?.any (· ≠ 0)
  | .file (.database _) => true
  | .directory => false

/-- What is wrong with the journals of the file at a location, of which a directory is none. Changes cannot be taken back
where only reading is allowed. -/
def journalFault? (t : FileTree) (a : DatabaseAddress) (loc : Location) (isEmpty : Bool) : Option DatabaseError :=
  match t.beside? loc "-journal", t.beside? loc "-wal", isEmpty with
  | some .directory, _, false => some .unreadable
  | journal, some .directory, false =>
    some (if a.access = .read ∧ journal.any isHotJournal then .readOnly else .cannotOpen)
  | _, some .directory, true => some .unreadable
  | journal, _, false => if a.access = .read ∧ journal.any isHotJournal then some .readOnly else none
  | _, _, true => none

/-- The bytes of a file beside another one; one without bytes counts as none. -/
def bytesBeside? (t : FileTree) (loc : Location) (ending : String) : Option (Array UInt8) :=
  match t.beside? loc ending with
  | some (.file (.bytes bs)) => if bs.isEmpty then none else some bs.toArray
  | _ => none

/-- An image without the changes that were not finished. They are finished if they are part of others that are. -/
def restored (t : FileTree) (loc : Location) (bytes : Array UInt8) : Array UInt8 :=
  let isPending (journal : Array UInt8) : Bool :=
    (Rollback.wholeName? journal).all fun name => (t.pathExists (.ofText (DatabaseAddress.text name))).toOption = some true
  match t.bytesBeside? loc "-journal" with
  | some journal => if isPending journal then Rollback.restored journal bytes else bytes
  | none => bytes

/-- Whether there can be a log of commits, which an index of it goes with. -/
def allowsLog (t : FileTree) (a : DatabaseAddress) (loc : Location) : Bool :=
  !a.isUnshared && !(t.beside? loc "-shm").any fun e => match e with
    | .directory => true
    | .file _ => false

/-- Whether the header of an image tells that commits are logged. -/
def isLogged (bytes : Array UInt8) : Bool :=
  DatabaseImage.bytesAt bytes 0 16 = DatabaseImage.magic && DatabaseImage.byteAt bytes 19 = 2

/-- An image with the commits that are logged beside it. -/
def logged (t : FileTree) (a : DatabaseAddress) (loc : Location) (bytes : Array UInt8) :
    Except DatabaseError (Array UInt8) :=
  match t.bytesBeside? loc "-wal" with
  | none => if isLogged bytes ∧ !t.allowsLog a loc then .error .cannotOpen else .ok bytes
  | some log =>
    if !t.allowsLog a loc then .error .cannotOpen
    else
      match CommitLog.ofBytes log with
      | .log l => .ok (l.applied bytes)
      | .unknownVersion => .error .cannotOpen
      | .other => .ok bytes

/-- What is read of the image at a location. -/
def settled (t : FileTree) (a : DatabaseAddress) (loc : Location) (bytes : Array UInt8) :
    Except DatabaseError (Array UInt8) :=
  if a.isFixed ∨ bytes.size ≤ 1 then .ok bytes
  else
    let bytes := t.restored loc bytes
    if bytes.size ≤ 1 then .ok bytes else t.logged a loc bytes

/-- The database that a file at a location holds, unless its journals are at fault. -/
def readDatabase (t : FileTree) (a : DatabaseAddress) (loc : Location) (content : Content) :
    Except DatabaseError Database :=
  let fault? (isEmpty : Bool) : Option DatabaseError := if a.isFixed then none else t.journalFault? a loc isEmpty
  match content with
  | .database d => (fault? false).elim (.ok d) .error
  | .bytes bs => (fault? (decide (bs.length ≤ 1))).elim (t.settled a loc bs.toArray >>= Database.ofBytes) .error

/-- Opens the database at a location. A file that is missing may be made, and is empty. A directory can be opened to be
read, but there is nothing to read from it. -/
def openDatabaseAt (t : FileTree) (a : DatabaseAddress) (loc : Location) : FileTree × Except DatabaseError Database :=
  match t.entryAt? loc with
  | some (.file content) => (t, t.readDatabase a loc content)
  | some .directory => (t, .error (if a.access = .read then .unreadable else .cannotOpen))
  | none =>
    match a.access, t.entryAt? loc.dropLast with
    | .create, some .directory => (t.put loc (.file (.bytes [])), .ok .empty)
    | _, _ => (t, .error .cannotOpen)

/-- Whether a name can be that of a directory alone, because nothing or a dot follows its last slash. -/
def namesDirectory (name : String) : Bool :=
  match (Path.splitSlashes name.toList).reverse with
  | last :: _ :: _ => last = [] || last = ['.']
  | _ => false

/-- Whether there is nothing under the name of a file. -/
def lacks (t : FileTree) (name : String) : Bool :=
  match t.find (.ofText name) with
  | .ok .directory => name = ""
  | .ok (.file _) => namesDirectory name
  | .error _ => true

/-- Opens the database that an address leads to. -/
def openAddress (t : FileTree) (a : DatabaseAddress) : FileTree × Except DatabaseError Database :=
  if a.inMemory then (t, .ok .empty)
  else
    match t.databaseLocation (t.start a.path) a.path.parts with
    | none => (t, .error .cannotOpen)
    | some loc => if a.model.any t.lacks then (t, .error .unreadable) else t.openDatabaseAt a loc

/-- Opens the database at a path. -/
def openDatabase (t : FileTree) (p : Path) : FileTree × Except DatabaseError Database :=
  if '\x00' ∈ p.text.toList then (t, .error .nullCharacter)
  else
    match DatabaseAddress.ofPath p with
    | .error e => (t, .error e)
    | .ok a => t.openAddress a

/-! ## Opening changes nothing that is there -/

theorem openDatabaseAt_of_entryAt? {t : FileTree} {a : DatabaseAddress} {loc : Location} {e : FileEntry}
    (h : t.entryAt? loc = some e) : (t.openDatabaseAt a loc).1 = t := by
  unfold openDatabaseAt
  rw [h]
  match e with
  | .directory => rfl
  | .file _ => rfl

/-- Where all names on the way are those of directories, a database is where any other file is. -/
theorem databaseLocation_eq_of_descend {t : FileTree} {names : List String} :
    ∀ {loc l l' : Location}, t.descend loc names = .ok l → t.databaseLocation loc names = some l' → l' = l := by
  induction names with
  | nil =>
    intro loc l l' hd hl
    simp only [databaseLocation] at hl
    split at hl
    · cases hd; cases hl; rfl
    · cases hl
  | cons name rest ih =>
    intro loc l l' hd hl
    unfold descend at hd
    unfold databaseLocation at hl
    split at hd
    · split at hd
      · next hn => rw [if_pos hn] at hl; exact ih hd hl
      · next hn =>
        rw [if_neg hn] at hl
        split at hd
        · cases hd
        · split at hl
          · exact ih hd hl
          · cases hl
    · cases hd
    · cases hd

theorem openAddress_of_pathExists {t : FileTree} {a : DatabaseAddress} (h : t.pathExists a.path = .ok true) :
    (t.openAddress a).1 = t := by
  unfold openAddress
  split
  · rfl
  · split
    · rfl
    · next loc hl =>
      obtain ⟨e, he⟩ := find_of_pathExists h
      obtain ⟨loc', hp, hat⟩ := locate_of_find he
      split
      · rfl
      · rw [databaseLocation_eq_of_descend (descend_of_locate hp) hl]
        exact openDatabaseAt_of_entryAt? hat

theorem openDatabase_of_pathExists {t : FileTree} {p : Path} (hp : DatabaseAddress.isPlain p = true)
    (h : t.pathExists p = .ok true) : (t.openDatabase p).1 = t := by
  unfold openDatabase
  rw [DatabaseAddress.ofPath_of_isPlain hp]
  split
  · rfl
  · exact openAddress_of_pathExists h

end FileTree

end CouplingTree
