import CouplingTree.FactSource
import CouplingTree.Proofs.Files.Tree
import CouplingTree.Proofs.Outcomes

/-!
# Opening databases

* `Raises` : what the errors of a step are like, with the steps that it is made of.
* `DatabaseAddress.Refused` : errors of addresses; `DatabaseAddress.raises_ofPath` : no others come from reading one.
* `FileTree.raises_openAddress`, `Database.raises_callGraph` : and none of them from the database that it leads to.
* `FileTree.MakesAt` : an address makes a file; `FileTree.openAddress_eq_self` : all others leave the files alone.
* `FileTree.readDatabase_of_magic` : a file that does not start like a database is none.
-/

namespace CouplingTree
open Sql (Problem Value Row Definition)

/-! ## The errors of a step -/

section Raises

variable {ε ε' β γ : Type} {P : ε → Prop} {x : Except ε β} {f : β → Except ε γ}

/-- All errors of a step have a property. -/
def Raises (P : ε → Prop) (x : Except ε β) : Prop := ∀ e, x = .error e → P e

theorem raises_ok (y : β) : Raises P (.ok y : Except ε β) := nofun

theorem raises_error {e : ε} (h : P e) : Raises P (.error e : Except ε β) := by
  rintro _ ⟨⟩
  exact h

theorem raises_bind (hx : Raises P x) (hf : ∀ y, Raises P (f y)) : Raises P (x >>= f) := by
  cases x with
  | error e => exact raises_error (hx e rfl)
  | ok y => exact hf y

theorem raises_map (hx : Raises P x) (g : β → γ) : Raises P (x.map g) := fun e he => hx e (map_eq_error_iff.1 he)

theorem raises_mapError {P : ε' → Prop} {g : ε → ε'} (h : ∀ e, P (g e)) (x : Except ε β) : Raises P (x.mapError g) := by
  cases x with
  | error e => exact raises_error (h e)
  | ok y => exact raises_ok y

theorem raises_mapM (hf : ∀ y, Raises P (f y)) (l : List β) : Raises P (l.mapM f) := fun e he => by
  obtain ⟨-, y, -, -, -, hy⟩ := mapM_eq_error_iff.1 he
  exact hf y e hy

theorem raises_foldlM {f : γ → β → Except ε γ} (hf : ∀ z y, Raises P (f z y)) (z : γ) (l : List β) :
    Raises P (l.foldlM f z) := by
  induction l generalizing z with
  | nil => exact raises_ok z
  | cons y l ih => exact raises_bind (hf z y) ih

end Raises

/-! ## Errors of addresses -/

namespace DatabaseAddress

/-- Errors that an address can have when its path is in order. -/
def Refused (e : DatabaseError) : Prop :=
  (∃ problem value, e = .address problem value) ∨ ∃ fault, e = .undecodableAddress fault

variable {α : Type}

theorem raises_refuse (problem : AddressProblem) (value : List UInt8) :
    Raises Refused (refuse problem value : Except DatabaseError α) := by
  unfold refuse
  split
  · exact raises_error (.inl ⟨_, _, rfl⟩)
  · exact raises_error (.inr ⟨_, rfl⟩)

theorem raises_add (o : Opening) (f : Field) : Raises Refused (o.add f) := by
  unfold Opening.add
  split
  · exact raises_ok _
  · split
    · exact raises_ok _
    · exact raises_refuse _ _
  · split
    · exact raises_refuse _ _
    · split
      · exact raises_ok _
      · exact raises_refuse _ _
  · exact raises_ok _

theorem raises_systemName (o : Opening) : Raises Refused o.systemName := by
  unfold Opening.systemName
  split
  · exact raises_ok _
  · split
    · exact raises_ok _
    · exact raises_refuse _ _

/-- What is wrong with an address is in one of its fields. -/
theorem raises_ofPath (p : Path) : Raises Refused (ofPath p) := by
  unfold ofPath
  split
  · refine raises_bind (raises_foldlM raises_add _ _) fun opening => ?_
    exact raises_bind (raises_systemName opening) fun _ => raises_ok _
  · exact raises_ok _

end DatabaseAddress

/-! ## Errors of databases -/

namespace DatabaseError

/-- Whether what is found is at fault, and not the path that leads there. -/
def OfContent : DatabaseError → Prop
  | nullCharacter | address .. | undecodableAddress _ => False
  | _ => True

theorem ofContent_ofProblem (p : Problem) : OfContent (.ofProblem p) := by cases p <;> trivial

end DatabaseError

open DatabaseError

namespace SchemaItem

variable {α : Type}

theorem raises_refused (e : SchemaItem) (reason : String) : Raises OfContent (e.refused reason : Except DatabaseError α) :=
  raises_error trivial

theorem raises_addDefinition (s : Schema) (e : SchemaItem) (root : Nat) (definition : Definition) :
    Raises OfContent (addDefinition s e root definition) := by
  unfold addDefinition
  dsimp only
  repeat' split
  all_goals first | exact raises_ok _ | exact raises_refused _ _

theorem raises_add (pageCount : Nat) (s : Schema) (e : SchemaItem) : Raises OfContent (add pageCount s e) := by
  unfold add
  repeat' split
  all_goals first | exact raises_ok _ | exact raises_refused _ _ | exact raises_addDefinition _ _ _ _

theorem raises_addRows (d : DatabaseImage) (s : Schema) (rows : List RowEntry) : Raises OfContent (addRows d s rows) := by
  induction rows generalizing s with
  | nil => exact raises_ok _
  | cons r rest ih =>
    refine raises_bind (raises_mapError ofContent_ofProblem _) fun values => ?_
    exact raises_bind (raises_add _ _ _) ih

theorem raises_read (d : DatabaseImage) : Raises OfContent (read d) := by
  refine raises_bind (raises_addRows _ _ _) fun s => ?_
  split
  · exact raises_ok _
  · exact raises_error (ofContent_ofProblem _)

end SchemaItem

theorem DatabaseImage.raises_ofBytes (bytes : Array UInt8) : Raises OfContent (ofBytes bytes) := by
  unfold ofBytes
  dsimp only
  repeat' split
  all_goals first | exact raises_ok _ | exact raises_error trivial

theorem Cell.raises_ofValue (column : String) (v : Value) : Raises OfContent (ofValue column v) := by
  unfold ofValue
  repeat' split
  all_goals first | exact raises_ok _ | exact raises_error trivial

namespace Database

theorem raises_ofBytes (bytes : Array UInt8) : Raises OfContent (ofBytes bytes) := by
  unfold ofBytes
  split
  · exact raises_ok _
  · exact raises_bind (DatabaseImage.raises_ofBytes bytes) fun d => raises_bind (SchemaItem.raises_read d) fun _ => raises_ok _

theorem raises_decoded (columns : List String) (rows : Sql.Stream Row) : Raises OfContent (decoded columns rows) := by
  have hrow : ∀ row, Raises OfContent (cellsOf columns row) := fun row =>
    raises_bind (raises_mapError ofContent_ofProblem _) fun values =>
      raises_mapM (fun c : String × Value => Cell.raises_ofValue c.1 c.2) _
  refine raises_bind (raises_mapM hrow _) fun cells => ?_
  split
  · exact raises_ok _
  · exact raises_error (ofContent_ofProblem _)

theorem raises_select (d : Database) (table : String) (columns : List String) : Raises OfContent (d.select table columns) := by
  unfold select
  split
  · refine raises_bind (raises_mapError ofContent_ofProblem _) fun _ => ?_
    exact raises_bind (raises_mapError ofContent_ofProblem _) fun _ => raises_decoded _ _
  · exact raises_bind (raises_mapError ofContent_ofProblem _) fun _ => raises_decoded _ _

theorem raises_listedClasses (d : Database) : Raises OfContent d.listedClasses := by
  unfold listedClasses
  split
  · exact raises_select _ _ _
  · exact raises_ok _

/-- To make a call graph of a database only fails because of the database. -/
theorem raises_callGraph (d : Database) : Raises OfContent d.callGraph := by
  refine raises_map (raises_bind (raises_listedClasses d) fun _ => ?_) _
  exact raises_bind (raises_select _ _ _) fun _ => raises_bind (raises_select _ _ _) fun _ => raises_ok _

end Database

namespace FileTree

variable {t : FileTree} {a : DatabaseAddress} {loc : Location}

theorem ofContent_of_journalFault? {isEmpty : Bool} {e : DatabaseError} (h : t.journalFault? a loc isEmpty = some e) :
    e.OfContent := by
  unfold journalFault? at h
  repeat' split at h
  all_goals cases h
  all_goals trivial

theorem raises_settled (bytes : Array UInt8) : Raises OfContent (t.settled a loc bytes) := by
  unfold settled logged
  dsimp only
  repeat' split
  all_goals first | exact raises_ok _ | exact raises_error trivial

theorem raises_readDatabase (content : Content) : Raises OfContent (t.readDatabase a loc content) := by
  have hfault : ∀ (isEmpty : Bool) (x : Except DatabaseError Database), Raises OfContent x →
      Raises OfContent ((if a.isFixed then none else t.journalFault? a loc isEmpty).elim x .error) := by
    intro isEmpty x hx
    split
    · exact hx
    · cases h : t.journalFault? a loc isEmpty with
      | none => exact hx
      | some e => exact raises_error (ofContent_of_journalFault? h)
  cases content with
  | database d => exact hfault false _ (raises_ok d)
  | bytes bs => exact hfault _ _ (raises_bind (raises_settled _) Database.raises_ofBytes)

theorem raises_openDatabaseAt : Raises OfContent (t.openDatabaseAt a loc).2 := by
  unfold openDatabaseAt
  split
  · exact raises_readDatabase _
  · split <;> exact raises_error trivial
  · split
    · exact raises_ok _
    · exact raises_error trivial

/-- To open what an address leads to only fails because of what is there. -/
theorem raises_openAddress (t : FileTree) (a : DatabaseAddress) : Raises OfContent (t.openAddress a).2 := by
  unfold openAddress
  split
  · exact raises_ok _
  · split
    · exact raises_error trivial
    · split
      · exact raises_error trivial
      · exact raises_openDatabaseAt

/-! ## Files that are made -/

/-- An address leads to a file that is missing, in a directory where it may be made. -/
structure MakesAt (t : FileTree) (a : DatabaseAddress) (loc : Location) : Prop where
  onDisk : a.inMemory = false
  access_eq : a.access = .create
  model : a.model.any t.lacks = false
  location_eq : t.databaseLocation (t.start a.path) a.path.parts = some loc
  missing : t.entryAt? loc = none
  above : t.entryAt? loc.dropLast = some .directory

/-- The file that is made is empty, and so is its database. -/
theorem MakesAt.openAddress_eq (h : t.MakesAt a loc) : t.openAddress a = (t.put loc (.file (.bytes [])), .ok .empty) := by
  have hopen : t.openDatabaseAt a loc = (t.put loc (.file (.bytes [])), .ok .empty) := by
    rw [openDatabaseAt, h.missing]
    dsimp only
    rw [h.access_eq, h.above]
  rw [openAddress, h.onDisk, h.location_eq]
  dsimp only
  rw [h.model]
  exact hopen

theorem bytesBeside?_eq_none {ending : String} (h : t.beside? loc ending = none) : t.bytesBeside? loc ending = none := by
  rw [bytesBeside?, h]

/-- Without anything beside it, a file is read as it is, unless its header tells of a log. -/
theorem settled_eq_self {bytes : Array UInt8} (hjournal : t.beside? loc "-journal" = none) (hlog : t.beside? loc "-wal" = none)
    (hmagic : DatabaseImage.bytesAt bytes 0 16 ≠ DatabaseImage.magic) : t.settled a loc bytes = .ok bytes := by
  have hrestored : t.restored loc bytes = bytes := by rw [restored, bytesBeside?_eq_none hjournal]
  have hlogged : t.logged a loc bytes = .ok bytes := by
    have hheader : isLogged bytes = false := by rw [isLogged, decide_eq_false hmagic, Bool.false_and]
    rw [logged, bytesBeside?_eq_none hlog, hheader]
    rfl
  rw [settled]
  simp only [hrestored, hlogged, ite_self]

/-- A file that does not start like a database is none. -/
theorem readDatabase_of_magic {bs : List UInt8} (hjournal : t.beside? loc "-journal" = none)
    (hlog : t.beside? loc "-wal" = none) (hlength : 1 < bs.length)
    (hmagic : DatabaseImage.bytesAt bs.toArray 0 16 ≠ DatabaseImage.magic) :
    t.readDatabase a loc (.bytes bs) = .error .notADatabase := by
  have hfault : t.journalFault? a loc (decide (bs.length ≤ 1)) = none := by
    rw [decide_eq_false (Nat.not_le.2 hlength)]
    unfold journalFault?
    rw [hjournal, hlog]
    simp
  have hsixteen : DatabaseImage.magic.length = 16 := by decide +kernel
  have himage : DatabaseImage.ofBytes bs.toArray = .error .notADatabase := by
    rw [← hsixteen] at hmagic
    unfold DatabaseImage.ofBytes
    split
    · rfl
    · exact if_pos (.inl hmagic)
  have hlarge : ¬bs.toArray.size ≤ 1 := by
    rw [List.size_toArray]
    exact Nat.not_le.2 hlength
  have hread : Database.ofBytes bs.toArray = .error .notADatabase := by
    rw [Database.ofBytes, if_neg hlarge, Database.ofImage, himage]
    rfl
  simp only [readDatabase, hfault, ite_self, Option.elim_none, settled_eq_self hjournal hlog hmagic]
  exact hread

end FileTree

end CouplingTree
