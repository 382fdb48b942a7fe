import CouplingTree.FactSource
import CouplingTree.Proofs.Files.Tree
import CouplingTree.Proofs.Json.Numbers
import CouplingTree.Proofs.Json.RoundTrip
import CouplingTree.Proofs.Text.Utf8
import CouplingTree.Records

/-!
# JSON in text files

The indented text of a value consists of line feeds and printable ASCII, whatever the characters in its texts are. It has no
carriage return, so that reading it from a text file changes no line end.

* `Json.Printed` : a line feed or a printable character of ASCII.
* `Json.printed_plainText` : values without parts.
* `Json.printed_indentedText` : all values.
* `joinLineEnds_eq_self` : texts without carriage returns stay as they are.
* `FileTree.readJson_of_read` : a value comes back from a file with its indented text.
* `FileTree.pathExists_of_readJson` : what is read is there.
* `exportDocument` : the document that exports some records; `fits_exportDocument` : it is within the limits of the reader.
-/

namespace CouplingTree.Json

/-- A line feed or a printable character of ASCII. -/
def Printed (c : Char) : Prop := c = '\n' ∨ 0x20 ≤ c.toNat ∧ c.toNat < 0x7F

instance (c : Char) : Decidable (Printed c) := inferInstanceAs (Decidable (_ ∨ _))

/-! ## Values without parts -/

/-- Texts that are written out are gone through. -/
theorem printed_of_all {cs : List Char} (h : cs.all (fun c => decide (Printed c)) = true) : ∀ c ∈ cs, Printed c :=
  fun c hc => of_decide_eq_true (List.all_eq_true.1 h c hc)

theorem printed_of_isDigit {ds : List Char} (h : ∀ c ∈ ds, c.isDigit = true) : ∀ c ∈ ds, Printed c := fun c hc => by
  have hdigit : '0'.toNat ≤ c.toNat ∧ c.toNat ≤ '9'.toNat := by simpa [Char.isDigit, UInt32.le_iff_toNat_le] using h c hc
  exact .inr ⟨Nat.le_trans (by decide) hdigit.1, Nat.lt_of_le_of_lt hdigit.2 (by decide)⟩

theorem printed_stringText (s : String) : ∀ c ∈ stringText s, Printed c := by
  have hchars : ∀ c ∈ s.toList.flatMap escapeChar, Printed c := fun c hc => by
    obtain ⟨d, -, hd⟩ := List.mem_flatMap.1 hc
    exact .inr (escapeChar_ascii d c hd)
  rw [stringText, List.cons_append]
  refine List.forall_mem_cons.2 ⟨by decide, List.forall_mem_append.2 ⟨hchars, printed_of_all (by decide)⟩⟩

section Digits

variable {ds : List Char} (h : ∀ c ∈ ds, c.isDigit = true)
include h

theorem printed_plainDigits (lead : Int) : ∀ c ∈ CouplingTree.plainText ds lead, Printed c := by
  have htake : ∀ k, ∀ c ∈ ds.take k, Printed c := fun k c hc => printed_of_isDigit h c (List.mem_of_mem_take hc)
  have hdrop : ∀ k, ∀ c ∈ ds.drop k, Printed c := fun k c hc => printed_of_isDigit h c (List.mem_of_mem_drop hc)
  have hzeros : ∀ k, ∀ c ∈ List.replicate k '0', Printed c := fun k => printed_of_isDigit (Numeral.isDigit_replicate_zero k)
  unfold CouplingTree.plainText
  split
  · exact List.forall_mem_cons.2 ⟨by decide, List.forall_mem_cons.2 ⟨by decide,
      List.forall_mem_append.2 ⟨hzeros _, printed_of_isDigit h⟩⟩⟩
  · dsimp only
    split
    · exact List.forall_mem_append.2 ⟨List.forall_mem_append.2 ⟨printed_of_isDigit h, hzeros _⟩, printed_of_all (by decide)⟩
    · exact List.forall_mem_append.2 ⟨htake _, List.forall_mem_cons.2 ⟨by decide, hdrop _⟩⟩

theorem printed_scientificText (lead : Int) : ∀ c ∈ scientificText ds lead, Printed c := by
  have htake : ∀ k, ∀ c ∈ ds.take k, Printed c := fun k c hc => printed_of_isDigit h c (List.mem_of_mem_take hc)
  have hdrop : ∀ k, ∀ c ∈ ds.drop k, Printed c := fun k c hc => printed_of_isDigit h c (List.mem_of_mem_drop hc)
  have hfraction : ∀ c ∈ (if 1 < ds.length then '.' :: ds.drop 1 else []), Printed c := by
    split
    · exact List.forall_mem_cons.2 ⟨by decide, hdrop 1⟩
    · exact fun c hc => absurd hc List.not_mem_nil
  have hsign : Printed (if lead < 0 then '-' else '+') := by split <;> decide
  have hpower : ∀ c ∈ digitsText 2 lead.natAbs, Printed c := printed_of_isDigit (Numeral.isDigit_digitsText _ _)
  rw [scientificText]
  exact List.forall_mem_append.2 ⟨List.forall_mem_append.2 ⟨htake 1, hfraction⟩,
    List.forall_mem_cons.2 ⟨by decide, List.forall_mem_cons.2 ⟨hsign, hpower⟩⟩⟩

end Digits

theorem printed_magnitude (style : DoubleStyle) (m : Nat) (e : Int) : ∀ c ∈ style.magnitude m e, Printed c := by
  unfold DoubleStyle.magnitude
  split
  · exact printed_of_all (by decide)
  · dsimp only
    split
    · exact printed_plainDigits (Numeral.isDigit_toDigits _) _
    · exact printed_scientificText (Numeral.isDigit_toDigits _) _

theorem printed_signText (negative : Bool) : ∀ c ∈ signText negative, Printed c := by
  cases negative <;> exact printed_of_all (by decide)

theorem printed_plainText : ∀ v : Json, ∀ c ∈ plainText v, Printed c
  | .null => printed_of_all (by decide)
  | .bool true => printed_of_all (by decide)
  | .bool false => printed_of_all (by decide)
  | .int i => by
    rw [plainText_int]
    exact List.forall_mem_append.2 ⟨printed_signText _, printed_of_isDigit (Numeral.isDigit_toDigits _)⟩
  | .double x => by
    rw [plainText, DoubleStyle.text]
    split
    · exact printed_of_all (by decide)
    · next negative _ => cases negative <;> exact printed_of_all (by decide)
    · next negative m e _ =>
      rw [String.toList_ofList]
      exact List.forall_mem_append.2 ⟨printed_signText negative, printed_magnitude _ m e⟩
  | .text s => printed_stringText s
  | .list _ => by
    rw [plainText]
    exact printed_of_all (by decide)
  | .object _ => by
    rw [plainText]
    exact printed_of_all (by decide)

/-! ## All values -/

theorem printed_newLine (level : Nat) : ∀ c ∈ newLine level, Printed c :=
  List.forall_mem_cons.2 ⟨by decide, fun c hc => List.eq_of_mem_replicate hc ▸ by decide⟩

mutual

theorem printed_indentedText : ∀ (v : Json) (level : Nat), ∀ c ∈ v.indentedText level, Printed c
  | .list [], _ => printed_plainText (.list [])
  | .list (v :: items), level => by
    have hline := printed_newLine (level + 1)
    have hv := printed_indentedText v (level + 1)
    have hitems := printed_indentedItems items level
    rw [indentedText, List.append_assoc]
    exact List.forall_mem_append.2 ⟨List.forall_mem_cons.2 ⟨by decide, hline⟩, List.forall_mem_append.2 ⟨hv, hitems⟩⟩
  | .object [], _ => printed_plainText (.object [])
  | .object ((k, v) :: fields), level => by
    have hline := printed_newLine (level + 1)
    have hkey := printed_stringText k
    have hv := printed_indentedText v (level + 1)
    have hfields := printed_indentedFields fields level
    rw [indentedText]
    simp only [List.forall_mem_append, List.forall_mem_cons]
    exact ⟨⟨⟨⟨by decide, hline⟩, hkey⟩, by decide, by decide, hv⟩, hfields⟩
  | .null, _ => printed_plainText .null
  | .bool b, _ => printed_plainText (.bool b)
  | .int i, _ => printed_plainText (.int i)
  | .double x, _ => printed_plainText (.double x)
  | .text s, _ => printed_plainText (.text s)

theorem printed_indentedItems : ∀ (items : List Json) (level : Nat), ∀ c ∈ indentedItems level items, Printed c
  | [], level => by
    rw [indentedItems]
    exact List.forall_mem_append.2 ⟨printed_newLine level, printed_of_all (by decide)⟩
  | v :: items, level => by
    have hline := printed_newLine (level + 1)
    have hv := printed_indentedText v (level + 1)
    have hitems := printed_indentedItems items level
    rw [indentedItems, List.append_assoc]
    exact List.forall_mem_append.2 ⟨List.forall_mem_cons.2 ⟨by decide, hline⟩, List.forall_mem_append.2 ⟨hv, hitems⟩⟩

theorem printed_indentedFields : ∀ (fields : List (String × Json)) (level : Nat), ∀ c ∈ indentedFields level fields, Printed c
  | [], level => by
    rw [indentedFields]
    exact List.forall_mem_append.2 ⟨printed_newLine level, printed_of_all (by decide)⟩
  | (k, v) :: fields, level => by
    have hline := printed_newLine (level + 1)
    have hkey := printed_stringText k
    have hv := printed_indentedText v (level + 1)
    have hfields := printed_indentedFields fields level
    rw [indentedFields]
    simp only [List.forall_mem_append, List.forall_mem_cons]
    exact ⟨⟨⟨⟨by decide, hline⟩, hkey⟩, by decide, by decide, hv⟩, hfields⟩

end

theorem printed_indented (v : Json) : ∀ c ∈ v.indented.toList, Printed c := by
  rw [indented, String.toList_ofList]
  exact printed_indentedText v 0

end CouplingTree.Json

namespace CouplingTree

theorem joinLineEnds_eq_self : ∀ {cs : List Char}, '\r' ∉ cs → joinLineEnds cs = cs
  | [], _ => rfl
  | c :: cs, h => by
    rw [List.mem_cons, not_or] at h
    have hc : ∀ d, d = '\r' → c ≠ d := fun d hd hcd => h.1 (hcd.trans hd).symm
    rw [joinLineEnds, joinLineEnds_eq_self h.2]
    all_goals
      intros
      exact hc _ rfl ‹_›

/-- A value comes back from a file with its indented text. -/
theorem FileTree.readJson_of_read {t : FileTree} {p : Path} {v : Json} (hv : v.Fits fileDepth)
    (h : t.read p = .ok (.bytes (Utf8.encode v.indented))) : t.readJson p = .ok v := by
  have hchars : v.indented.toList = v.indentedText 0 := String.toList_ofList
  have htext : t.readText p = .ok (v.indentedText 0) := by
    rw [readText, h]
    simp only [bind, Except.bind, Except.mapError, Content.toBytes, Utf8.decode_encode, hchars]
    rw [joinLineEnds_eq_self fun hreturn => absurd (Json.printed_indentedText v 0 _ hreturn) (by decide)]
  rw [readJson, htext]
  simp only [bind, Except.bind, Json.readUnmarked_indented hv, Except.mapError]

theorem FileTree.pathExists_of_readJson {t : FileTree} {p : Path} {v : Json} (h : t.readJson p = .ok v) :
    t.pathExists p = .ok true := by
  cases hread : t.read p with
  | error e =>
    rw [readJson, readText, hread] at h
    cases h
  | ok c => exact pathExists_of_read hread

/-! ## Documents with records -/

section Records

open Json

theorem fits_texts {depth : Nat} (h : 0 < depth) (names : List String) : (Json.texts names).Fits depth :=
  ⟨h, allFit_iff.2 (List.forall_mem_map.2 fun _ _ => trivial)⟩

theorem Record.fits_toJson {depth : Nat} (h : 1 < depth) (r : Record) : r.toJson.Fits depth := by
  have hdepth : 0 < depth - 1 := by omega
  have hkeys : ["name", "methods", "calls"].Nodup := by decide
  exact ⟨by omega, hkeys, trivial, fits_texts hdepth _, fits_texts hdepth _, trivial⟩

theorem fits_records {depth : Nat} (h : 2 < depth) (records : List Record) :
    (Json.list (records.map Record.toJson)).Fits depth :=
  ⟨by omega, allFit_iff.2 (List.forall_mem_map.2 fun r _ => r.fits_toJson (by omega))⟩

/-- The document that exports some records. -/
def exportDocument (records : List Record) : Json := .object [("classes", .list (records.map Record.toJson))]

theorem fits_exportDocument {depth : Nat} (h : 3 < depth) (records : List Record) : (exportDocument records).Fits depth := by
  have hkeys : ["classes"].Nodup := by decide
  exact ⟨by omega, hkeys, fits_records (by omega) records, trivial⟩

end Records

end CouplingTree
