import CouplingTree.Proofs.Outcomes
import CouplingTree.Text.Utf8

/-!
# Texts come back from UTF-8

* `Utf8.encode_eq` : a text is encoded character by character.
* `Utf8.decodeFrom_char` : the bytes of a character are decoded as this character.
* `Utf8.decode_encode` : so every text that is encoded can be decoded.
* `Utf8.encode_of_decode` : and nothing else can.
-/

namespace CouplingTree.Utf8

/-! ## Encoding -/

theorem toList_loop (bs : ByteArray) (i : Nat) (r : List UInt8) :
    ByteArray.toList.loop bs i r = r.reverse ++ bs.data.toList.drop i := by
  fun_induction ByteArray.toList.loop bs i r with
  | case1 i r h ih =>
    have hi : i < bs.data.toList.length := h
    have hget : bs.get! i = bs.data.toList[i] := by
      rw [Array.getElem_toList]
      exact getElem!_pos bs.data i h
    rw [ih, List.reverse_cons, List.append_assoc, List.singleton_append, hget, List.getElem_cons_drop]
  | case2 i r h =>
    have hi : bs.data.toList.length ≤ i := Nat.not_lt.1 h
    rw [List.drop_eq_nil_of_le hi, List.append_nil]

theorem encode_eq (s : String) : encode s = s.toList.flatMap String.utf8EncodeChar := by
  rw [encode, ByteArray.toList, toList_loop, List.reverse_nil, List.nil_append, List.drop_zero, ← String.utf8Encode_toList,
    List.utf8Encode, List.toList_data_toByteArray]

/-! ## Decoding -/

theorem toNat_ofNat {n : Nat} (h : n < 256) : (UInt8.ofNat n).toNat = n := UInt8.toNat_ofNat_of_lt' h

theorem ofNat_val (c : Char) : Char.ofNat c.val.toNat = c := Char.ofNat_toNat c

section Steps

variable {b bits owed least greatest : Nat} {p : Pending} {byte : UInt8} {start position : Nat} {rest : List UInt8}

theorem decodeFrom_complete {c : Char} (hb : b < 256) (h : lead b = .complete c) :
    decodeFrom position none (UInt8.ofNat b :: rest) = (decodeFrom (position + 1) none rest).map (c :: ·) := by
  simp only [decodeFrom, toNat_ofNat hb, h]

theorem decodeFrom_pending (hb : b < 256) (h : lead b = .pending p) :
    decodeFrom position none (UInt8.ofNat b :: rest) =
      decodeFrom (position + 1) (some (p, UInt8.ofNat b, position)) rest := by
  simp only [decodeFrom, toNat_ofNat hb, h]

theorem decodeFrom_more (hb : b < 256) (hleast : least ≤ b) (hgreatest : b ≤ greatest) :
    decodeFrom position (some (⟨bits, owed + 2, least, greatest⟩, byte, start)) (UInt8.ofNat b :: rest) =
      decodeFrom (position + 1) (some (⟨bits * 64 + (b - 0x80), owed + 1, 0x80, 0xBF⟩, byte, start)) rest := by
  have hmore : ¬ owed + 2 ≤ 1 := by omega
  simp [decodeFrom, toNat_ofNat hb, Pending.accepts, Pending.push, hleast, hgreatest, hmore]

theorem decodeFrom_last (hb : b < 256) (hleast : least ≤ b) (hgreatest : b ≤ greatest) :
    decodeFrom position (some (⟨bits, 1, least, greatest⟩, byte, start)) (UInt8.ofNat b :: rest) =
      (decodeFrom (position + 1) none rest).map (Char.ofNat (bits * 64 + (b - 0x80)) :: ·) := by
  simp [decodeFrom, toNat_ofNat hb, Pending.accepts, Pending.push, hleast, hgreatest]

end Steps

/-- The second byte has to be such that no character has two forms and none is a surrogate. -/
theorem lead_of_three {v : Nat} (hlow : 0x7FF < v) (hhigh : v ≤ 0xFFFF) (hvalid : v < 0xD800 ∨ 0xDFFF < v) :
    ∃ least greatest, lead (v / 4096 % 0x10 + 0xE0) = .pending ⟨v / 4096, 2, least, greatest⟩ ∧
      least ≤ v / 64 % 0x40 + 0x80 ∧ v / 64 % 0x40 + 0x80 ≤ greatest := by
  have hbits : v / 4096 % 0x10 + 0xE0 - 0xE0 = v / 4096 := by omega
  unfold lead
  rw [if_neg (by omega), if_neg (by omega)]
  split
  · next h =>
    have hzero : v / 4096 = 0 := by omega
    exact ⟨0xA0, 0xBF, by rw [hzero], by omega, by omega⟩
  split
  · next h => exact ⟨0x80, 0x9F, by rw [hbits], by omega, by omega⟩
  · rw [if_pos (by omega)]
    exact ⟨0x80, 0xBF, by rw [hbits], by omega, by omega⟩

theorem lead_of_four {v : Nat} (hlow : 0xFFFF < v) (hhigh : v < 0x110000) :
    ∃ least greatest, lead (v / 262144 % 0x08 + 0xF0) = .pending ⟨v / 262144, 3, least, greatest⟩ ∧
      least ≤ v / 4096 % 0x40 + 0x80 ∧ v / 4096 % 0x40 + 0x80 ≤ greatest := by
  have hbits : v / 262144 % 0x08 + 0xF0 - 0xF0 = v / 262144 := by omega
  unfold lead
  rw [if_neg (by omega), if_neg (by omega), if_neg (by omega), if_neg (by omega), if_neg (by omega)]
  split
  · next h =>
    have hzero : v / 262144 = 0 := by omega
    exact ⟨0x90, 0xBF, by rw [hzero], by omega, by omega⟩
  split
  · next h => exact ⟨0x80, 0xBF, by rw [hbits], by omega, by omega⟩
  · rw [if_pos (by omega)]
    have hfour : v / 262144 = 4 := by omega
    exact ⟨0x80, 0x8F, by rw [hfour], by omega, by omega⟩

/-- The bytes of a character are decoded as this character, whatever comes behind them. -/
theorem decodeFrom_char (c : Char) (rest : List UInt8) (position : Nat) :
    ∃ next, decodeFrom position none (String.utf8EncodeChar c ++ rest) = (decodeFrom next none rest).map (c :: ·) := by
  have hvalid : c.val.toNat < 0xD800 ∨ 0xDFFF < c.val.toNat ∧ c.val.toNat < 0x110000 := c.valid
  have hc := ofNat_val c
  unfold String.utf8EncodeChar
  dsimp only
  generalize c.val.toNat = v at hvalid hc
  split
  · next h =>
    have hlead : lead v = .complete c := by
      rw [lead, if_pos (by omega), hc]
    exact ⟨_, decodeFrom_complete (by omega) hlead⟩
  -- two bytes
  split
  · next h1 h2 =>
    have hbits : v / 64 % 0x20 + 0xC0 - 0xC0 = v / 64 := by omega
    have hlead : lead (v / 64 % 0x20 + 0xC0) = .pending ⟨v / 64, 1, 0x80, 0xBF⟩ := by
      rw [lead, if_neg (by omega), if_pos (by omega), hbits]
    refine ⟨position + 1 + 1, ?_⟩
    rw [List.cons_append, decodeFrom_pending (by omega) hlead, List.cons_append,
      decodeFrom_last (by omega) (by omega) (by omega), List.nil_append]
    have hv : v / 64 * 64 + (v % 0x40 + 0x80 - 0x80) = v := by omega
    rw [hv, hc]
  -- three or four bytes, of which the first two go together
  split
  · next h1 h2 h3 =>
    obtain ⟨least, greatest, hlead, hleast, hgreatest⟩ := lead_of_three (v := v) (by omega) h3 (by omega)
    refine ⟨position + 1 + 1 + 1, ?_⟩
    rw [List.cons_append, decodeFrom_pending (by omega) hlead, List.cons_append,
      decodeFrom_more (by omega) hleast hgreatest, List.cons_append,
      decodeFrom_last (by omega) (by omega) (by omega), List.nil_append]
    have hv : (v / 4096 * 64 + (v / 64 % 0x40 + 0x80 - 0x80)) * 64 + (v % 0x40 + 0x80 - 0x80) = v := by omega
    rw [hv, hc]
  · next h1 h2 h3 =>
    obtain ⟨least, greatest, hlead, hleast, hgreatest⟩ := lead_of_four (v := v) (by omega) (by omega)
    refine ⟨position + 1 + 1 + 1 + 1, ?_⟩
    rw [List.cons_append, decodeFrom_pending (by omega) hlead, List.cons_append,
      decodeFrom_more (by omega) hleast hgreatest, List.cons_append,
      decodeFrom_more (by omega) (by omega) (by omega), List.cons_append,
      decodeFrom_last (by omega) (by omega) (by omega), List.nil_append]
    have hv : ((v / 262144 * 64 + (v / 4096 % 0x40 + 0x80 - 0x80)) * 64 + (v / 64 % 0x40 + 0x80 - 0x80)) * 64 +
        (v % 0x40 + 0x80 - 0x80) = v := by omega
    rw [hv, hc]

theorem decodeFrom_encoded (cs : List Char) (position : Nat) :
    decodeFrom position none (cs.flatMap String.utf8EncodeChar) = .ok cs := by
  induction cs generalizing position with
  | nil => rfl
  | cons c cs ih =>
    obtain ⟨next, h⟩ := decodeFrom_char c (cs.flatMap String.utf8EncodeChar) position
    rw [List.flatMap_cons, h, ih]
    rfl

theorem decode_encode (s : String) : decode (encode s) = .ok s.toList := by
  rw [encode_eq]
  exact decodeFrom_encoded _ 0

/-! ## What can be decoded -/

section Decoded

variable {cs : List Char} {bytes : List UInt8} {position : Nat}

/-- The bytes of a code point that is a character. -/
theorem utf8EncodeChar_ofNat {v : Nat} (h : v.isValidChar) : String.utf8EncodeChar (Char.ofNat v) =
    if v ≤ 0x7F then [UInt8.ofNat v]
    else if v ≤ 0x7FF then [UInt8.ofNat (v / 64 % 0x20 + 0xC0), UInt8.ofNat (v % 0x40 + 0x80)]
    else if v ≤ 0xFFFF then
      [UInt8.ofNat (v / 4096 % 0x10 + 0xE0), UInt8.ofNat (v / 64 % 0x40 + 0x80), UInt8.ofNat (v % 0x40 + 0x80)]
    else [UInt8.ofNat (v / 262144 % 0x08 + 0xF0), UInt8.ofNat (v / 4096 % 0x40 + 0x80), UInt8.ofNat (v / 64 % 0x40 + 0x80),
      UInt8.ofNat (v % 0x40 + 0x80)] := by
  have hv : (Char.ofNat v).val.toNat = v := by
    rw [Char.ofNat, dif_pos h]
    rfl
  unfold String.utf8EncodeChar
  dsimp only
  rw [hv]

theorem lead_cases (b : Nat) : lead b = .invalid ∨ (b < 0x80 ∧ lead b = .complete (Char.ofNat b)) ∨
    (0xC2 ≤ b ∧ b ≤ 0xDF ∧ lead b = .pending ⟨b - 0xC0, 1, 0x80, 0xBF⟩) ∨
    (∃ least greatest, lead b = .pending ⟨b - 0xE0, 2, least, greatest⟩ ∧ 0xE0 ≤ b ∧ b ≤ 0xEF ∧ 0x80 ≤ least ∧
      greatest ≤ 0xBF ∧ (b = 0xE0 → 0xA0 ≤ least) ∧ (b = 0xED → greatest ≤ 0x9F)) ∨
    ∃ least greatest, lead b = .pending ⟨b - 0xF0, 3, least, greatest⟩ ∧ 0xF0 ≤ b ∧ b ≤ 0xF4 ∧ 0x80 ≤ least ∧
      greatest ≤ 0xBF ∧ (b = 0xF0 → 0x90 ≤ least) ∧ (b = 0xF4 → greatest ≤ 0x8F) := by
  unfold lead
  split
  · next h => exact .inr (.inl ⟨h, rfl⟩)
  split
  · next h => exact .inr (.inr (.inl ⟨h.1, h.2, rfl⟩))
  split
  · next h =>
    subst h
    exact .inr (.inr (.inr (.inl ⟨_, _, rfl, by decide⟩)))
  split
  · next h =>
    subst h
    exact .inr (.inr (.inr (.inl ⟨_, _, rfl, by decide⟩)))
  split
  · next h0 hd h => exact .inr (.inr (.inr (.inl ⟨_, _, rfl, by omega⟩)))
  split
  · next h =>
    subst h
    exact .inr (.inr (.inr (.inr ⟨_, _, rfl, by decide⟩)))
  split
  · next h => exact .inr (.inr (.inr (.inr ⟨_, _, rfl, by omega⟩)))
  split
  · next h =>
    subst h
    exact .inr (.inr (.inr (.inr ⟨_, _, rfl, by decide⟩)))
  · exact .inl rfl

theorem decodeFrom_begun {p : Pending} {byte : UInt8} {start : Nat}
    (h : decodeFrom position (some (p, byte, start)) bytes = .ok cs) :
    ∃ (b : UInt8) (rest : List UInt8), bytes = b :: rest ∧ p.least ≤ b.toNat ∧ b.toNat ≤ p.greatest ∧
      (p.owed ≤ 1 → ∃ tail, decodeFrom (position + 1) none rest = .ok tail ∧
        cs = Char.ofNat (p.bits * 64 + (b.toNat - 0x80)) :: tail) ∧
      (1 < p.owed → decodeFrom (position + 1)
        (some (⟨p.bits * 64 + (b.toNat - 0x80), p.owed - 1, 0x80, 0xBF⟩, byte, start)) rest = .ok cs) := by
  cases bytes with
  | nil => cases h
  | cons b rest =>
    rw [decodeFrom] at h
    split at h
    · next haccepts =>
      have hrange := of_decide_eq_true haccepts
      refine ⟨b, rest, rfl, hrange.1, hrange.2, fun howed => ?_, fun howed => ?_⟩
      · have hpush : p.push b.toNat = .complete (Char.ofNat (p.bits * 64 + (b.toNat - 0x80))) := if_pos howed
        rw [hpush] at h
        obtain ⟨tail, htail, rfl⟩ := map_eq_ok_iff.1 h
        exact ⟨tail, htail, rfl⟩
      · have hpush : p.push b.toNat = .pending ⟨p.bits * 64 + (b.toNat - 0x80), p.owed - 1, 0x80, 0xBF⟩ :=
          if_neg (Nat.not_le.2 howed)
        rw [hpush] at h
        exact h
    · cases h

theorem ofNat_eq {b : UInt8} {n : Nat} (h : n = b.toNat) : UInt8.ofNat n = b := by
  rw [h, UInt8.ofNat_toNat]

/-- What is decoded begins with the bytes of its first character. -/
theorem exists_char (h : decodeFrom position none bytes = .ok cs) : bytes = [] ∧ cs = [] ∨
    ∃ c tail rest next, cs = c :: tail ∧ bytes = String.utf8EncodeChar c ++ rest ∧ decodeFrom next none rest = .ok tail := by
  cases bytes with
  | nil =>
    cases h
    exact .inl ⟨rfl, rfl⟩
  | cons b rest =>
    right
    have hb := b.toNat_lt
    rw [decodeFrom] at h
    rcases lead_cases b.toNat with hlead | ⟨hlow, hlead⟩ | ⟨hlow, hhigh, hlead⟩ | ⟨l, g, hlead, hlow, hhigh, hl, hg, hfirst, hsurrogate⟩ |
      ⟨l, g, hlead, hlow, hhigh, hl, hg, hfirst, hlast⟩ <;> rw [hlead] at h
    · cases h
    · obtain ⟨tail, htail, rfl⟩ := map_eq_ok_iff.1 h
      refine ⟨_, tail, rest, _, rfl, ?_, htail⟩
      rw [utf8EncodeChar_ofNat (.inl (by omega)), if_pos (by omega), UInt8.ofNat_toNat]
      rfl
    · obtain ⟨b₁, rest, rfl, hl₁, hg₁, hdone, -⟩ := decodeFrom_begun h
      obtain ⟨tail, htail, rfl⟩ := hdone (Nat.le_refl 1)
      refine ⟨_, tail, rest, _, rfl, ?_, htail⟩
      dsimp only at hl₁ hg₁ ⊢
      rw [utf8EncodeChar_ofNat (.inl (by omega)), if_neg (by omega), if_pos (by omega), ofNat_eq (b := b) (by omega),
        ofNat_eq (b := b₁) (by omega)]
      rfl
    · obtain ⟨b₁, rest, rfl, hl₁, hg₁, -, hmore⟩ := decodeFrom_begun h
      obtain ⟨b₂, rest, rfl, hl₂, hg₂, hdone, -⟩ := decodeFrom_begun (hmore (by dsimp only; omega))
      obtain ⟨tail, htail, rfl⟩ := hdone (Nat.le_refl 1)
      refine ⟨_, tail, rest, _, rfl, ?_, htail⟩
      dsimp only at hl₁ hg₁ hl₂ hg₂ ⊢
      rw [utf8EncodeChar_ofNat (by unfold Nat.isValidChar; omega), if_neg (by omega), if_neg (by omega), if_pos (by omega),
        ofNat_eq (b := b) (by omega), ofNat_eq (b := b₁) (by omega), ofNat_eq (b := b₂) (by omega)]
      rfl
    · obtain ⟨b₁, rest, rfl, hl₁, hg₁, -, hmore⟩ := decodeFrom_begun h
      obtain ⟨b₂, rest, rfl, hl₂, hg₂, -, hmore⟩ := decodeFrom_begun (hmore (by dsimp only; omega))
      obtain ⟨b₃, rest, rfl, hl₃, hg₃, hdone, -⟩ := decodeFrom_begun (hmore (by dsimp only; omega))
      obtain ⟨tail, htail, rfl⟩ := hdone (Nat.le_refl 1)
      refine ⟨_, tail, rest, _, rfl, ?_, htail⟩
      dsimp only at hl₁ hg₁ hl₂ hg₂ hl₃ hg₃ ⊢
      rw [utf8EncodeChar_ofNat (by unfold Nat.isValidChar; omega), if_neg (by omega), if_neg (by omega), if_neg (by omega),
        ofNat_eq (b := b) (by omega), ofNat_eq (b := b₁) (by omega), ofNat_eq (b := b₂) (by omega),
        ofNat_eq (b := b₃) (by omega)]
      rfl

/-- What is decoded is the encoding of the result. -/
theorem encode_of_decode (h : decode bytes = .ok cs) : encode (String.ofList cs) = bytes := by
  rw [encode_eq, String.toList_ofList]
  have hfrom : ∀ {cs : List Char} {bytes : List UInt8} {position : Nat}, decodeFrom position none bytes = .ok cs →
      cs.flatMap String.utf8EncodeChar = bytes := by
    intro cs
    induction cs with
    | nil =>
      intro bytes position h
      obtain ⟨rfl, -⟩ | ⟨c, tail, rest, next, hcs, -⟩ := exists_char h
      · rfl
      · cases hcs
    | cons c cs ih =>
      intro bytes position h
      obtain ⟨-, hcs⟩ | ⟨c', tail, rest, next, hcs, rfl, hrest⟩ := exists_char h
      · cases hcs
      · obtain ⟨rfl, rfl⟩ := List.cons.inj hcs
        rw [List.flatMap_cons, ih hrest]
  exact hfrom h

end Decoded

end CouplingTree.Utf8
