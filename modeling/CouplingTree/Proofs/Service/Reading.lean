import CouplingTree.Proofs.Json.Files
import CouplingTree.Proofs.Records
import CouplingTree.Proofs.Settings.Merging
import CouplingTree.Service.Handler

/-!
# What the service reads

* `readBody_indented` : a value comes back from a body with its indented text.
* `Input.checkedRequest_eq_ok` : records, settings and a cap are read from the fields that spell them out.
* `Input.checkedSettings_fields` : settings are read from the fields that are written for them.
* `storedSettings_of_fields` : stored fields count as if they were sent; `storedSettings_of_missing` : without them the
  defaults do.
* `Settings.IsProper` : settings that keep their bounds; `isProper_of_checkedSettings`, `isProper_override` : all that are
  read do.
-/

namespace CouplingTree

open Input

/-! ## Bodies -/

namespace Json

theorem ascii_of_printed {c : Char} (h : Printed c) : c.toNat < 0x80 ∧ 0 < c.toNat := by
  rcases h with rfl | h
  · decide
  · omega

/-- Characters of ASCII other than the first one are bytes other than zero. -/
theorem zero_not_mem_encode {s : String} (h : ∀ c ∈ s.toList, Printed c) : (0 : UInt8) ∉ Utf8.encode s := by
  rw [Utf8.encode_eq]
  intro hzero
  obtain ⟨c, hc, hmem⟩ := List.mem_flatMap.1 hzero
  obtain ⟨hsmall, hpos⟩ := ascii_of_printed (h c hc)
  have hbyte : String.utf8EncodeChar c = [c.val.toUInt8] := by
    rw [String.utf8EncodeChar]
    exact if_pos (Nat.le_of_lt_succ hsmall)
  rw [hbyte, List.mem_singleton] at hmem
  have hvalue : c.val.toUInt8.toNat = c.toNat := Nat.mod_eq_of_lt (Nat.lt_trans hsmall (by decide))
  rw [← hmem] at hvalue
  exact absurd hvalue (Nat.ne_of_lt hpos)

theorem decode_indented (v : Json) : decode v.indented = some (v.indentedText 0) := by
  have hmark : withoutMark (v.indentedText 0) = v.indentedText 0 := by
    cases hcs : v.indentedText 0 with
    | nil => rfl
    | cons c cs =>
      have hc : Printed c := printed_indentedText v 0 c (hcs ▸ List.mem_cons_self ..)
      rw [withoutMark, if_neg fun hmark => absurd (hmark ▸ hc) (by decide)]
  rw [decode_of_utf8 (Encoding.of_eq_utf8 (zero_not_mem_encode (printed_indented v))), indented, String.toList_ofList, hmark]

end Json

theorem readBody_indented {v : Json} (h : v.Fits bodyDepth) : readBody v.indented = .ok v := by
  have hread := Json.readUnmarked_indented h
  have hsome : v.indented ≠ "" := fun hempty => by
    have hnil : v.indentedText 0 = [] := String.ofList_eq_empty_iff.1 hempty
    rw [hnil] at hread
    cases hread
  rw [Json.readUnmarked] at hread
  split at hread
  · cases hread
  · simp only [readBody, if_neg hsome, Json.decode_indented, hread]

/-! ## Requests -/

namespace Input

variable {fields : List (String × Json)}

theorem inside_eq_ok_iff {α : Type} {step : Step} {r : Checked α} {x : α} : inside step r = .ok x ↔ r = .ok x := by
  cases r with
  | error cs => exact iff_of_false nofun nofun
  | ok y => rfl

theorem both_eq_ok_iff {α β : Type} {a : Checked α} {b : Checked β} {x : α × β} :
    both a b = .ok x ↔ a = .ok x.1 ∧ b = .ok x.2 := by
  obtain ⟨x, y⟩ := x
  cases a <;> cases b <;> simp [both]

/-- A field that has a default is read, or else left out. -/
theorem optional_eq_ok_iff {α : Type} {key : String} {default x : α} {read : Json → Checked α} :
    optional fields key default read = .ok x ↔
      (∃ v, Entries.find? key fields = some v ∧ read v = .ok x) ∨ Entries.find? key fields = none ∧ x = default := by
  unfold optional
  cases Entries.find? key fields with
  | none => simp [eq_comm]
  | some v => simp [inside_eq_ok_iff]

end Input

/-! ## Settings -/

namespace Settings

/-- A number from zero to one. -/
def IsShare (x : Float) : Prop := 0 ≤ x ∧ x ≤ 1

/-- The settings keep their bounds. -/
structure IsProper (s : Settings Float) : Prop where
  minCoupling : IsShare s.minCoupling
  maxModules : 1 ≤ s.maxModules
  threshold : IsShare s.threshold

theorem isShare_zero : IsShare 0 := ⟨by decide, by decide⟩

theorem isProper_default : (default : Settings Float).IsProper := ⟨isShare_zero, by decide, isShare_zero⟩

end Settings

section Settings

variable {fields : List (String × Json)} {s : Settings Float}

theorem checkedSettings_eq_ok_iff : checkedSettings fields = .ok s ↔
    optional fields "min_coupling" Settings.default.minCoupling share = .ok s.minCoupling ∧
      optional fields "max_modules" (Settings.default : Settings Float).maxModules count = .ok s.maxModules ∧
        optional fields "threshold" Settings.default.threshold share = .ok s.threshold := by
  rw [checkedSettings]
  constructor
  · intro h
    cases hall : both (optional fields "min_coupling" (Settings.default : Settings Float).minCoupling share)
        (both (optional fields "max_modules" (Settings.default : Settings Float).maxModules count)
          (optional fields "threshold" (Settings.default : Settings Float).threshold share)) with
    | error cs =>
      rw [hall] at h
      cases h
    | ok r =>
      rw [hall] at h
      cases h
      rw [both_eq_ok_iff, both_eq_ok_iff] at hall
      exact hall
  · rintro ⟨hmin, hmax, hthreshold⟩
    rw [hmin, hmax, hthreshold]
    rfl

theorem share_double {x : Float} (h : Settings.IsShare x) : share (.double x) = .ok x := by
  have htoShare : toShare (.double x) = .ok x := by
    rw [toShare]
    simp only [toDouble, bind, Except.bind, h.1, h.2, not_true, if_false]
  rw [share, htoShare]
  rfl

theorem count_int {i : Int} (h : 1 ≤ i) : count (.int i) = .ok i := by
  have htoCount : toCount (.int i) = .ok i := by
    rw [toCount]
    simp only [toInteger, bind, Except.bind, if_neg (Int.not_lt.2 h)]
  rw [count, htoCount]
  rfl

theorem share_bounds {v : Json} {x : Float} (h : share v = .ok x) : Settings.IsShare x := by
  refine toShare_bounds (v := v) ?_
  cases hv : toShare v with
  | error p =>
    rw [share, hv] at h
    cases h
  | ok y =>
    rw [share, hv] at h
    exact congrArg Except.ok (Except.ok.inj h)

theorem count_bound {v : Json} {i : Int} (h : count v = .ok i) : 1 ≤ i := by
  refine toCount_bound (v := v) ?_
  cases hv : toCount v with
  | error p =>
    rw [count, hv] at h
    cases h
  | ok j =>
    rw [count, hv] at h
    exact congrArg Except.ok (Except.ok.inj h)

/-- Settings are read from the fields that are written for them. -/
theorem checkedSettings_fields (h : s.IsProper) : checkedSettings s.fields = .ok s := by
  simp only [checkedSettings_eq_ok_iff, optional_eq_ok_iff]
  exact ⟨.inl ⟨_, rfl, share_double h.minCoupling⟩, .inl ⟨_, rfl, count_int h.maxModules⟩,
    .inl ⟨_, rfl, share_double h.threshold⟩⟩

theorem of_optional {α : Type} {P : α → Prop} {key : String} {default x : α} {read : Json → Checked α}
    (h : optional fields key default read = .ok x) (hread : ∀ v x, read v = .ok x → P x) (hd : P default) : P x := by
  obtain ⟨v, -, hv⟩ | ⟨-, rfl⟩ := optional_eq_ok_iff.1 h
  · exact hread v x hv
  · exact hd

theorem isProper_of_checkedSettings (h : checkedSettings fields = .ok s) : s.IsProper := by
  obtain ⟨hmin, hmax, hthreshold⟩ := checkedSettings_eq_ok_iff.1 h
  exact ⟨of_optional hmin (fun _ _ => share_bounds) Settings.isProper_default.minCoupling,
    of_optional hmax (fun _ _ => count_bound) Settings.isProper_default.maxModules,
    of_optional hthreshold (fun _ _ => share_bounds) Settings.isProper_default.threshold⟩

/-! ### Stored settings -/

variable {t : FileTree} {repo : String}

theorem storedSettings_of_readSettings (h : t.readSettings repo = .ok (RawSettings.ofFields fields)) :
    storedSettings t repo = .ok (checkedSettings fields) := by
  have hkeys : ∀ fields : List (String × Json),
      (RawSettings.ofFields fields).mapM (fun e => e.1.text?.map fun k => (k, e.2)) = some fields := fun fields => by
    rw [RawSettings.ofFields, List.mapM_map]
    induction fields with
    | nil => rfl
    | cons f fields ih =>
      rw [List.mapM_cons, ih]
      rfl
  rw [storedSettings, h]
  simp only [Except.mapError, bind, Except.bind, hkeys]

/-- Where nothing is stored, the defaults count. -/
theorem storedSettings_of_missing (h : t.pathExists (settingsPath repo) = .ok false) :
    storedSettings t repo = .ok (.ok Settings.default) := by
  have hread : t.readSettings repo = .ok (RawSettings.ofFields (Settings.default : Settings Float).fields) := by
    rw [FileTree.readSettings, h]
    rfl
  rw [storedSettings_of_readSettings hread, checkedSettings_fields Settings.isProper_default]

theorem isProper_of_storedSettings (h : storedSettings t repo = .ok (.ok s)) : s.IsProper := by
  rw [storedSettings] at h
  cases hraw : t.readSettings repo with
  | error e =>
    rw [hraw] at h
    cases h
  | ok raw =>
    rw [hraw] at h
    simp only [Except.mapError, bind, Except.bind] at h
    split at h
    · cases h
    · exact isProper_of_checkedSettings (Except.ok.inj h)

/-! ### Settings from queries -/

/-- What holds of all that is read and of what stands for a missing parameter holds of the value. -/
theorem of_parameter {α : Type} {P : α → Prop} {fs : List (String × String)} {name : String} {read : Json → Checked α}
    {o : Option α} {d : α} (h : parameter fs name read = .ok o) (hread : ∀ v x, read v = .ok x → P x) (hd : P d) :
    P (o.getD d) := by
  unfold parameter at h
  split at h
  · cases h
    exact hd
  · next text _ =>
    cases hx : read (.text text) with
    | error cs =>
      rw [hx] at h
      cases h
    | ok x =>
      rw [hx] at h
      cases h
      exact hread _ x hx

theorem isProper_override {fs : List (String × String)} {o : Overrides} (hs : s.IsProper) (ho : checkedOverrides fs = .ok o) :
    (s.override o).IsProper := by
  rw [checkedOverrides] at ho
  cases hall : both (parameter fs "min_coupling" share) (both (parameter fs "max_modules" count)
      (parameter fs "threshold" share)) with
  | error cs =>
    rw [hall] at ho
    cases ho
  | ok r =>
    rw [hall] at ho
    cases ho
    rw [both_eq_ok_iff, both_eq_ok_iff] at hall
    obtain ⟨hmin, hmax, hthreshold⟩ := hall
    exact ⟨of_parameter hmin (fun _ _ => share_bounds) hs.minCoupling, of_parameter hmax (fun _ _ => count_bound) hs.maxModules,
      of_parameter hthreshold (fun _ _ => share_bounds) hs.threshold⟩

end Settings

end CouplingTree
