import CouplingTree.Proofs.Settings.Store

/-!
# Settings as registers

The store of settings is one register for each repository: a read gives the last settings that were written, over the
defaults, and what was there before, as long as nothing was written. One call is settled first, and a run of calls by
induction on them.

* `FileTree.lastWritten?` : the last settings that were written in a run of calls.
* `FileTree.readSettings_after` : they are what is read after it.
* `FileTree.stores_after_iff` : the settings of a repository can be written after a run when they can before it.
* `FileTree.settings_registers` : the store as a whole.
-/

namespace CouplingTree

/-- A call of the store of settings. -/
inductive SettingsCall
  | write (repo : String) (fields : List (String × Json))
  | read (repo : String)

/-- The repository is one name, and what is written can be read again. -/
def SettingsCall.IsProper : SettingsCall → Prop
  | write repo fields => '/' ∉ repo.toList ∧ (Json.object fields).Fits fileDepth
  | read repo => '/' ∉ repo.toList

namespace FileTree

variable {t : FileTree} {repo : String}

/-- The tree after a call. A write that fails changes nothing, and a read never does. -/
def afterCall (t : FileTree) : SettingsCall → FileTree
  | .write repo fields => (t.writeSettings repo (.object fields)).toOption.getD t
  | .read _ => t

def after (t : FileTree) (calls : List SettingsCall) : FileTree := calls.foldl afterCall t

/-- The settings of a repository that a call writes, if it does not fail. -/
def written? (t : FileTree) (repo : String) : SettingsCall → Option (List (String × Json))
  | .write repo' fields => if repo' = repo ∧ (t.writeSettings repo' (.object fields)).isOk then some fields else none
  | .read _ => none

/-- The settings of a repository that the last of the calls wrote that did not fail. -/
def lastWritten? (t : FileTree) (repo : String) : List SettingsCall → Option (List (String × Json))
  | [] => none
  | call :: calls => (lastWritten? (t.afterCall call) repo calls).or (t.written? repo call)

/-! ## One call -/

theorem afterCall_write_cases (t : FileTree) (repo : String) (fields : List (String × Json)) :
    (∃ t', t.writeSettings repo (.object fields) = .ok t' ∧ t.afterCall (.write repo fields) = t') ∨
      (∃ e, t.writeSettings repo (.object fields) = .error e) ∧ t.afterCall (.write repo fields) = t := by
  rw [afterCall]
  cases h : t.writeSettings repo (.object fields) with
  | ok t' => exact Or.inl ⟨t', rfl, rfl⟩
  | error e => exact Or.inr ⟨⟨e, rfl⟩, rfl⟩

theorem readSettings_afterCall {call : SettingsCall} (hcall : call.IsProper) (hrepo : '/' ∉ repo.toList) :
    (t.afterCall call).readSettings repo = match t.written? repo call with
      | some fields => .ok (RawSettings.ofFields (overridden Settings.default.fields fields))
      | none => t.readSettings repo := by
  cases call with
  | read _ => rfl
  | write repo' fields =>
    rcases afterCall_write_cases t repo' fields with ⟨t', h, hafter⟩ | ⟨⟨e, h⟩, hafter⟩
    · by_cases hsame : repo' = repo
      · subst hsame
        rw [hafter, written?, if_pos ⟨rfl, by rw [h]; rfl⟩]
        exact readSettings_of_write hcall.1 hcall.2 h
      · rw [hafter, written?, if_neg fun hif => hsame hif.1]
        exact readSettings_of_write_other hcall.1 h hrepo (Ne.symm hsame)
    · rw [hafter, written?, h, if_neg fun hif => Bool.false_ne_true hif.2]

theorem stores_afterCall_iff {call : SettingsCall} (hcall : call.IsProper) : (t.afterCall call).Stores repo ↔ t.Stores repo := by
  cases call with
  | read _ => rfl
  | write repo' fields =>
    rcases afterCall_write_cases t repo' fields with ⟨t', h, hafter⟩ | ⟨-, hafter⟩
    · rw [hafter, stores_iff_of_write hcall.1 h]
    · rw [hafter]

/-! ## All calls -/

theorem readSettings_after : ∀ {calls : List SettingsCall} {t : FileTree}, (∀ call ∈ calls, call.IsProper) →
    '/' ∉ repo.toList → (t.after calls).readSettings repo = match t.lastWritten? repo calls with
      | some fields => .ok (RawSettings.ofFields (overridden Settings.default.fields fields))
      | none => t.readSettings repo
  | [], _, _, _ => rfl
  | call :: calls, t, hcalls, hrepo => by
    obtain ⟨hcall, hcalls⟩ := List.forall_mem_cons.1 hcalls
    have hrest : t.after (call :: calls) = (t.afterCall call).after calls := rfl
    rw [hrest, readSettings_after hcalls hrepo, lastWritten?]
    -- the first call counts only if no later one writes for this repository
    cases (t.afterCall call).lastWritten? repo calls with
    | some fields => rfl
    | none => exact readSettings_afterCall hcall hrepo

theorem stores_after_iff : ∀ {calls : List SettingsCall} {t : FileTree}, (∀ call ∈ calls, call.IsProper) →
    ((t.after calls).Stores repo ↔ t.Stores repo)
  | [], _, _ => Iff.rfl
  | call :: calls, t, hcalls => by
    obtain ⟨hcall, hcalls⟩ := List.forall_mem_cons.1 hcalls
    have hrest : t.after (call :: calls) = (t.afterCall call).after calls := rfl
    rw [hrest, stores_after_iff hcalls, stores_afterCall_iff hcall]

/-- **The store of settings is one register for each repository.** After any calls, a read gives the settings of the last
write that did not fail, over the defaults, and without such a write what it gave at first. A write fails just when it would
have failed at first: when its file cannot have the name, is a directory, or has no directory to be in. It leaves all other
files as they are, among them the settings of the other repositories and all databases. -/
theorem settings_registers {calls : List SettingsCall} (t : FileTree) (hcalls : ∀ call ∈ calls, call.IsProper)
    (hrepo : '/' ∉ repo.toList) :
    ((t.after calls).readSettings repo = match t.lastWritten? repo calls with
      | some fields => .ok (RawSettings.ofFields (overridden Settings.default.fields fields))
      | none => t.readSettings repo) ∧
    (∀ v, (∃ t', (t.after calls).writeSettings repo v = .ok t') ↔ t.Stores repo) ∧
    ∀ v t', (t.after calls).writeSettings repo v = .ok t' →
      (∀ loc, loc ≠ (t.after calls).settingsLocation repo → t'.entryAt? loc = (t.after calls).entryAt? loc) ∧
      ∀ other : String, '/' ∉ other.toList →
        (other ≠ repo → t'.find (settingsPath other) = (t.after calls).find (settingsPath other)) ∧
        t'.find (databasePath other) = (t.after calls).find (databasePath other) := by
  refine ⟨readSettings_after hcalls hrepo, fun v => ?_,
    fun v t' h => ⟨fun loc => entryAt?_of_write hrepo h, fun other hother => ?_⟩⟩
  · rw [writeSettings_eq_ok_iff hrepo, stores_after_iff hcalls]
  · rw [settingsPath_eq hother, databasePath_eq hother]
    exact ⟨fun hne => find_of_write hrepo h (settingsName_ne_up other) fun hname => hne (settingsName_injective hname),
      find_of_write hrepo h (databaseName_ne_up other) (databaseName_ne_settingsName other repo)⟩

/-- A tree with an empty data directory. -/
def withData : FileTree := ⟨[], .ofList [(["data"], .directory)]⟩

/-- What is written for another repository does not matter. -/
theorem two_repositories_registered :
    let calls : List SettingsCall := [.write "a" [("threshold", .int 1), ("note", .null)], .write "b" [], .read "a"]
    (∀ call ∈ calls, call.IsProper) ∧ '/' ∉ "a".toList ∧
      (withData.after calls).readSettings "a" = .ok (RawSettings.ofFields
        [("min_coupling", .double 0), ("max_modules", .int 5), ("threshold", .int 1), ("note", .null)]) := by
  intro calls
  have hproper : ∀ call ∈ calls, call.IsProper := by
    have hdigits : (Nat.toDigits 10 1).length ≤ 4300 := by decide
    simp [calls, SettingsCall.IsProper, Json.Fits, Json.FieldsFit, fileDepth, Numeral.digitLimit, hdigits]
  have hlast : withData.lastWritten? "a" calls = some [("threshold", .int 1), ("note", .null)] := rfl
  have hread := (settings_registers withData hproper (by decide : '/' ∉ "a".toList)).1
  rw [hlast] at hread
  exact ⟨hproper, by decide, hread⟩

/-- A name with a null character cannot be that of a file, so that the settings of this repository are never there. -/
theorem null_repository_not_registered :
    let call : SettingsCall := .write "a\x00b" [("note", .null)]
    call.IsProper ∧ (withData.after [call]).readSettings "a\x00b" = .ok RawSettings.defaults ∧
      (withData.after [call]).readSettings "a\x00b" ≠
        .ok (RawSettings.ofFields (overridden Settings.default.fields [("note", .null)])) := by
  intro call
  have hread : (withData.after [call]).readSettings "a\x00b" = .ok RawSettings.defaults := rfl
  refine ⟨?_, hread, fun h => ?_⟩
  · simp [call, SettingsCall.IsProper, Json.Fits, Json.FieldsFit, fileDepth]
  · have hsettings := Except.ok.inj (hread.symm.trans h)
    exact absurd (congrArg List.length hsettings) (by decide)

end FileTree

end CouplingTree
