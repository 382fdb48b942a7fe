import CouplingTree.Proofs.Files.Tree
import CouplingTree.Proofs.Json.Files
import CouplingTree.Proofs.Settings.Merging
import CouplingTree.Service.Repositories

/-!
# The store of settings

The settings of each repository are in a file of their own in the data directory. What is written to one is read from it
until it is written again, and all other files stay as they are.

* `FileTree.locate_dataPath_eq_ok_iff` : where a name in the data directory leads.
* `FileTree.Stores` : when the settings of a repository can be written.
* `FileTree.writeSettings_eq_ok_iff` : then they are, and else nothing is.
* `FileTree.readSettings_of_write` : what was written is read, over the defaults.
* `FileTree.readSettings_of_write_other` : the settings of other repositories are read as before.
* `FileTree.stores_iff_of_write` : whether settings can be written stays the same.
-/

namespace CouplingTree

variable {repo other : String}

/-! ## Files in the data directory -/

/-- The path of a file in the data directory. -/
def dataPath (name : String) : Path := ⟨"", ["data", name]⟩

theorem dataDirectory_eq : dataDirectory = ⟨"", ["data"]⟩ := by decide

/-- A name with a suffix is the name of a file. -/
theorem join_dataDirectory {suffix : String} (hrepo : '/' ∉ repo.toList) (hslash : '/' ∉ suffix.toList)
    (hlength : 3 ≤ suffix.toList.length) : dataDirectory.join (.ofText (repo ++ suffix)) = dataPath (repo ++ suffix) := by
  have hlong : 3 ≤ (repo ++ suffix).toList.length := by
    rw [String.toList_append, List.length_append]
    omega
  have hname : Path.ofText (repo ++ suffix) = ⟨"", [repo ++ suffix]⟩ := by
    refine Path.ofText_name ?_ (fun hempty => ?_) fun hdot => ?_
    · rw [String.toList_append, List.mem_append, not_or]
      exact ⟨hrepo, hslash⟩
    · rw [hempty] at hlong
      exact absurd hlong (by decide)
    · rw [hdot] at hlong
      exact absurd hlong (by decide)
  rw [hname, dataDirectory_eq]
  rfl

theorem text_dataPath (name : String) : (dataPath name).text = "data/" ++ name :=
  String.toList_inj.1 (by simp [dataPath, Path.text])

/-- The name of the file with the settings of a repository. -/
def settingsName (repo : String) : String := repo ++ ".decomposition.json"

/-- The name of the database of a repository. -/
def databaseName (repo : String) : String := repo ++ ".db"

theorem settingsPath_eq (h : '/' ∉ repo.toList) : settingsPath repo = dataPath (settingsName repo) :=
  join_dataDirectory h (by decide) (by decide)

theorem databasePath_eq (h : '/' ∉ repo.toList) : databasePath repo = dataPath (databaseName repo) :=
  join_dataDirectory h (by decide) (by decide)

theorem settingsName_injective (h : settingsName repo = settingsName other) : repo = other := by
  have hlist : repo.toList ++ ".decomposition.json".toList = other.toList ++ ".decomposition.json".toList := by
    rw [← String.toList_append, ← String.toList_append]
    exact congrArg String.toList h
  exact String.toList_inj.1 (List.append_cancel_right hlist)

theorem getLast?_append_toList {s t : String} {c : Char} (h : t.toList.getLast? = some c) :
    (s ++ t).toList.getLast? = some c := by
  rw [String.toList_append, List.getLast?_append, h]
  rfl

theorem getLast?_settingsName (repo : String) : (settingsName repo).toList.getLast? = some 'n' :=
  getLast?_append_toList (by decide)

theorem settingsName_ne_up (repo : String) : settingsName repo ≠ ".." := fun h => by
  have hlast := getLast?_settingsName repo
  rw [h] at hlast
  exact absurd hlast (by decide)

theorem getLast?_databaseName (repo : String) : (databaseName repo).toList.getLast? = some 'b' :=
  getLast?_append_toList (by decide)

theorem databaseName_ne_up (repo : String) : databaseName repo ≠ ".." := fun h => by
  have hlast := getLast?_databaseName repo
  rw [h] at hlast
  exact absurd hlast (by decide)

theorem databaseName_ne_settingsName (repo other : String) : databaseName repo ≠ settingsName other := fun h => by
  have hlast := getLast?_databaseName repo
  rw [h, getLast?_settingsName] at hlast
  exact absurd hlast (by decide)

namespace FileTree

variable {t t' : FileTree} {name : String} {v : Json}

/-- The location of the data directory. -/
def dataLocation (t : FileTree) : Location := t.working ++ ["data"]

theorem descend_data (t : FileTree) (hup : name ≠ "..") : t.descend t.working ["data", name] =
    match t.entryAt? t.dataLocation with
    | some .directory => if maxNameBytes < name.utf8ByteSize then .error .nameTooLong else .ok (t.working ++ ["data", name])
    | some (.file _) => .error .notADirectory
    | none => .error .missing := by
  rw [descend_name t.entryAt?_working (by decide) (by decide), descend, dataLocation]
  cases t.entryAt? (t.working ++ ["data"]) with
  | none => rfl
  | some e =>
    cases e with
    | file _ => rfl
    | directory => simp only [if_neg hup, descend, List.append_assoc, List.singleton_append]

theorem locate_dataPath (t : FileTree) (name : String) : t.locate (dataPath name) =
    if '\x00' ∈ name.toList then .error .nullCharacter
    else if pathBytesBound ≤ 5 + name.utf8ByteSize then .error .nameTooLong
    else t.descend t.working ["data", name] := by
  have hnull : '\x00' ∈ (dataPath name).text.toList ↔ '\x00' ∈ name.toList := by
    rw [text_dataPath]
    simp
  have hsize : (dataPath name).text.utf8ByteSize = 5 + name.utf8ByteSize := by
    rw [text_dataPath, String.utf8ByteSize_append]
    rfl
  rw [locate, hsize, if_congr hnull rfl rfl]
  rfl

/-- A name leads to a file in the data directory, if it can be the name of one and the directory is there. -/
theorem locate_dataPath_eq_ok_iff (hup : name ≠ "..") {loc : Location} : t.locate (dataPath name) = .ok loc ↔
    '\x00' ∉ name.toList ∧ name.utf8ByteSize ≤ maxNameBytes ∧ t.entryAt? t.dataLocation = some .directory ∧
      loc = t.working ++ ["data", name] := by
  rw [locate_dataPath, descend_data t hup]
  constructor
  · intro h
    split at h
    · cases h
    next hnull =>
    split at h
    · cases h
    split at h
    · next hdirectory =>
      split at h
      · cases h
      · next hshort => exact ⟨hnull, Nat.not_lt.1 hshort, hdirectory, (Except.ok.inj h).symm⟩
    · cases h
    · cases h
  · rintro ⟨hnull, hshort, hdirectory, rfl⟩
    have hbound : ¬pathBytesBound ≤ 5 + name.utf8ByteSize := by
      unfold pathBytesBound maxNameBytes at *
      omega
    rw [if_neg hnull, if_neg hbound, hdirectory]
    exact if_neg (Nat.not_lt.2 hshort)

/-- A file in the data directory is found where it was, if nothing is changed there. -/
theorem find_dataPath_congr (hup : name ≠ "..") (hworking : t'.working = t.working)
    (hdata : t'.entryAt? t.dataLocation = t.entryAt? t.dataLocation)
    (hfile : t'.entryAt? (t.working ++ ["data", name]) = t.entryAt? (t.working ++ ["data", name])) :
    t'.find (dataPath name) = t.find (dataPath name) := by
  have hlocate : t'.locate (dataPath name) = t.locate (dataPath name) := by
    have hlocation : t'.dataLocation = t.dataLocation := by rw [dataLocation, dataLocation, hworking]
    rw [locate_dataPath, locate_dataPath, descend_data t' hup, descend_data t hup, hlocation, hdata, hworking]
  rw [find, find, hlocate]
  cases hloc : t.locate (dataPath name) with
  | error _ => rfl
  | ok loc =>
    obtain ⟨-, -, -, rfl⟩ := (locate_dataPath_eq_ok_iff hup).1 hloc
    simp only [bind, Except.bind, hfile]

/-! ## Where settings can be written -/

def settingsLocation (t : FileTree) (repo : String) : Location := t.working ++ ["data", settingsName repo]

/-- The settings of a repository can be written: their file can have its name, and is no directory, but in one. -/
structure Stores (t : FileTree) (repo : String) : Prop where
  noNull : '\x00' ∉ repo.toList
  short : (settingsName repo).utf8ByteSize ≤ maxNameBytes
  inDirectory : t.entryAt? t.dataLocation = some .directory
  noDirectory : t.entryAt? (t.settingsLocation repo) ≠ some .directory

theorem null_mem_settingsName (repo : String) : '\x00' ∈ (settingsName repo).toList ↔ '\x00' ∈ repo.toList := by
  rw [settingsName]
  simp

theorem locate_settingsPath_eq_ok_iff (hslash : '/' ∉ repo.toList) {loc : Location} :
    t.locate (settingsPath repo) = .ok loc ↔ '\x00' ∉ repo.toList ∧ (settingsName repo).utf8ByteSize ≤ maxNameBytes ∧
      t.entryAt? t.dataLocation = some .directory ∧ loc = t.settingsLocation repo := by
  rw [settingsPath_eq hslash, locate_dataPath_eq_ok_iff (settingsName_ne_up repo), null_mem_settingsName]
  rfl

theorem locate_of_stores (hslash : '/' ∉ repo.toList) (h : t.Stores repo) :
    t.locate (settingsPath repo) = .ok (t.settingsLocation repo) :=
  (locate_settingsPath_eq_ok_iff hslash).2 ⟨h.noNull, h.short, h.inDirectory, rfl⟩

/-! ## One write -/

theorem dropLast_settingsLocation (t : FileTree) (repo : String) : (t.settingsLocation repo).dropLast = t.dataLocation := by
  rw [settingsLocation, dataLocation, List.dropLast_append_of_ne_nil (List.cons_ne_nil _ _)]
  rfl

theorem writeSettings_of_stores (hslash : '/' ∉ repo.toList) (h : t.Stores repo) (v : Json) : t.writeSettings repo v =
    .ok (t.put (t.settingsLocation repo) (.file (.bytes (Utf8.encode v.indented)))) :=
  write_eq_ok_iff.2 ⟨_, locate_of_stores hslash h, h.noDirectory, by rw [dropLast_settingsLocation, h.inDirectory], rfl⟩

theorem stores_of_writeSettings (hslash : '/' ∉ repo.toList) (h : t.writeSettings repo v = .ok t') : t.Stores repo := by
  obtain ⟨loc, hloc, hfile, -, -⟩ := write_eq_ok_iff.1 h
  obtain ⟨hnull, hshort, hdirectory, rfl⟩ := (locate_settingsPath_eq_ok_iff hslash).1 hloc
  exact ⟨hnull, hshort, hdirectory, hfile⟩

/-- Settings are written just when they can be. -/
theorem writeSettings_eq_ok_iff (hslash : '/' ∉ repo.toList) (v : Json) :
    (∃ t', t.writeSettings repo v = .ok t') ↔ t.Stores repo :=
  ⟨fun ⟨_, h⟩ => stores_of_writeSettings hslash h, fun h => ⟨_, writeSettings_of_stores hslash h v⟩⟩

/-! ## What a write leaves as it is -/

section Frame

variable (hslash : '/' ∉ repo.toList) (h : t.writeSettings repo v = .ok t')
include hslash h

theorem eq_put_of_write : t' = t.put (t.settingsLocation repo) (.file (.bytes (Utf8.encode v.indented))) :=
  Except.ok.inj (h.symm.trans (writeSettings_of_stores hslash (stores_of_writeSettings hslash h) v))

theorem working_of_write : t'.working = t.working := by
  rw [eq_put_of_write hslash h]
  rfl

/-- A write leaves everything as it is but the file with the settings. -/
theorem entryAt?_of_write {loc : Location} (hloc : loc ≠ t.settingsLocation repo) : t'.entryAt? loc = t.entryAt? loc := by
  rw [eq_put_of_write hslash h, entryAt?_put_of_ne hloc]

theorem entryAt?_settings_of_write :
    t'.entryAt? (t.settingsLocation repo) = some (.file (.bytes (Utf8.encode v.indented))) := by
  have hbelow : (t.settingsLocation repo).isPrefixOf t.working = false :=
    t.isPrefixOf_working_append (List.cons_ne_nil _ _)
  rw [eq_put_of_write hslash h, entryAt?_put_self hbelow]

theorem entryAt?_data_of_write : t'.entryAt? t.dataLocation = t.entryAt? t.dataLocation := by
  refine entryAt?_of_write hslash h fun hloc => ?_
  have hlength := congrArg List.length (List.append_cancel_left hloc)
  exact absurd hlength (by simp)

/-- Any other file in the data directory is found as before. -/
theorem find_of_write (hup : name ≠ "..") (hname : name ≠ settingsName repo) :
    t'.find (dataPath name) = t.find (dataPath name) := by
  refine find_dataPath_congr hup (working_of_write hslash h) (entryAt?_data_of_write hslash h) ?_
  refine entryAt?_of_write hslash h fun hloc => hname ?_
  have hnames := List.append_cancel_left hloc
  simpa using hnames

theorem stores_iff_of_write : t'.Stores other ↔ t.Stores other := by
  have hworking := working_of_write hslash h
  have hlocation : t'.settingsLocation other = t.settingsLocation other := by rw [settingsLocation, settingsLocation, hworking]
  have hdata : t'.entryAt? t'.dataLocation = t.entryAt? t.dataLocation := by
    rw [dataLocation, hworking]
    exact entryAt?_data_of_write hslash h
  have hdirectory : t'.entryAt? (t.settingsLocation other) = some .directory ↔
      t.entryAt? (t.settingsLocation other) = some .directory := by
    by_cases hsame : t.settingsLocation other = t.settingsLocation repo
    · rw [hsame, entryAt?_settings_of_write hslash h]
      exact iff_of_false (by simp) (stores_of_writeSettings hslash h).noDirectory
    · rw [entryAt?_of_write hslash h hsame]
  constructor
  · rintro ⟨hnull, hshort, hin, hno⟩
    exact ⟨hnull, hshort, hdata ▸ hin, fun he => hno (hlocation ▸ hdirectory.2 he)⟩
  · rintro ⟨hnull, hshort, hin, hno⟩
    exact ⟨hnull, hshort, hdata ▸ hin, fun he => hno (hdirectory.1 (hlocation ▸ he))⟩

/-! ## Reading -/

theorem readSettings_of_write_other (hother : '/' ∉ other.toList) (hne : other ≠ repo) :
    t'.readSettings other = t.readSettings other := by
  have hfind : t'.find (settingsPath other) = t.find (settingsPath other) := by
    rw [settingsPath_eq hother]
    exact find_of_write hslash h (settingsName_ne_up other) fun hname => hne (settingsName_injective hname)
  simp only [readSettings, pathExists, readJson, readText, read, hfind]

end Frame

/-- What was written is read, over the defaults. -/
theorem readSettings_of_write {fields : List (String × Json)} (hslash : '/' ∉ repo.toList)
    (hfields : (Json.object fields).Fits fileDepth) (h : t.writeSettings repo (.object fields) = .ok t') :
    t'.readSettings repo = .ok (RawSettings.ofFields (overridden Settings.default.fields fields)) := by
  have hstores : t'.Stores repo := (stores_iff_of_write hslash h).2 (stores_of_writeSettings hslash h)
  have hlocation : t'.settingsLocation repo = t.settingsLocation repo := by
    rw [settingsLocation, working_of_write hslash h]
    rfl
  have hfind : t'.find (settingsPath repo) = .ok (.file (.bytes (Utf8.encode (Json.object fields).indented))) := by
    rw [find, locate_of_stores hslash hstores, hlocation]
    simp only [bind, Except.bind, entryAt?_settings_of_write hslash h]
  have hread : t'.readJson (settingsPath repo) = .ok (.object fields) := by
    refine readJson_of_read hfields ?_
    rw [read, hfind]
  have hexists : t'.pathExists (settingsPath repo) = .ok true := by rw [pathExists, hfind]
  simp only [readSettings, hexists, hread, Except.mapError, bind, Except.bind, if_true, RawSettings.merge_object hfields.2.1]

end FileTree

end CouplingTree
