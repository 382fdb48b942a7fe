import CouplingTree.Proofs.Counts
import CouplingTree.Proofs.Exports
import CouplingTree.Proofs.Settings.Store
import CouplingTree.Proofs.Surfaces

/-!
# Repositories that are listed

The listing of repositories and the request for one of them find the same files: what is listed under the name of a file
without its ending is what that name leads to. They do not ask the same of it, for the listing counts rows and never looks at
the names of methods or at the table of classes.

* `FileTree.IsProper` : the entries of a tree are as they can be in a file system.
* `FileTree.pathExists_dataPath_iff` : the files in the data directory are those whose names are found in it.
* `mem_repositories_iff`, `nodup_repositoryPaths` : which repositories are listed, and that no file is listed twice.
* `listed_repositories` : which of them can be decomposed, and what else is listed.
* `Repository.Counts`, `listed_counts` : what the counts of a repository tell about its call graph.
-/

namespace CouplingTree

variable {t : FileTree} {d : Database} {id name : String}

/-! ## Names of databases -/

theorem toList_databaseName (id : String) : (databaseName id).toList = id.toList ++ ['.', 'd', 'b'] := by
  rw [databaseName, String.toList_append]
  rfl

theorem isSuffixOf_iff_databaseName : ".db".toList.isSuffixOf name.toList = true ↔ ∃ id, name = databaseName id := by
  rw [List.isSuffixOf_iff_suffix]
  constructor
  · rintro ⟨cs, hcs⟩
    refine ⟨String.ofList cs, String.toList_inj.1 ?_⟩
    rw [toList_databaseName, String.toList_ofList, ← hcs]
    rfl
  · rintro ⟨id, rfl⟩
    rw [toList_databaseName]
    exact List.suffix_append _ _

/-- The name of a database without its ending is what it is made of, unless that is nothing. -/
theorem stem_databaseName (h : id ≠ "") : (dataPath (databaseName id)).stem = id := by
  have hne : id.toList ≠ [] := fun hempty => h (String.toList_inj.1 hempty)
  have hsplit : Path.splitName (dataPath (databaseName id)).name = (id.toList, ['.', 'd', 'b']) :=
    Path.splitName_eq (toList_databaseName id) hne (by decide) (by decide)
  rw [Path.stem, hsplit, String.ofList_toList]

theorem stem_ending : (dataPath (databaseName "")).stem = ".db" := by decide

/-! ## Files in the data directory -/

/-- A name that a file or a directory can have. -/
def IsFileName (name : String) : Prop :=
  name ≠ "" ∧ name ≠ "." ∧ name ≠ ".." ∧ '/' ∉ name.toList ∧ '\x00' ∉ name.toList ∧
    name.utf8ByteSize ≤ FileTree.maxNameBytes

instance IsFileName.instDecidable (name : String) : Decidable (IsFileName name) := inferInstanceAs (Decidable (_ ∧ _))

namespace FileTree

/-- All entries have names that they can have, and are in directories. -/
structure IsProper (t : FileTree) : Prop where
  names : ∀ loc ∈ t.entries.keys, ∀ name ∈ loc, IsFileName name
  parents : ∀ loc ∈ t.entries.keys, t.entryAt? loc.dropLast = some .directory

theorem locate_dataDirectory (t : FileTree) : t.locate dataDirectory = .ok t.dataLocation := by
  have hdescend : t.descend t.working ["data"] = .ok t.dataLocation :=
    descend_name t.entryAt?_working (by decide) (by decide) []
  rw [dataDirectory_eq, locate, if_neg (by decide), if_neg (by decide)]
  exact hdescend

theorem mem_namesIn_dataDirectory : name ∈ t.namesIn dataDirectory ↔ t.working ++ ["data", name] ∈ t.entries.keys := by
  have happend : t.working ++ ["data", name] = t.dataLocation ++ [name] := by
    rw [dataLocation, List.append_assoc]
    rfl
  rw [namesIn, locate_dataDirectory, happend]
  simp only [List.mem_filterMap]
  constructor
  · rintro ⟨loc, hloc, hlast⟩
    split at hlast
    · next hparent =>
      rwa [← hparent.2, List.dropLast_append_getLast? name hlast]
    · cases hlast
  · intro hloc
    refine ⟨_, hloc, ?_⟩
    rw [if_pos ⟨by simp, List.dropLast_concat⟩, List.getLast?_concat]

/-- The files in the data directory are those whose names are found in it. -/
theorem pathExists_dataPath_iff (h : t.IsProper) (hup : name ≠ "..") :
    t.pathExists (dataPath name) = .ok true ↔ name ∈ t.namesIn dataDirectory := by
  have hentry : t.entryAt? (t.working ++ ["data", name]) = t.entries.find? (t.working ++ ["data", name]) :=
    if_neg (by rw [t.isPrefixOf_working_append (List.cons_ne_nil _ _)]; exact Bool.false_ne_true)
  rw [mem_namesIn_dataDirectory, OrderedMap.mem_keys_iff, ← hentry]
  constructor
  · intro hexists
    obtain ⟨e, he⟩ := find_of_pathExists hexists
    obtain ⟨loc, hloc, hat⟩ := locate_of_find he
    obtain ⟨-, -, -, rfl⟩ := (locate_dataPath_eq_ok_iff hup).1 hloc
    exact ⟨e, hat⟩
  · rintro ⟨e, he⟩
    have hkey := (OrderedMap.mem_keys_iff ..).2 ⟨e, hentry ▸ he⟩
    obtain ⟨-, -, -, -, hnull, hshort⟩ := h.names _ hkey name (by simp)
    have hparent : t.entryAt? t.dataLocation = some .directory := by
      have hdrop : (t.working ++ ["data", name]).dropLast = t.dataLocation :=
        List.dropLast_append_of_ne_nil (List.cons_ne_nil _ _)
      rw [← hdrop]
      exact h.parents _ hkey
    have hlocate := (locate_dataPath_eq_ok_iff hup).2 ⟨hnull, hshort, hparent, rfl⟩
    rw [pathExists, find, hlocate]
    simp only [bind, Except.bind, he]

/-- The names of the databases in the data directory. -/
def databaseNames (t : FileTree) : NameSet :=
  .ofList ((t.namesIn dataDirectory).filter fun n => ".db".toList.isSuffixOf n.toList)

theorem databasePaths_eq (t : FileTree) : t.databasePaths = t.databaseNames.toList.map dataPath := by
  rw [databasePaths, dataDirectory_eq]
  rfl

theorem mem_databaseNames : name ∈ t.databaseNames ↔ name ∈ t.namesIn dataDirectory ∧ ∃ id, name = databaseName id := by
  rw [databaseNames, NameSet.mem_ofList, List.mem_filter, isSuffixOf_iff_databaseName]

theorem mem_databasePaths {p : Path} : p ∈ t.databasePaths ↔
    ∃ id, databaseName id ∈ t.namesIn dataDirectory ∧ p = dataPath (databaseName id) := by
  rw [databasePaths_eq, List.mem_map]
  constructor
  · rintro ⟨n, hn, rfl⟩
    obtain ⟨hin, id, rfl⟩ := mem_databaseNames.1 hn
    exact ⟨id, hin, rfl⟩
  · rintro ⟨id, hin, rfl⟩
    exact ⟨_, mem_databaseNames.2 ⟨hin, id, rfl⟩, rfl⟩

/-! ## What is listed -/

theorem isPlain_dataPath (name : String) : DatabaseAddress.isPlain (dataPath name) = true := by
  rw [DatabaseAddress.isPlain, text_dataPath, String.toList_append]
  rfl

/-- Opening a database in the data directory changes nothing. -/
theorem openDatabase_dataPath (h : t.IsProper) (hup : name ≠ "..") (hin : name ∈ t.namesIn dataDirectory)
    (hd : (t.openDatabase (dataPath name)).2 = .ok d) : t.openDatabase (dataPath name) = (t, .ok d) :=
  Prod.ext (openDatabase_of_pathExists (isPlain_dataPath name) ((pathExists_dataPath_iff h hup).2 hin)) hd

end FileTree

theorem Database.repository_eq_ok {p : Path} {r : Repository} (h : d.repository p = .ok r) : r.id = p.stem ∧ r.path = p.text := by
  simp only [Database.repository, bind_eq_ok_iff] at h
  obtain ⟨methods, -, calls, -, classes, -, hr⟩ := h
  cases hr
  exact ⟨rfl, rfl⟩

theorem mem_repositories_iff {r : Repository} : r ∈ t.repositories ↔ ∃ id, databaseName id ∈ t.namesIn dataDirectory ∧
    ∃ d, (t.openDatabase (dataPath (databaseName id))).2 = .ok d ∧ d.repository (dataPath (databaseName id)) = .ok r := by
  simp only [FileTree.repositories, List.mem_filterMap, FileTree.mem_databasePaths, toOption_eq_some_iff, bind_eq_ok_iff]
  constructor
  · rintro ⟨_, ⟨id, hin, rfl⟩, hr⟩
    exact ⟨id, hin, hr⟩
  · rintro ⟨id, hin, hr⟩
    exact ⟨_, ⟨id, hin, rfl⟩, hr⟩

/-- No file is listed twice. -/
theorem nodup_repositoryPaths (t : FileTree) : (t.repositories.map Repository.path).Nodup := by
  rw [FileTree.repositories, FileTree.databasePaths_eq, List.filterMap_map, List.map_filterMap]
  refine List.Nodup.filterMap (fun n n' path hn hn' => ?_) (NameSet.nodup _)
  have hpath : ∀ n, ((t.openDatabase (dataPath n)).2 >>= fun d => d.repository (dataPath n)).toOption.map Repository.path =
      some path → path = "data/" ++ n := fun n hn => by
    obtain ⟨r, hr, rfl⟩ := Option.map_eq_some_iff.1 hn
    obtain ⟨d, -, hd⟩ := bind_eq_ok_iff.1 (toOption_eq_some_iff.1 hr)
    rw [(Database.repository_eq_ok hd).2, text_dataPath]
  have htext : "data/" ++ n = "data/" ++ n' := (hpath n hn).symm.trans (hpath n' hn')
  have hlist := congrArg String.toList htext
  rw [String.toList_append, String.toList_append] at hlist
  exact String.toList_inj.1 (List.append_cancel_left hlist)

/-- What is listed is found under its name, unless its file has only the ending for a name. -/
theorem reached_of_mem_repositories (h : t.IsProper) {r : Repository} (hr : r ∈ t.repositories) :
    r.id = ".db" ∧ r.path = "data/.db" ∨ (databasePath r.id).text = r.path ∧
      ∃ d, repositoryDatabase t r.id = .ok (some d) ∧ t.openDatabase (databasePath r.id) = (t, .ok d) ∧
        d.repository (databasePath r.id) = .ok r := by
  obtain ⟨id, hin, d, hd, hrepository⟩ := mem_repositories_iff.1 hr
  obtain ⟨hid, hpath⟩ := Database.repository_eq_ok hrepository
  by_cases hempty : id = ""
  · subst hempty
    exact .inl ⟨hid.trans stem_ending, hpath.trans (text_dataPath _)⟩
  rw [stem_databaseName hempty] at hid
  subst hid
  have hslash : '/' ∉ r.id.toList := by
    obtain ⟨-, -, -, hslash, -⟩ := h.names _ (FileTree.mem_namesIn_dataDirectory.1 hin) (databaseName r.id) (by simp)
    rw [toList_databaseName] at hslash
    exact fun hmem => hslash (List.mem_append_left _ hmem)
  have hexists := (FileTree.pathExists_dataPath_iff h (databaseName_ne_up r.id)).2 hin
  have hopen := FileTree.openDatabase_dataPath h (databaseName_ne_up r.id) hin hd
  rw [← databasePath_eq hslash] at hexists hopen hd hrepository hpath
  exact .inr ⟨hpath.symm, d, repositoryDatabase_eq_some_iff.2 ⟨hexists, hd⟩, hopen, hrepository⟩

/-- What has the facts and a call graph is listed once, under its name. -/
theorem listed_of_callGraph (h : t.IsProper) {g : CallGraph} (hempty : id ≠ "") (hslash : '/' ∉ id.toList)
    (hd : repositoryDatabase t id = .ok (some d)) (hfacts : d.HasFacts) (hg : d.callGraph = .ok g) :
    (t.repositories.map Repository.path).count (databasePath id).text = 1 ∧
      ∃ r ∈ t.repositories, r.path = (databasePath id).text ∧ r.id = id := by
  rw [repositoryDatabase_eq_some_iff, databasePath_eq hslash] at hd
  obtain ⟨hexists, hd⟩ := hd
  have hin := (FileTree.pathExists_dataPath_iff h (databaseName_ne_up id)).1 hexists
  obtain ⟨classes, methods, calls, hrepository⟩ := Database.exists_repository hfacts hg (dataPath (databaseName id))
  have hr := mem_repositories_iff.2 ⟨id, hin, d, hd, hrepository⟩
  have hpath := List.mem_map_of_mem (f := Repository.path) hr
  rw [databasePath_eq hslash]
  exact ⟨List.count_eq_one_of_mem (nodup_repositoryPaths t) hpath, _, hr, rfl, stem_databaseName hempty⟩

/-- **Listed exports are decomposed, and decomposed ones are listed.** A repository is listed under the name that leads to its
file, unless that is the ending alone; if it is an export, it has a call graph just when it is legible. What has the facts and
a call graph is listed, once, and under its name. -/
theorem listed_repositories (h : t.IsProper) :
    (∀ r ∈ t.repositories, r.id = ".db" ∧ r.path = "data/.db" ∨ (databasePath r.id).text = r.path ∧
      ∃ d, repositoryDatabase t r.id = .ok (some d) ∧ t.openDatabase (databasePath r.id) = (t, .ok d) ∧
        d.repository (databasePath r.id) = .ok r ∧ (d.IsExport → ((∃ g, d.callGraph = .ok g) ↔ d.IsLegible))) ∧
    ∀ id d g, id ≠ "" → '/' ∉ id.toList → repositoryDatabase t id = .ok (some d) → d.HasFacts → d.callGraph = .ok g →
      (t.repositories.map Repository.path).count (databasePath id).text = 1 ∧
        ∃ r ∈ t.repositories, r.path = (databasePath id).text ∧ r.id = id := by
  refine ⟨fun r hr => ?_, fun id d g hempty hslash hd hfacts hg => listed_of_callGraph h hempty hslash hd hfacts hg⟩
  refine (reached_of_mem_repositories h hr).imp_right fun ⟨hpath, d, hd, hopen, hrepository⟩ =>
    ⟨hpath, d, hd, hopen, hrepository, fun hexport => ?_⟩
  obtain ⟨hmethods, hcalls⟩ := Database.isWhole_of_repository hexport.toHasFacts hrepository
  rw [Database.exists_callGraph_iff hexport]
  exact ⟨fun hread => hread.2.2, fun hread => ⟨hmethods, hcalls, hread⟩⟩

/-! ## A repository with two classes -/

theorem isProper_shopTree : shopTree.IsProper where
  names := by decide
  parents := by
    have hkeys : shopTree.entries.keys =
        [["facts.json"], ["data"], ["data", "shop.db"], ["data", "shop.decomposition.json"]] := rfl
    rw [hkeys]
    simp only [List.forall_mem_cons, List.not_mem_nil, false_imp_iff, implies_true, and_true]
    exact ⟨rfl, rfl, rfl, rfl⟩

theorem isExport_shopDatabase : shopDatabase.IsExport := by
  obtain ⟨-, ⟨classes, hclasses, -⟩, methods, calls, hfacts⟩ := hasRecords_shopDatabase
  refine ⟨⟨Database.hasColumns_of_lists hfacts.methods_listed, Database.hasColumns_of_lists hfacts.calls_listed, ?_⟩,
    fun _ => Database.hasColumns_of_lists hclasses⟩
  intro name hname
  have hcollation : shopDatabase.classCollation = .binary := rfl
  rw [hcollation] at hname
  cases hname

theorem isLegible_shopDatabase : shopDatabase.IsLegible := by
  obtain ⟨-, ⟨classes, hclasses, -⟩, methods, calls, hfacts⟩ := hasRecords_shopDatabase
  exact ⟨(Database.readable_of_lists hfacts.methods_listed).2, (Database.readable_of_lists hfacts.calls_listed).2,
    fun _ => Database.readable_of_lists hclasses⟩

/-- The repository is listed, and can be decomposed. -/
theorem shop_listed : shopTree.IsProper ∧ shopDatabase.IsExport ∧ shopDatabase.IsLegible ∧
    ∃ r ∈ shopTree.repositories, r.id = "shop" ∧ (databasePath r.id).text = r.path ∧
      repositoryDatabase shopTree r.id = .ok (some shopDatabase) ∧ ∃ g, shopDatabase.callGraph = .ok g := by
  obtain ⟨hlisted, hlists⟩ := listed_repositories isProper_shopTree
  obtain ⟨-, r, hr, -, hid⟩ := hlists "shop" shopDatabase _ (by decide) (by decide) rfl isExport_shopDatabase.toHasFacts
    (Database.callGraph_of_hasRecords hasRecords_shopDatabase)
  refine ⟨isProper_shopTree, isExport_shopDatabase, isLegible_shopDatabase, r, hr, hid, ?_⟩
  obtain ⟨hending, -⟩ | ⟨hpath, d, hd, -, -, hgraph⟩ := hlisted r hr
  · rw [hid] at hending
    exact absurd hending (by decide)
  · have hshop : repositoryDatabase shopTree r.id = .ok (some shopDatabase) := by
      rw [hid]
      rfl
    cases hshop.symm.trans hd
    exact ⟨hpath, hshop, (hgraph isExport_shopDatabase).2 isLegible_shopDatabase⟩

/-- Two classes without the names of methods. -/
def bareTree : FileTree where
  working := []
  entries := .ofList [(["data"], .directory), (["data", "repo.db"], .file (.database {
    tables := [.ofTexts "methods" ["class_name"] [["A"]], .ofTexts "calls" ["caller_class"] [["B"]]] }))]

/-- A database without the names of methods is listed, but has no call graph. -/
theorem nameless_methods_listed : ∃ r ∈ bareTree.repositories, r.id = "repo" ∧ r.path = "data/repo.db" ∧
    ∃ d, repositoryDatabase bareTree r.id = .ok (some d) ∧ d.callGraph = .error (.query (.noSuchColumn "method_name")) :=
  ⟨_, mem_repositories_iff.2 ⟨"repo", by decide, _, rfl, rfl⟩, rfl, rfl, _, rfl, rfl⟩

/-! ## Counts of what is listed -/

/-- What the counts of a repository tell about its call graph. Classes are counted as their names are compared, and methods and
calls by the rows. -/
structure Repository.Counts (r : Repository) (d : Database) (g : CallGraph) : Prop where
  classes_le : r.classCount ≤ g.withFacts.length
  classes_eq_iff : r.classCount = g.withFacts.length ↔ d.TellsClasses d.classCollation
  report_le : ∀ p report, reportOn g p = .ok report → r.classCount ≤ report.classCount
  report_eq_iff : ∀ p report, reportOn g p = .ok report →
    (r.classCount = report.classCount ↔ d.TellsClasses d.classCollation ∧ d.ListsNoOther)
  methods_le : (g.names.map fun c => (g.declared c).size).sum ≤ r.methodCount
  methods_eq_iff : (g.names.map fun c => (g.declared c).size).sum = r.methodCount ↔ Database.Distinct d.methodRows
  calls_le : (g.names.map fun c => (g.called c).size).sum ≤ r.callCount
  calls_eq_iff : (g.names.map fun c => (g.called c).size).sum = r.callCount ↔ Database.Distinct d.callRows

theorem classCount_of_reportOn {g : CallGraph} {p : Parameters Float} {report : Report Float} (h : reportOn g p = .ok report) :
    report.classCount = g.size := by
  rw [reportOn] at h
  split at h
  · next hd =>
    cases h
    exact (tells_of_decompose hd).classCount_eq
  · cases h

namespace Database

variable {g : CallGraph} {p : Path} {r : Repository}

theorem counts_of_repository (h : d.HasTables) (hnamed : d.IsNamed) (hg : d.callGraph = .ok g) (hr : d.repository p = .ok r) :
    r.Counts d g := by
  obtain ⟨cls, name, hnames⟩ := exists_names h hnamed hg
  obtain ⟨hclasses, hmethods, hcalls⟩ := repository_counts h hg hr
  obtain ⟨hle, heq⟩ := distinctCount_classValues hnames d.classCollation
  obtain ⟨hle', heq'⟩ := withFacts_length hnames
  rw [← hclasses] at hle heq
  have hsum := sum_declared hnames
  have hsum' := sum_called hnames
  rw [← hmethods] at hsum
  rw [← hcalls] at hsum'
  refine ⟨hle, heq, fun p report hreport => ?_, fun p report hreport => ?_, hsum.1, hsum.2, hsum'.1, hsum'.2⟩ <;>
    rw [classCount_of_reportOn hreport]
  · exact hle.trans hle'
  · rw [← heq, ← heq']
    omega

end Database

/-- Names of classes that are compared byte by byte are told apart. -/
theorem Repository.Counts.of_binary {r : Repository} {g : CallGraph} (h : r.Counts d g) (hbinary : d.classCollation = .binary) :
    r.classCount = g.withFacts.length ∧
      ∀ p report, reportOn g p = .ok report → (r.classCount = report.classCount ↔ d.ListsNoOther) := by
  have htells : d.TellsClasses d.classCollation := hbinary ▸ d.tellsClasses_binary
  refine ⟨h.classes_eq_iff.2 htells, fun p report hreport => ?_⟩
  rw [h.report_eq_iff p report hreport, and_iff_right htells]

theorem Database.counted_of_repository {g : CallGraph} {p : Path} {r : Repository} (hr : d.repository p = .ok r)
    (h : d.HasTables) (hnamed : d.IsNamed) (hg : d.callGraph = .ok g) : r.Counts d g ∧
      (d.classCollation = .binary → r.classCount = g.withFacts.length ∧
        ∀ p report, reportOn g p = .ok report → (r.classCount = report.classCount ↔ d.ListsNoOther)) :=
  have hcounts := counts_of_repository h hnamed hg hr
  ⟨hcounts, hcounts.of_binary⟩

/-- **Listed counts bound those of the call graph.** A repository is listed with no more classes than have facts in its call
graph, hence with no more than a report on it tells, and with at least as many methods and calls as there are different ones.
The counts are the same when names of classes are told apart as they are compared, when no class is only listed, and when no
row is there twice. -/
theorem listed_counts (h : t.IsProper) {r : Repository} (hr : r ∈ t.repositories) :
    ∃ p d, p.text = r.path ∧ (t.openDatabase p).2 = .ok d ∧
      (r.path ≠ "data/.db" → repositoryDatabase t r.id = .ok (some d)) ∧
      ∀ g, d.HasTables → d.IsNamed → d.callGraph = .ok g → r.Counts d g ∧
        (d.classCollation = .binary → r.classCount = g.withFacts.length ∧
          ∀ p report, reportOn g p = .ok report → (r.classCount = report.classCount ↔ d.ListsNoOther)) := by
  obtain ⟨-, hending⟩ | ⟨hpath, d, hfound, hopen, hrepository⟩ := reached_of_mem_repositories h hr
  · obtain ⟨id, -, d, hd, hrepository⟩ := mem_repositories_iff.1 hr
    exact ⟨_, d, (Database.repository_eq_ok hrepository).2.symm, hd, fun hnot => absurd hending hnot,
      fun g => Database.counted_of_repository hrepository⟩
  · exact ⟨_, d, hpath, by rw [hopen], fun _ => hfound, fun g => Database.counted_of_repository hrepository⟩

theorem hasTables_shopDatabase : shopDatabase.HasTables := ⟨⟨_, rfl⟩, ⟨_, rfl⟩, fun _ => ⟨_, rfl⟩⟩

theorem isNamed_shopDatabase : shopDatabase.IsNamed where
  classes := by
    have hvalues : shopDatabase.listed ++ shopDatabase.classValues =
        ["Shop", "Store", "Store", "Shop"].map fun s => .text (Utf8.encode s) := rfl
    rw [hvalues]
    exact areNamed_of_texts (List.forall_mem_map.2 fun s _ => ⟨_, rfl⟩)
  methods := by
    have hvalues : (shopDatabase.methodRows ++ shopDatabase.callRows).map Prod.snd =
        ["save", "save"].map fun s => .text (Utf8.encode s) := rfl
    rw [hvalues]
    exact areNamed_of_texts (List.forall_mem_map.2 fun s _ => ⟨_, rfl⟩)

/-- The repository is listed with the counts of its call graph. -/
theorem shop_counted : shopTree.IsProper ∧ shopDatabase.HasTables ∧ shopDatabase.IsNamed ∧
    ∃ r ∈ shopTree.repositories, r.path = "data/shop.db" ∧ ∃ g, shopDatabase.callGraph = .ok g ∧ r.Counts shopDatabase g ∧
      r.classCount = g.withFacts.length := by
  have hg := Database.callGraph_of_hasRecords hasRecords_shopDatabase
  have hfound : repositoryDatabase shopTree "shop" = .ok (some shopDatabase) := rfl
  obtain ⟨-, r, hr, hpath, hid⟩ := listed_of_callGraph isProper_shopTree (by decide) (by decide) hfound
    isExport_shopDatabase.toHasFacts hg
  have hpath' : r.path = "data/shop.db" := hpath.trans (by decide)
  refine ⟨isProper_shopTree, hasTables_shopDatabase, isNamed_shopDatabase, r, hr, hpath', _, hg, ?_⟩
  obtain ⟨-, d, -, -, hd, hcounts⟩ := listed_counts isProper_shopTree hr
  have hsame := hd (hpath' ▸ by decide)
  rw [hid] at hsame
  cases hfound.symm.trans hsame
  obtain ⟨hcounts, hbinary⟩ := hcounts _ hasTables_shopDatabase isNamed_shopDatabase hg
  exact ⟨hcounts, (hbinary rfl).1⟩

/-- Two classes whose names differ in case only, which are not told apart as they are compared. -/
def caselessDatabase : Database where
  tables := [⟨"methods", .table {
      columns := [{ name := "class_name", affinity := some .text, collation := .noCase },
        { name := "method_name", affinity := some .text }]
      hasRowIds := true
      rows := ⟨[.ofValues (.integer 1) [.ofString "A", .ofString "x"],
        .ofValues (.integer 2) [.ofString "a", .ofString "y"]], none⟩ }⟩,
    .ofTexts "calls" ["caller_class", "method_name"] []]

/-- The first row of a table, in any order that is asked for. -/
def firstRowQuery : Sql.Query :=
  let item (name : String) (label : Option String) : Sql.Item := .expr (.column none none name .bare) label name
  .mk [] (.mk false [item "class_name" none, item "method_name" none, item "place" (some Table.orderName)]
    [.mk {} (Database.tableSource "facts") none none] none [] none []) [] [] (some (.value (.integer 1))) none

/-- A view of methods in which another class is counted than the one in the call graph. -/
def viewDatabase : Database where
  tables := [.ofTexts "facts" ["class_name", "method_name", "place"] [["B", "x", "2"], ["A", "y", "1"]],
    ⟨"methods", .view ⟨"methods", [], firstRowQuery, 3⟩⟩, .ofTexts "calls" ["caller_class", "method_name"] [["A", "m"]]]

/-- A tree with one repository. -/
def repoTree (d : Database) : FileTree where
  working := []
  entries := .ofList [(["data"], .directory), (["data", "repo.db"], .file (.database d))]

theorem mem_repositories_repoTree {r : Repository} (h : d.repository (dataPath (databaseName "repo")) = .ok r) :
    r ∈ (repoTree d).repositories := by
  have hkeys : (repoTree d).entries.keys = [["data"], ["data", "repo.db"]] := rfl
  refine mem_repositories_iff.2 ⟨"repo", FileTree.mem_namesIn_dataDirectory.2 ?_, d, rfl, h⟩
  rw [hkeys]
  exact List.mem_cons_of_mem _ (List.mem_cons_self ..)

theorem repository_caselessDatabase :
    caselessDatabase.repository (dataPath (databaseName "repo")) = .ok ⟨"repo", 1, 2, 0, "data/repo.db"⟩ := by
  rw [← toOption_eq_some_iff]
  simp only [Database.repository, Database.countTogether, Database.countValues, Database.distinctCount, Sql.firstOfEach,
    Sql.groupByKeys, Sql.sortByKeys, Sql.mergeSort_eq]
  decide +kernel

/-- The blocks that are inside the outermost one. -/
theorem Sql.Statement.supply_size (s : Sql.Statement) (plans : Sql.Plans) : s.supply plans s.blocks.size = fun id =>
    match s.blocks.size with
    | 0 => s.supply plans 0 id
    | depth + 1 => s.supply plans (depth + 1) id := by
  cases h : s.blocks.size <;> rfl

theorem repository_viewDatabase :
    viewDatabase.repository (dataPath (databaseName "repo")) = .ok ⟨"repo", 2, 1, 1, "data/repo.db"⟩ := by
  rw [← toOption_eq_some_iff]
  -- the union is a block inside the query that counts its rows
  simp only [Database.repository, Database.countTogether, Database.numberOf, Database.named, Database.answer, Sql.Query.answer,
    Sql.Statement.rows, Sql.Statement.supply, Sql.Statement.supply_size]
  unfold Sql.Block.rows Sql.Block.compoundRows Sql.Block.combined Sql.Block.chosenRows Sql.sortByKeys
  simp only [Sql.mergeSort_eq]
  decide +kernel

theorem callGraph_viewDatabase :
    viewDatabase.callGraph.toOption.map (fun g => (g.withFacts.length, g.size)) = some (1, 1) := by
  simp only [Database.callGraph, Database.factRows, Database.select, Database.named, Database.answer, Sql.Query.answer,
    Sql.Statement.rows, Sql.Statement.supply, Sql.Block.rows, Sql.sortedRows, Sql.sortByKeys, Sql.mergeSort_eq]
  decide +kernel

/-- Classes whose names are not told apart are counted once, and a view can have other classes when it is counted. -/
theorem classes_miscounted :
    (repositoryDatabase (repoTree caselessDatabase) "repo" = .ok (some caselessDatabase) ∧
      (∃ r ∈ (repoTree caselessDatabase).repositories, r.id = "repo" ∧ r.classCount = 1) ∧
      ∃ g, caselessDatabase.callGraph = .ok g ∧ g.withFacts.length = 2) ∧
    repositoryDatabase (repoTree viewDatabase) "repo" = .ok (some viewDatabase) ∧
      (∃ r ∈ (repoTree viewDatabase).repositories, r.id = "repo" ∧ r.classCount = 2) ∧
      ∃ g, viewDatabase.callGraph = .ok g ∧ g.withFacts.length = 1 ∧
        ∀ p report, reportOn g p = .ok report → report.classCount = 1 := by
  have hcaseless : caselessDatabase.callGraph.toOption.map (fun g => g.withFacts.length) = some 2 := by decide +kernel
  obtain ⟨g, hg, hcount⟩ := Option.map_eq_some_iff.1 hcaseless
  obtain ⟨g', hg', hcounts⟩ := Option.map_eq_some_iff.1 callGraph_viewDatabase
  obtain ⟨hcount', hsize⟩ := Prod.mk.inj hcounts
  rw [toOption_eq_some_iff] at hg hg'
  exact ⟨⟨rfl, ⟨_, mem_repositories_repoTree repository_caselessDatabase, rfl, rfl⟩, g, hg, hcount⟩, rfl,
    ⟨_, mem_repositories_repoTree repository_viewDatabase, rfl, rfl⟩, g', hg', hcount',
    fun p report h => (classCount_of_reportOn h).trans hsize⟩

end CouplingTree
