import CouplingTree.Report.Basic
import CouplingTree.Proofs.Clustering.Descent
import CouplingTree.Proofs.Clustering.Trees
import CouplingTree.Proofs.RelationMatrix
import CouplingTree.Proofs.Relations

/-!
# What a report tells

* `Report.tells_of` : the fields of a report, each with where it comes from.
* `CallGraph.distance_bounds` : with rational numbers all distances are at least a half and less than one.
* `decompose_eq_ok_iff` : a decomposition is a run over the coupling of the call graph with its report.
* `tells_of_decompose` : hence its report is on what this run ends with.
* `decomposeBy layout g p` : a decomposition whose leaves are put in order by another layout.
* `decomposeBy_eq_ok_of` : a run has a report when its rows are laid out and the quotients of counts are numbers.
* `decompose_eq_ok_of` : so it has when no distance is negative.
* `decompose_eq_ok` : with rational numbers every call graph has one, as long as numbers of clusters fit into 64 bits.
-/

namespace CouplingTree

variable {α : Type} [Scalar α] [Rounding α] {g : CallGraph} {c : Clustering α} {threshold : α} {maxSelected : Option Int}

/-! ## Accounts -/

namespace RelationMatrix

/-- An account has an instability that is the rounded share of the efferent relations in all of them. -/
theorem account_eq_ok_of {P : α → Prop} {afferent efferent : Int} (ha : 0 ≤ afferent) (he : 0 ≤ efferent)
    (h : ∀ n d : Int, 0 ≤ n → n ≤ d → d ≠ 0 → ∃ q : α, Scalar.ratio? n d = some q ∧ P (Rounding.toPlaces 3 q)) :
    ∃ a : ClassCoupling α, account afferent efferent = .ok a ∧ ∀ q ∈ a.instability, P q := by
  unfold account
  split
  · exact ⟨_, rfl, fun q hq => by cases hq⟩
  · next hne =>
    obtain ⟨q, hq, hP⟩ := h efferent (afferent + efferent) he (by omega) hne
    rw [hq]
    exact ⟨_, rfl, fun r hr => Option.mem_some.1 hr ▸ hP⟩

theorem classCoupling_eq_ok_of {matrix : RelationMatrix} {P : α → Prop} (hcells : ∀ cell ∈ matrix.cells, 0 ≤ cell.2.2)
    (h : ∀ n d : Int, 0 ≤ n → n ≤ d → d ≠ 0 → ∃ q : α, Scalar.ratio? n d = some q ∧ P (Rounding.toPlaces 3 q)) :
    ∃ accounts : List (String × ClassCoupling α),
      matrix.classCoupling = .ok accounts ∧ ∀ c ∈ accounts, ∀ q ∈ c.2.instability, P q := by
  refine mapM_eq_ok_of fun cls _ => ?_
  obtain ⟨hafferent, hefferent⟩ := balance_nonneg matrix hcells cls
  obtain ⟨a, ha, hP⟩ := account_eq_ok_of hafferent hefferent h
  refine ⟨(cls, a), ?_, hP⟩
  unfold balance at ha
  rw [ha]
  rfl

end RelationMatrix

/-! ## Reports -/

namespace Report

/-- The fields of a report on a clustering of the classes of a call graph. -/
structure Tells (g : CallGraph) (c : Clustering α) (threshold : α) (maxSelected : Option Int) (r : Report α) : Prop where
  classCount_eq : r.classCount = g.size
  totalRelations_eq : r.totalRelations = g.totalRelations
  coupling_eq : r.coupling = c.coupling.positiveRows.map CouplingRow.round
  classCoupling_eq : g.relationMatrix.classCoupling = .ok r.classCoupling
  clusters_eq : r.clusters = c.summaries
  history_eq : r.history = c.entries
  modules_eq : r.modules = (c.modulesAtThreshold threshold).map NameSet.toList
  selectedModules_eq : r.selectedModules =
    (c.coupling.selectModules c.clusters (maxSelected.getD c.active.length) threshold).map Cluster.names
  leafOrder_eq : c.leafOrder = .ok r.leafOrder

theorem tells_of {r : Report α} (h : Report.of g c threshold maxSelected = .ok r) : r.Tells g c threshold maxSelected := by
  unfold Report.of at h
  cases haccounts : (g.relationMatrix.classCoupling : Except AccountError (List (String × ClassCoupling α))) with
  | error e =>
    rw [haccounts] at h
    cases h
  | ok accounts =>
    cases horder : c.leafOrder with
    | error e =>
      rw [haccounts, horder] at h
      cases h
    | ok order =>
      rw [haccounts, horder] at h
      cases h
      exact ⟨rfl, rfl, rfl, haccounts, rfl, rfl, rfl, rfl, horder⟩

/-- A report whose leaves are put in order by a layout. -/
def ofLayout (layout : Layout α) (g : CallGraph) (c : Clustering α) (threshold : α) (maxSelected : Option Int) :
    Except ReportError (Report α) := do
  let cap : Int := maxSelected.getD c.active.length
  let classCoupling ← g.relationMatrix.classCoupling.mapError ReportError.account
  let leafOrder ← (c.leafOrderBy layout).mapError ReportError.layout
  .ok {
    classCount := g.size
    totalRelations := g.totalRelations
    coupling := c.coupling.positiveRows.map CouplingRow.round
    classCoupling
    clusters := c.summaries
    history := c.entries
    modules := (c.modulesAtThreshold threshold).map NameSet.toList
    selectedModules := (c.coupling.selectModules c.clusters cap threshold).map Cluster.names
    leafOrder }

theorem ofLayout_leaves : ofLayout LinkageRow.leaves g c threshold maxSelected = Report.of g c threshold maxSelected := rfl

/-- There is a report when there are the accounts of the classes and an order of the leaves. -/
theorem ofLayout_eq_ok {layout : Layout α} (threshold : α) (maxSelected : Option Int)
    (haccounts : ∃ accounts : List (String × ClassCoupling α), g.relationMatrix.classCoupling = .ok accounts)
    (horder : ∃ order, c.leafOrderBy layout = .ok order) : ∃ r, ofLayout layout g c threshold maxSelected = .ok r := by
  obtain ⟨accounts, haccounts⟩ := haccounts
  obtain ⟨order, horder⟩ := horder
  unfold ofLayout
  rw [haccounts, horder]
  exact ⟨_, rfl⟩

end Report

namespace CallGraph

/-! ## Distances -/

/-- With rational numbers a merge couples two sets that share no class, so at most as much as one pair in both directions. -/
theorem coupling_le_half (g : CallGraph) (rule : StopRule Rat) :
    ∀ m ∈ (Clustering.run rule g.normalizedCoupling).clustering.history, m.coupling ≤ 1 / 2 := by
  intro m hm
  have h := Clustering.forest_run rule (g.normalizedCoupling : CouplingMap Rat)
  have hnames : ∀ k ∈ (Clustering.run rule g.normalizedCoupling).clustering.arena, ∀ x ∈ k.members, x ∈ g.names :=
    fun k hk x hx => ((g.mem_classes_normalizedCoupling).1 (h.mem_classes_of_mem hk x hx)).1
  have hle := between_normalizedCoupling_le (h.joins m hm).apart (hnames _ (h.first_mem hm))
    (hnames _ (h.second_mem hm))
  rw [(Clustering.descending_run rule g.normalizedCoupling).value_eq m hm]
  refine hle.trans ?_
  have hfirst : (1 : Rat) ≤ m.first.members.size :=
    Nat.one_le_cast.2 (List.length_pos_of_ne_nil (h.nonempty m.first (h.first_mem hm)))
  have hsecond : (1 : Rat) ≤ m.second.members.size :=
    Nat.one_le_cast.2 (List.length_pos_of_ne_nil (h.nonempty m.second (h.second_mem hm)))
  refine one_div_le_one_div_of_le zero_lt_two ?_
  nlinarith

/-- Clusters couple more than zero when they are merged, and at most a half. -/
theorem distance_bounds (g : CallGraph) (rule : StopRule Rat) {rows : List (LinkageRow Rat)}
    (hrows : (Clustering.run rule g.normalizedCoupling).clustering.linkage = .ok rows) :
    ∀ row ∈ rows, 1 / 2 ≤ row.distance ∧ row.distance < 1 := by
  rw [(Clustering.linkage_eq_ok_iff.1 hrows).2.2]
  refine List.forall_mem_map.2 fun m hm => ?_
  have hhalf := g.coupling_le_half rule m hm
  have hpos := (Clustering.descending_run rule g.normalizedCoupling).positive m hm
  have hdistance : m.row.distance = 1 - m.coupling := rfl
  rw [hdistance]
  constructor <;> linarith

theorem distance_nonneg (g : CallGraph) (rule : StopRule Rat) {rows : List (LinkageRow Rat)}
    (hrows : (Clustering.run rule g.normalizedCoupling).clustering.linkage = .ok rows) : ∀ row ∈ rows, ¬ row.distance < 0 :=
  fun row hrow => not_lt.2 (one_half_pos.le.trans (g.distance_bounds rule hrows row hrow).1)

end CallGraph

/-! ## Decompositions -/

theorem decompose_eq_ok_iff {p : Parameters α} {d : Decomposition α} :
    decompose g p = .ok d ↔ d.run = Clustering.run ⟨p.minCoupling, p.maxModules⟩ g.normalizedCoupling ∧
      Report.of g d.run.clustering p.threshold p.maxSelected = .ok d.report := by
  unfold decompose
  dsimp only
  generalize Clustering.run ⟨p.minCoupling, p.maxModules⟩ g.normalizedCoupling = run
  constructor
  · intro h
    cases hr : Report.of g run.clustering p.threshold p.maxSelected with
    | error e =>
      rw [hr] at h
      cases h
    | ok r =>
      rw [hr] at h
      cases h
      exact ⟨rfl, hr⟩
  · obtain ⟨_, report⟩ := d
    rintro ⟨rfl, hr⟩
    dsimp only at hr
    rw [hr]
    rfl

theorem tells_of_decompose {p : Parameters α} {d : Decomposition α} (h : decompose g p = .ok d) :
    d.report.Tells g (Clustering.run ⟨p.minCoupling, p.maxModules⟩ g.normalizedCoupling).clustering p.threshold
      p.maxSelected := by
  obtain ⟨hrun, hreport⟩ := decompose_eq_ok_iff.1 h
  rw [← hrun]
  exact Report.tells_of hreport

/-- A decomposition whose leaves are put in order by a layout. -/
def decomposeBy (layout : Layout α) (g : CallGraph) (p : Parameters α) : Except ReportError (Decomposition α) := do
  let run := Clustering.run ⟨p.minCoupling, p.maxModules⟩ g.normalizedCoupling
  let report ← Report.ofLayout layout g run.clustering p.threshold p.maxSelected
  .ok ⟨run, report⟩

theorem decomposeBy_leaves (g : CallGraph) (p : Parameters α) : decomposeBy LinkageRow.leaves g p = decompose g p := by
  simp only [decomposeBy, decompose, Report.ofLayout_leaves]

/-- Quotients of counts that are numbers, and rows that are laid out, make a report. -/
theorem decomposeBy_eq_ok_of (layout : Layout α) (p : Parameters α)
    (hratio : ∀ n d : Int, 0 ≤ n → n ≤ d → d ≠ 0 → ∃ q : α, Scalar.ratio? n d = some q)
    (hlayout : ∀ rows, (Clustering.run ⟨p.minCoupling, p.maxModules⟩ g.normalizedCoupling).clustering.linkage = .ok rows →
      ∃ places, layout rows = .ok places) :
    ∃ d, decomposeBy layout g p = .ok d ∧ d.run = Clustering.run ⟨p.minCoupling, p.maxModules⟩ g.normalizedCoupling := by
  have horder := (Clustering.forest_run ⟨p.minCoupling, p.maxModules⟩ g.normalizedCoupling).leafOrderBy_eq_ok hlayout
  obtain ⟨accounts, haccounts, -⟩ := RelationMatrix.classCoupling_eq_ok_of (P := fun _ => True)
    g.cells_relationMatrix_nonneg fun n d hn hle hd => (hratio n d hn hle hd).imp fun _ hq => ⟨hq, trivial⟩
  obtain ⟨r, hr⟩ := Report.ofLayout_eq_ok p.threshold p.maxSelected ⟨accounts, haccounts⟩ horder
  unfold decomposeBy
  dsimp only
  generalize Clustering.run ⟨p.minCoupling, p.maxModules⟩ g.normalizedCoupling = run at hr ⊢
  refine ⟨⟨run, r⟩, ?_, rfl⟩
  rw [hr]
  rfl

/-- No distance of the linkage, if there is one, is negative. -/
def CallGraph.NoNegativeDistance (g : CallGraph) (rule : StopRule α) : Prop :=
  ∀ rows, (Clustering.run rule g.normalizedCoupling).clustering.linkage = .ok rows → ∀ row ∈ rows, ¬ row.distance < 0

theorem decompose_eq_ok_of (p : Parameters α) (hbound : 2 * g.size ≤ LinkageRow.numberBound)
    (hratio : ∀ n d : Int, 0 ≤ n → n ≤ d → d ≠ 0 → ∃ q : α, Scalar.ratio? n d = some q)
    (hdistance : g.NoNegativeDistance ⟨p.minCoupling, p.maxModules⟩) : ∃ d, decompose g p = .ok d := by
  have hforest := Clustering.forest_run ⟨p.minCoupling, p.maxModules⟩ (g.normalizedCoupling : CouplingMap α)
  have hlength := g.length_classes_normalizedCoupling_le (α := α)
  rw [← decomposeBy_leaves]
  refine (decomposeBy_eq_ok_of LinkageRow.leaves p hratio fun rows hrows => ?_).imp fun d hd => hd.1
  have hrowsLength := hforest.length_rows hrows
  exact ⟨_, (hforest.oneTree hrows).leaves_eq (hdistance rows hrows) (by omega)⟩

theorem ratio?_rat (n d : Int) : ∃ q : Rat, Scalar.ratio? n d = some q := ⟨_, rfl⟩

theorem decompose_eq_ok (p : Parameters Rat) (hbound : 2 * g.size ≤ LinkageRow.numberBound) :
    ∃ d, decompose g p = .ok d :=
  decompose_eq_ok_of p hbound (fun n d _ _ _ => ratio?_rat n d) fun _ => g.distance_nonneg _

end CouplingTree
