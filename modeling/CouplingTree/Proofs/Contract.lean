import CouplingTree.Proofs.CommandLine.Bounds
import CouplingTree.Proofs.Service.Calls
import CouplingTree.Proofs.Surfaces

/-!
# What the engine is called with

The program and the service call the engine with values within bounds, but for an option of the program from which two
attached dashes have taken its value.

* `programCall`, `prepare_eq_call` : what a command line leads to, and what the engine makes of it.
* `engine_called_within_bounds` : it keeps the bounds, apart from values that are taken away; what a request leads to does
  so without exception.
-/

namespace CouplingTree

variable {t : FileTree} {argv : List String}

/-! ## The program -/

/-- What the engine is to decompose for the program. -/
structure ProgramCall where
  files : FileTree
  arguments : Arguments
  graph : CallGraph
  /-- The names of classes that are no texts. -/
  others : List OtherName
  output : String

def ProgramCall.prepared (c : ProgramCall) : Except Outcome Prepared :=
  prepareGraph c.files c.arguments c.output c.others c.graph

/-- Reads the command line and the export. -/
def programCall (t : FileTree) (argv : List String) : Except Outcome ProgramCall :=
  match Arguments.parse argv with
  | .error h => .error (halted t h)
  | .ok (input, a) =>
    let p := Path.ofText input
    match t.pathExists p with
    | .error e => .error ⟨t, "", "", .failure (.file e)⟩
    | .ok false => .error (misuse t "" (.inputNotFound p.text))
    | .ok true =>
      let output := "Loading " ++ p.name ++ "...\n"
      match t.loadCallGraph p with
      | (u, .ok g) => .ok ⟨u, a, g, t.otherClasses p, output⟩
      | (t, .error e) =>
        if e.blamesContent then .error (misuse t output (.unusable e.message))
        else .error ⟨t, output, "", .failure (.load e)⟩

theorem prepare_eq_call (t : FileTree) (argv : List String) : prepare t argv = programCall t argv >>= ProgramCall.prepared := by
  unfold prepare programCall
  cases Arguments.parse argv with
  | error h => rfl
  | ok r =>
    obtain ⟨input, a⟩ := r
    dsimp only
    cases t.pathExists (.ofText input) with
    | error e => rfl
    | ok found =>
      cases found with
      | false => rfl
      | true =>
        dsimp only
        generalize t.loadCallGraph (.ofText input) = loaded
        obtain ⟨u, e | g⟩ := loaded
        · dsimp only
          split <;> rfl
        · dsimp only [bind, Except.bind, ProgramCall.prepared]

theorem within_of_programCall {c : ProgramCall} (h : programCall t argv = .ok c) : c.arguments.Within (IsCleared argv) := by
  unfold programCall at h
  cases hparse : Arguments.parse argv with
  | error e =>
    rw [hparse] at h
    cases h
  | ok r =>
    obtain ⟨input, a⟩ := r
    have ha := Arguments.within_of_parse hparse
    rw [hparse] at h
    dsimp only at h
    repeat' split at h
    all_goals cases h
    exact ha

/-- The engine is given what a run over records needs. -/
theorem FileTree.Runs.programCall_eq {records : List Record} {p : Parameters Float} {out : Path} (h : t.Runs argv records p out)
    (hnames : ∀ r ∈ records, r.name ≠ "") :
    ∃ c, programCall t argv = .ok c ∧ c.graph = .ofRecordList records ∧ c.arguments.Sets p := by
  obtain ⟨⟨input, a, outText, hparse, hexports, hsets, -, -⟩, -⟩ := h
  obtain ⟨_, _, hread, -⟩ := hexports.content
  refine ⟨⟨t, a, .ofRecordList records, t.otherClasses (.ofText input), "Loading " ++ (Path.ofText input).name ++ "...\n"⟩, ?_, rfl,
    hsets⟩
  simp only [programCall, hparse, FileTree.pathExists_of_readJson hread, hexports.loadCallGraph_eq hnames]

/-! ## Both -/

/-- **The engine is called within its bounds.** Shares lie between zero and one, so they are finite, and counts are at
least one. That holds of all that a request leads to, and of what a command line leads to, but for an option that loses
its value to two dashes. -/
theorem engine_called_within_bounds (t : FileTree) :
    (∀ argv, prepare t argv = programCall t argv >>= ProgramCall.prepared ∧ ∀ c, programCall t argv = .ok c →
      c.arguments.Within (IsCleared argv) ∧ ((∀ flag, IsCleared argv flag → flag = .out) → ∃ p, c.arguments.Sets p ∧ p.IsProper ∧
        ∀ d, decompose c.graph p = .ok d → ∃ shown, c.prepared = .ok ⟨c.files, c.arguments, d, c.others, shown⟩)) ∧
    (∀ q, handle t q = answerCall t (serviceCall t q) ∧ ∀ c, serviceCall t q = .ok c → c.IsProper) ∧
    ∀ x, Settings.IsShare x → Binary64.isFinite x = true := by
  refine ⟨fun argv => ⟨prepare_eq_call t argv, fun c hc => ?_⟩, fun q => ⟨handle_eq_call t q, fun c => isProper_of_serviceCall⟩,
    fun x hx => Doubles.isFinite_of_le hx.1 hx.2⟩
  have hwithin := within_of_programCall hc
  refine ⟨hwithin, fun hcleared => ?_⟩
  obtain ⟨p, hsets, hp⟩ := hwithin.sets hcleared
  exact ⟨p, hsets, hp, fun d hd => prepareGraph_eq_ok hsets hd c.output c.others⟩

/-- Two classes reach the engine from a command line and in a request. -/
theorem two_classes_called : (∃ c p, programCall shopTree shopArguments = .ok c ∧ c.graph = .ofRecordList shopRecords ∧
      c.arguments.Sets p ∧ p.IsProper) ∧
    ∃ c, serviceCall shopTree ⟨"PUT", "/api/repos/shop/decomposition-config", "", shopSettings.indented⟩ = .ok c ∧
      c.IsProper := by
  obtain ⟨hprogram, hservice, -⟩ := engine_called_within_bounds shopTree
  obtain ⟨c, hc, hgraph, -⟩ := runs_shopArguments.programCall_eq (by decide)
  have hcleared : ∀ flag, IsCleared shopArguments flag → flag = .out := fun flag h => by
    have hdashes : ¬∃ s ∈ shopArguments, "=--".toList <:+ s.toList := by decide
    exact absurd h.exists_attached hdashes
  obtain ⟨p, hsets, hp, -⟩ := (hprogram shopArguments).2 c hc |>.2 hcleared
  have hrequest : serviceCall shopTree ⟨"PUT", "/api/repos/shop/decomposition-config", "", shopSettings.indented⟩ =
      .ok (.store "shop" ⟨0, 1, 0⟩) := by
    have hfits : shopSettings.Fits bodyDepth := by
      have hdigits : (Nat.toDigits 10 1).length ≤ 4300 := by decide
      simp [shopSettings, Json.Fits, Json.FieldsFit, bodyDepth, Numeral.digitLimit, hdigits]
    have hroute : Destination.of "PUT" "/api/repos/shop/decomposition-config" = .route (.writeSettings "shop") := by decide
    simp only [serviceCall, hroute, Route.call, readRequest, readBody_indented hfits]
    rfl
  exact ⟨⟨c, p, hc, hgraph, hsets, hp⟩, _, hrequest, (hservice _).2 _ hrequest⟩

/-- Two dashes after an equals sign reach the engine in place of a number, and a run without classes ends well with them. -/
theorem dashes_called : ∃ c, programCall (exportTree [] []) ["facts.json", "--min-coupling=--"] = .ok c ∧
    c.arguments.minCoupling = none ∧ (∀ p, ¬c.arguments.Sets p) ∧
    (runProgram 0 (exportTree [] []) ["facts.json", "--min-coupling=--"]).ending = .exit 0 := by
  have hexports : (exportTree [] []).Exports (.ofText "facts.json") [] := FileTree.exports_document rfl rfl
  obtain ⟨_, _, hread, -⟩ := hexports.content
  have hparse : Arguments.parse ["facts.json", "--min-coupling=--"] =
      .ok ("facts.json", { Arguments.initial with input := some "facts.json", minCoupling := none }) := rfl
  have hcall : programCall (exportTree [] []) ["facts.json", "--min-coupling=--"] = .ok ⟨exportTree [] [],
      { Arguments.initial with input := some "facts.json", minCoupling := none }, .ofRecordList [], [],
      "Loading " ++ (Path.ofText "facts.json").name ++ "...\n"⟩ := by
    simp only [programCall, hparse, FileTree.pathExists_of_readJson hread, hexports.loadCallGraph_eq nofun,
      hexports.otherClasses_eq]
  refine ⟨_, hcall, rfl, fun p hsets => (nomatch hsets.minCoupling), ?_⟩
  rw [runProgram, prepare_eq_call, hcall]
  rfl

end CouplingTree
