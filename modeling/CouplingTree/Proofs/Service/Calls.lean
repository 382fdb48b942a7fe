import CouplingTree.Proofs.Outcomes
import CouplingTree.Proofs.Service.Answers

/-!
# What a request leads to

The engine decomposes call graphs with any parameters and stores any settings. A request leads to one such call, or is
answered without one.

* `serviceCall`, `handle_eq_call` : the call that a request leads to, and how the request is answered by way of it.
* `isProper_of_serviceCall` : the call keeps the bounds of the engine.
-/

namespace CouplingTree

variable {t : FileTree} {q : Request}

/-- What the engine is to do for the service: decompose a call graph, the report to be sent after some fields, or store
settings. -/
inductive EngineCall
  | decompose (g : CallGraph) (p : Parameters Float) (fields : List (String × Json))
  | store (repo : String) (s : Settings Float)

namespace EngineCall

def answer (t : FileTree) : EngineCall → FileTree × Except ServiceError Response
  | decompose g p fields => (t, do
    let report ← reportOn g p
    Response.send 200 (.object (fields ++ report.fields)))
  | store repo s => answerWriteSettings t repo s

def IsProper : EngineCall → Prop
  | decompose _ p _ => p.IsProper
  | store _ s => s.IsProper

end EngineCall

/-- What a request leads to, or the answer to one that the engine has nothing to do for. -/
def Route.call (t : FileTree) (q : Request) : Route → Except (Except ServiceError Response) EngineCall
  | decompose => do
    let r ← readRequest q checkedRequest
    let g ← (CallGraph.ofRecords (r.records.map Record.toJson)).mapError fun e => .error (.record e)
    .ok (.decompose g (r.settings.parameters r.maxSelected) [])
  | decomposition repo => do
    let o ← (checkedOverrides (Query.fields q.query)).mapError Response.complaints
    let checked ← (storedSettings t repo).mapError .error
    let stored ← checked.mapError fun cs => Response.detail 422 (.list (cs.map Complaint.toShortJson))
    let found ← (repositoryDatabase t repo).mapError .error
    match found with
    | none => .error (Response.detail 404 (.text (unknownRepository repo)))
    | some d => do
      let g ← d.callGraph.mapError fun e => .error (.database e)
      let s := stored.override o
      .ok (.decompose g (s.parameters none) [("repo_id", .text repo), ("config", s.toJson)])
  | readSettings repo => .error (answerReadSettings t repo)
  | writeSettings repo => (readRequest q checkedSettings).map (.store repo)
  | repositories => .error (answerRepositories t)

def serviceCall (t : FileTree) (q : Request) : Except (Except ServiceError Response) EngineCall :=
  match Destination.of q.method q.path with
  | .route r => r.call t q
  | .wrongMethod => .error (Response.detail 405 (.text "Method Not Allowed"))
  | .redirect => .error (.ok ⟨307, .text ""⟩)
  | .nowhere => .error (Response.detail 404 (.text "Not Found"))

/-- What the engine answers to a call, or else the answer without it. -/
def answerCall (t : FileTree) : Except (Except ServiceError Response) EngineCall → FileTree × Except ServiceError Response
  | .ok c => c.answer t
  | .error answer => (t, answer)

theorem answer_eq_call (t : FileTree) (q : Request) (r : Route) : r.answer t q = answerCall t (r.call t q) := by
  cases r with
  | decompose =>
    unfold Route.answer Route.call
    cases readRequest q checkedRequest with
    | error a => rfl
    | ok r =>
      dsimp only [bind, Except.bind]
      unfold answerDecompose
      cases CallGraph.ofRecords (r.records.map Record.toJson) <;> rfl
  | decomposition repo =>
    unfold Route.answer Route.call
    cases checkedOverrides (Query.fields q.query) with
    | error cs => rfl
    | ok o =>
      dsimp only [Except.mapError, bind, Except.bind]
      unfold answerDecomposition
      cases storedSettings t repo with
      | error e => rfl
      | ok checked =>
        cases checked with
        | error cs => rfl
        | ok stored =>
          dsimp only [Except.mapError, bind, Except.bind]
          cases repositoryDatabase t repo with
          | error e => rfl
          | ok found =>
            cases found with
            | none => rfl
            | some d =>
              dsimp only [Except.mapError, bind, Except.bind]
              cases d.callGraph <;> rfl
  | readSettings repo => rfl
  | writeSettings repo =>
    unfold Route.answer Route.call
    cases readRequest q checkedSettings <;> rfl
  | repositories => rfl

theorem handle_eq_call (t : FileTree) (q : Request) : handle t q = answerCall t (serviceCall t q) := by
  unfold handle serviceCall
  cases Destination.of q.method q.path with
  | route r => exact answer_eq_call t q r
  | wrongMethod | redirect | nowhere => rfl

/-! ## Bounds -/

theorem bounds_of_nullable {v : Json} {cap : Option Int} (h : Input.nullable Input.count v = .ok cap) : ∀ n ∈ cap, 1 ≤ n := by
  unfold Input.nullable at h
  split at h
  · cases h
    exact nofun
  · obtain ⟨i, hi, rfl⟩ := map_eq_ok_iff.1 h
    intro n hn
    cases hn
    exact count_bound hi

theorem isProper_of_checkedRequest {fields : List (String × Json)} {r : DecomposeRequest}
    (h : checkedRequest fields = .ok r) : (r.settings.parameters r.maxSelected).IsProper := by
  obtain ⟨⟨records, s, cap⟩, hread, rfl⟩ := map_eq_ok_iff.1 h
  obtain ⟨-, hread⟩ := Input.both_eq_ok_iff.1 hread
  obtain ⟨hsettings, hcap⟩ := Input.both_eq_ok_iff.1 hread
  exact ⟨isProper_of_checkedSettings hsettings, of_optional hcap (fun _ _ => bounds_of_nullable) nofun⟩

theorem of_readRequest {α : Type} {read : List (String × Json) → Input.Checked α} {x : α} (h : readRequest q read = .ok x) :
    ∃ fields, readBody q.body = .ok (.object fields) ∧ read fields = .ok x := by
  unfold readRequest at h
  split at h
  · split at h <;> cases h
  · next v hv =>
    have hobject := Input.inside_eq_ok_iff.1 (mapError_eq_ok_iff.1 h)
    cases v with
    | object fields => exact ⟨fields, hv, hobject⟩
    | _ => cases hobject

theorem isProper_of_call {r : Route} {c : EngineCall} (h : r.call t q = .ok c) : c.IsProper := by
  unfold Route.call at h
  cases r with
  | decompose =>
    obtain ⟨r, hr, h⟩ := bind_eq_ok_iff.1 h
    obtain ⟨g, -, h⟩ := bind_eq_ok_iff.1 h
    cases h
    obtain ⟨_, -, hfields⟩ := of_readRequest hr
    exact isProper_of_checkedRequest hfields
  | decomposition repo =>
    obtain ⟨o, ho, h⟩ := bind_eq_ok_iff.1 h
    obtain ⟨checked, hchecked, h⟩ := bind_eq_ok_iff.1 h
    obtain ⟨stored, hstored, h⟩ := bind_eq_ok_iff.1 h
    obtain ⟨found, -, h⟩ := bind_eq_ok_iff.1 h
    have hread : storedSettings t repo = .ok (.ok stored) := by
      rw [mapError_eq_ok_iff.1 hchecked, mapError_eq_ok_iff.1 hstored]
    have hproper := isProper_of_storedSettings hread
    cases found with
    | none => cases h
    | some d =>
      obtain ⟨g, -, h⟩ := bind_eq_ok_iff.1 h
      cases h
      exact ⟨isProper_override hproper (mapError_eq_ok_iff.1 ho), nofun⟩
  | readSettings repo => cases h
  | writeSettings repo =>
    obtain ⟨s, hs, rfl⟩ := map_eq_ok_iff.1 h
    obtain ⟨_, -, hfields⟩ := of_readRequest hs
    exact isProper_of_checkedSettings hfields
  | repositories => cases h

/-- All that a request leads to keeps its bounds. -/
theorem isProper_of_serviceCall {c : EngineCall} (h : serviceCall t q = .ok c) : c.IsProper := by
  unfold serviceCall at h
  split at h
  · exact isProper_of_call h
  all_goals cases h

end CouplingTree
