import Dagrail.Service.Apply

/-!
# Graph commands and automatic settlement

A graph is imported once and then changed by patches whose impact was previewed. Nodes without an
executor are settled automatically: a node that can no longer become ready is skipped, and a ready
join or milestone is completed.
-/

namespace Dagrail

/-! ### Importing a graph -/

/-- A request to import a graph. The input digest is the one the provenance of the graph names. -/
structure GraphImportInput where
  graph : GraphDefinition
  inputDigest : String := ""
  idempotencyKey : String
  actorRole : String
  requestDigest : String

/-- Import the first graph of a project. -/
def importGraphDefinition (p : Platform) (s : State) (env : Env) (value : GraphImportInput) :
    Fallible (Option Batch) := do
  check (value.idempotencyKey ≠ "") "idempotency key is required"
  validateGraph p.screenGraph value.graph
  check (p.providersAvailable value.graph) "graph requires unavailable providers"
  let revision := p.hash.graphRevision value.graph
  match s.commands.lookup value.idempotencyKey with
  | some command => do
      check (command.repeats "graph.import" value.actorRole ("graph:" ++ revision)
        value.requestDigest) keyBound
      .ok none
  | none => do
      check s.graph.isNone "graph is already imported; use a graph change"
      .ok (some
        { command :=
            { id := env.newID 0
              kind := "graph.import"
              actorRole := value.actorRole
              idempotencyKey := value.idempotencyKey
              objectRef := "graph:" ++ revision
              requestDigest := value.requestDigest }
          events := [.graphImported value.graph revision value.inputDigest]
          committedAt := env.clock 0 })

/-! ### Changing the graph -/

/-- The verified token of a previewed change. -/
structure GraphChangeToken where
  projectId : String
  headHash : String
  currentRevision : String
  proposedRevision : String
  patchDigest : String
  providerSet : String
  expiresAt : Stamp

/-- A request to apply a previewed change: the token, and the patch with its digest. -/
structure GraphChangeInput where
  token : GraphChangeToken
  patch : GraphPatch
  digest : String
  idempotencyKey : String
  actorRole : String

/-- The impact that the segment with the sequence recorded. -/
def graphImpactForSequence (segments : List Segment) (sequence : Nat) : Fallible GraphImpact := do
  check (decide (0 < sequence)) "graph change result is unavailable"
  let segment ← need segments[sequence - 1]? "graph change result is unavailable"
  need (segment.events.findSome? fun
      | .graphRevised _ _ _ _ impact => some { impact with token := "" }
      | _ => none)
    "journal command has no graph change result"

/-- Is the token one of the current head of the project? -/
def GraphChangeToken.current (p : Platform) (s : State) (token : GraphChangeToken) : Bool :=
  token.projectId = s.projectId && token.headHash = s.headHash
    && token.currentRevision = s.graphRevision
    && token.providerSet = p.hash.providerFingerprint s.graph

/-- Apply a previewed change to the graph. -/
def applyGraphChange (p : Platform) (s : State) (segments : List Segment) (env : Env)
    (value : GraphChangeInput) : Fallible (Option Batch) := do
  check (value.idempotencyKey ≠ "") "idempotency key is required"
  check (value.patch.apiVersion = graphAPIVersion && value.patch.kind = "GraphPatch"
      && value.patch.operations ≠ [])
    ("graph patch must be a non-empty " ++ graphAPIVersion ++ " GraphPatch")
  check (value.digest = value.token.patchDigest) "graph patch does not match impact token"
  let requestDigest := digestPrefix ++ value.token.patchDigest
  let objectRef := "graph:" ++ value.token.proposedRevision
  match s.commands.lookup value.idempotencyKey with
  | some command => do
      check (command.repeats "graph.change" value.actorRole objectRef requestDigest) keyBound
      let _ ← graphImpactForSequence segments command.sequence
      .ok none
  | none => do
      let _ ← requireRoleCapability s value.actorRole (env.clock 0) [.graphChange]
      let _ ← validLeaseAt s value.actorRole (env.clock 1)
      check (value.token.current p s) "graph change token is stale"
      check (value.token.expiresAt.parse.any fun expires => decide (env.clock 2 < expires))
        "graph change token is expired"
      let (graph, impact, superseded) ← applyGraphPatch p s value.patch
      check (p.providersAvailable graph) "graph requires unavailable providers"
      let revision := p.hash.graphRevision graph
      check (revision = value.token.proposedRevision)
        "proposed graph revision does not match impact token"
      let impact := { impact with
        currentRevision := s.graphRevision
        proposedRevision := revision
        expiresAt := value.token.expiresAt
        token := "" }
      .ok (some
        { command :=
            { id := env.newID 0
              kind := "graph.change"
              actorRole := value.actorRole
              idempotencyKey := value.idempotencyKey
              objectRef := "graph:" ++ revision
              requestDigest }
          events := [.graphRevised graph revision s.graphRevision superseded impact]
          committedAt := env.clock 3 })

/-! ### Automatic settlement -/

/-- The role automatic commands are recorded under. -/
def controllerRole : String := "dagrail.controller"

/-- An automatic command about a node. -/
def automaticCommand (env : Env) (kind idempotencyKey nodeId : String) : Command :=
  { id := env.newID 0
    kind
    actorRole := controllerRole
    idempotencyKey
    objectRef := "node:" ++ nodeId }

/-- Skip the first node that can no longer become ready. -/
def autoSkip (s : State) (env : Env) : Option Batch :=
  (computeFrontier s).unreachable.head?.map fun nodeId =>
    { command := automaticCommand env "node.auto-skip"
        ("skip/" ++ s.graphRevision ++ "/" ++ nodeId) nodeId
      events := [.nodeAutoSkipped nodeId "closed_predicate_unsatisfied" (.utc (env.clock 0))]
      committedAt := env.clock 1 }

/-- The first ready node without an executor. -/
def readyDeterministic (s : State) : Option NodeDefinition :=
  (computeFrontier s).ready.findSome? fun nodeId =>
    (s.nodeDefinition nodeId).filter fun node => node.kind.isDeterministic

/-- Complete the first ready node without an executor by its first successful outcome. -/
def autoComplete (s : State) (env : Env) : Fallible (Option Batch) :=
  match readyDeterministic s with
  | none => .ok none
  | some node => do
      let outcome ← need (node.outcomes.find? fun o => o.outcomeClass = .success)
        ("deterministic node " ++ node.id ++ " has no success outcome")
      .ok (some
        { command := automaticCommand env "node.auto-complete"
            ("auto/" ++ s.graphRevision ++ "/" ++ node.id) node.id
          events := [.nodeAutoCompleted node.id outcome.id (.utc (env.clock 0))]
          committedAt := env.clock 1 })

/-! ### What is committed -/

/-- An import that is committed brings the first graph, which is valid. -/
theorem importGraphDefinition_ok
    {p : Platform} {s : State} {env : Env} {value : GraphImportInput} {b : Batch}
    (h : importGraphDefinition p s env value = .ok (some b)) :
  s.graph = none ∧ validateGraph p.screenGraph value.graph = .ok () ∧
    b.events = [.graphImported value.graph (p.hash.graphRevision value.graph) value.inputDigest] ∧
    b.command.kind = "graph.import" ∧ b.command.idempotencyKey = value.idempotencyKey
  := by
  simp only [importGraphDefinition, bind_eq_ok] at h
  obtain ⟨_, -, _, valid, _, -, h⟩ := h
  split at h
  · simp at h
  · simp only [bind_eq_ok, check_eq_ok, Option.isNone_iff_eq_none, Except.ok.injEq,
      Option.some.injEq] at h
    obtain ⟨_, first, rfl⟩ := h
    exact ⟨first, valid, rfl, rfl, rfl⟩

/-- A change that is committed is an accepted patch of the current graph. -/
theorem applyGraphChange_ok
    {p : Platform} {s : State} {segments : List Segment} {env : Env} {value : GraphChangeInput}
    {b : Batch} (h : applyGraphChange p s segments env value = .ok (some b)) :
  ∃ graph impact superseded impact',
    applyGraphPatch p s value.patch = .ok (graph, impact, superseded) ∧
    b.events = [.graphRevised graph (p.hash.graphRevision graph) s.graphRevision superseded
      impact'] ∧
    b.command.kind = "graph.change" ∧ b.command.idempotencyKey = value.idempotencyKey
  := by
  simp only [applyGraphChange, bind_eq_ok] at h
  obtain ⟨_, -, _, -, _, -, h⟩ := h
  split at h
  · simp at h
  · simp only [bind_eq_ok, Except.ok.injEq, Option.some.injEq] at h
    obtain ⟨_, -, _, -, _, -, _, -, ⟨graph, impact, superseded⟩, patched, _, -, _, -, rfl⟩ := h
    exact ⟨graph, impact, superseded, _, patched, rfl, rfl, rfl⟩

/-- A skip is one of a node that can no longer become ready. -/
theorem autoSkip_eq_some
    {s : State} {env : Env} {b : Batch} (h : autoSkip s env = some b) :
  ∃ nodeId ∈ (computeFrontier s).unreachable,
    b.events = [.nodeAutoSkipped nodeId "closed_predicate_unsatisfied" (.utc (env.clock 0))] ∧
    b.command.kind = "node.auto-skip"
  := by
  simp only [autoSkip, Option.map_eq_some_iff] at h
  obtain ⟨nodeId, first, rfl⟩ := h
  exact ⟨nodeId, List.mem_of_mem_head? first, rfl, rfl⟩

/-- A completion is one of a ready node without an executor. -/
theorem autoComplete_ok
    {s : State} {env : Env} {b : Batch} (h : autoComplete s env = .ok (some b)) :
  ∃ node outcome, node.id ∈ (computeFrontier s).ready ∧ s.nodeDefinition node.id = some node ∧
    node.kind.isDeterministic = true ∧
    b.events = [.nodeAutoCompleted node.id outcome (.utc (env.clock 0))] ∧
    b.command.kind = "node.auto-complete"
  := by
  unfold autoComplete at h
  split at h
  · simp at h
  · rename_i node found
    simp only [bind_eq_ok, Except.ok.injEq, Option.some.injEq] at h
    obtain ⟨outcome, -, rfl⟩ := h
    simp only [readyDeterministic, List.findSome?_eq_some_iff, Option.filter_eq_some_iff] at found
    obtain ⟨_, nodeId, _, list, ⟨declared, kind⟩, -⟩ := found
    have id : node.id = nodeId := (State.nodeDefinition_some declared).1
    exact ⟨node, outcome.id, by simp [id, list], by rw [id]; exact declared, kind, rfl, rfl⟩

end Dagrail
