import Dagrail.Service.Reduce

/-!
# What an event can change

For every event that replay may refuse, what its acceptance says. From that, for every part of
the state, which events leave it as it is.
-/

namespace Dagrail

namespace State

variable {p : Platform} {s s' : State} {n : Nat} {committedAt : Stamp}

/-! ### Accepted events -/

/-- An accepted migration receipt is new and bound to the segment and graph. -/
theorem importHistory_ok
    {receipt : LifecycleMigrationReceipt} (h : s.importHistory n receipt = .ok s') :
  receipt.graphRevision = s.graphRevision ∧
    s' = { s with lifecycleMigrations := s.lifecycleMigrations.insert receipt.id receipt }
  := by
  simp only [importHistory, bind_eq_ok, check_eq_ok, Except.ok.injEq, Bool.and_eq_true,
    decide_eq_true_eq] at h
  obtain ⟨_, bound, _, -, rfl⟩ := h
  exact ⟨bound.1.1.1.2, rfl⟩

/-- An accepted automatic event settles a planned node. -/
theorem settleNode_ok
    {nodeId message : String} {runtime : NodeRuntime}
    (h : s.settleNode nodeId runtime message = .ok s') :
  (∃ r, s.nodes.lookup nodeId = some r ∧ r.status = .planned) ∧
    s' = { s with nodes := s.nodes.insert nodeId runtime }
  := by
  simp only [settleNode, bind_eq_ok, check_eq_ok, Except.ok.injEq, Option.any_eq_true,
    decide_eq_true_eq] at h
  obtain ⟨_, planned, rfl⟩ := h
  exact ⟨planned, rfl⟩

/-- An accepted package belongs to an attempt, passes its validator and is new. -/
theorem publishPackage_ok
    {pack : ExecutionPackage} (h : s.publishPackage p n pack = .ok s') :
  (∃ attempt node, s.attempts.lookup pack.attemptId = some attempt ∧
      s.nodeDefinition pack.nodeId = some node ∧ attempt.nodeId = pack.nodeId ∧
      pack.projectId = s.projectId ∧ pack.graphRevision = s.graphRevision ∧
      validateExecutionPackageRecord p pack node = .ok ()) ∧
    s.evidencePackages.has pack.id = false ∧
    s' = { s with
      evidencePackages := s.evidencePackages.insert pack.id { pack with sequence := n }
      attemptPackages := s.attemptPackages.insert pack.attemptId
        (s.attemptPackages.get pack.attemptId ++ [pack.id]) }
  := by
  simp only [publishPackage, bind_eq_ok, need_eq_ok, check_eq_ok, Except.ok.injEq,
    Bool.and_eq_true, decide_eq_true_eq, Bool.not_eq_true'] at h
  obtain ⟨attempt, known, node, declared, _, ⟨⟨ofNode, ofProject⟩, ofGraph⟩, _, valid, _, new,
    rfl⟩ := h
  exact ⟨⟨attempt, node, known, declared, ofNode, ofProject, ofGraph, valid⟩, new, rfl⟩

/-- An accepted reuse decision speaks about a stored package, passes its validator and is new. -/
theorem assessReuse_ok
    {decision : ReuseDecision} (h : s.assessReuse p n decision = .ok s') :
  s.reuseDecisions.has decision.id = false ∧
    s' = { s with
      reuseDecisions := s.reuseDecisions.insert decision.id { decision with sequence := n }
      packageDecisions := s.packageDecisions.insert decision.packageId
        (s.packageDecisions.get decision.packageId ++ [decision.id]) }
  := by
  simp only [assessReuse, bind_eq_ok, need_eq_ok, check_eq_ok, Except.ok.injEq,
    Bool.not_eq_true'] at h
  obtain ⟨pack, -, _, -, node, -, _, -, _, new, rfl⟩ := h
  exact ⟨new, rfl⟩

/-- An accepted decision record passes its validator and is new. -/
theorem recordDecision_ok
    {decision : DecisionRecord} (h : s.recordDecision p n decision = .ok s') :
  validateDecisionRecord p decision s = .ok () ∧ s.decisions.has decision.id = false ∧
    s' = { s with
      decisions := s.decisions.insert decision.id { decision with sequence := n }
      attemptDecisions := s.attemptDecisions.insert decision.attemptId
        (s.attemptDecisions.get decision.attemptId ++ [decision.id]) }
  := by
  simp only [recordDecision, bind_eq_ok, check_eq_ok, Except.ok.injEq, Bool.not_eq_true'] at h
  obtain ⟨_, valid, _, new, rfl⟩ := h
  exact ⟨valid, new, rfl⟩

/-- An accepted closure observation is about an active lease. -/
theorem observeClosure_ok
    {resourceId : String} {status : ClosureStatus} {receipt : Option Json} {updatedAt : Stamp}
    (h : s.observeClosure resourceId status receipt updatedAt = .ok s') :
  ∃ lease, s.resources.lookup resourceId = some lease ∧ lease.status = .active ∧
    s' = { s with
      resources := s.resources.insert lease.id
        { lease with
          closureStatus := status, closureReceipt := receipt, closureUpdatedAt := updatedAt } }
  := by
  simp only [observeClosure, bind_eq_ok, need_eq_ok, check_eq_ok, Except.ok.injEq,
    Option.filter_eq_some_iff, decide_eq_true_eq] at h
  obtain ⟨lease, ⟨known, active⟩, _, -, rfl⟩ := h
  exact ⟨lease, known, active, rfl⟩

/-- An accepted release is about a lease without an unconfirmed closure. -/
theorem releaseResource_ok
    {resourceId : String} {releasedAt : Stamp}
    (h : s.releaseResource resourceId releasedAt = .ok s') :
  ∃ lease, s.resources.lookup resourceId = some lease ∧
    (lease.closureStatus = .unset ∨ lease.closureStatus = .confirmed) ∧
    s' = { s with
      resources := s.resources.insert lease.id { lease with status := .released, releasedAt } }
  := by
  simp only [releaseResource, bind_eq_ok, need_eq_ok, check_eq_ok, Except.ok.injEq,
    Bool.or_eq_true, decide_eq_true_eq] at h
  obtain ⟨lease, known, _, confirmed, rfl⟩ := h
  exact ⟨lease, known, confirmed, rfl⟩

/-- An accepted dispatch is about a known effect. -/
theorem dispatchEffect_ok
    {actionId : String} {at_ : Stamp} (h : s.dispatchEffect n actionId at_ = .ok s') :
  ∃ effect, s.effects.lookup actionId = some effect ∧
    s' = { s with
      effects := s.effects.insert actionId
        { effect with status := .dispatched, updatedAt := at_, sequence := n } }
  := by
  simp only [dispatchEffect, bind_eq_ok, need_eq_ok, Except.ok.injEq] at h
  obtain ⟨effect, known, rfl⟩ := h
  exact ⟨effect, known, rfl⟩

/-- An accepted reconciliation is about a known effect. -/
theorem reconcileEffect_ok
    {actionId : String} {at_ : Stamp} (h : s.reconcileEffect n actionId at_ = .ok s') :
  ∃ effect, s.effects.lookup actionId = some effect ∧
    s' = setActionStatus
      { s with
        effects := s.effects.insert actionId
          { effect with status := .reconciling, updatedAt := at_, sequence := n } }
      actionId .reconciling
  := by
  simp only [reconcileEffect, bind_eq_ok, need_eq_ok, Except.ok.injEq] at h
  obtain ⟨effect, known, rfl⟩ := h
  exact ⟨effect, known, rfl⟩

/-- An accepted update is about a known incident. -/
theorem updateIncident_ok
    {incident : Incident} (h : s.updateIncident incident = .ok s') :
  s.incidents.has incident.id = true ∧
    s' = { s with incidents := s.incidents.insert incident.id incident }
  := by
  simp only [updateIncident, bind_eq_ok, check_eq_ok, Except.ok.injEq] at h
  obtain ⟨_, known, rfl⟩ := h
  exact ⟨known, rfl⟩

/-- An accepted resolution is about a known incident. -/
theorem resolveIncident_ok
    {incidentId : String} {resolvedAt : Stamp}
    (h : s.resolveIncident incidentId resolvedAt = .ok s') :
  ∃ incident, s.incidents.lookup incidentId = some incident ∧
    s' = { s with
      incidents := s.incidents.insert incident.id
        { incident with status := .resolved, updatedAt := resolvedAt } }
  := by
  simp only [resolveIncident, bind_eq_ok, need_eq_ok, Except.ok.injEq] at h
  obtain ⟨incident, known, rfl⟩ := h
  exact ⟨incident, known, rfl⟩

/-- Setting an action status changes the actions only. -/
theorem setActionStatus_eq
    (s : State) (actionId : String) (status : ActionStatus) :
  setActionStatus s actionId status =
    { s with actions := (setActionStatus s actionId status).actions }
  := by
  unfold setActionStatus
  split <;> rfl

/-- Superseding a node changes nodes, attempts and resources only. -/
theorem supersedeNode_eq
    (s : State) (nodeId : String) :
  supersedeNode committedAt s nodeId =
    { s with
      nodes := (supersedeNode committedAt s nodeId).nodes
      attempts := (supersedeNode committedAt s nodeId).attempts
      resources := (supersedeNode committedAt s nodeId).resources }
  := by
  unfold supersedeNode releaseResources
  split <;> dsimp only <;> split <;> try split
  all_goals rfl

/-- Superseding a node keeps the nodes that have an entry. -/
theorem has_supersedeNode
    (s : State) (nodeId k : String) :
  (supersedeNode committedAt s nodeId).nodes.has k = s.nodes.has k
  := by
  unfold supersedeNode releaseResources
  split
  · rename_i runtime found
    have known : s.nodes.has nodeId = true := Table.has_iff.mpr ⟨runtime, found⟩
    have same : (decide (k = nodeId) || s.nodes.has k) = s.nodes.has k := by
      by_cases eq : k = nodeId
      · subst eq
        simp [known]
      · simp [eq]
    dsimp only
    split
    · split <;> simp [same]
    · simp [same]
  · dsimp only
    split
    · split <;> rfl
    · rfl

/-- Superseding nodes keeps the nodes that have an entry. -/
theorem has_foldl_supersedeNode
    (superseded : List String) (s : State) (k : String) :
  (superseded.foldl (supersedeNode committedAt) s).nodes.has k = s.nodes.has k
  := by
  induction superseded generalizing s with
  | nil => rfl
  | cons nodeId rest ih =>
      rw [List.foldl_cons, ih, has_supersedeNode]

/-- Superseding nodes leaves the rest of the state. -/
theorem foldl_supersedeNode_eq
    (superseded : List String) (s : State) :
  superseded.foldl (supersedeNode committedAt) s =
    { s with
      nodes := (superseded.foldl (supersedeNode committedAt) s).nodes
      attempts := (superseded.foldl (supersedeNode committedAt) s).attempts
      resources := (superseded.foldl (supersedeNode committedAt) s).resources }
  := by
  induction superseded generalizing s with
  | nil => rfl
  | cons nodeId rest ih =>
      rw [List.foldl_cons, ih, supersedeNode_eq]

/-- A revision leaves everything but graph, nodes, attempts and resources. -/
theorem reviseGraph_eq
    (s : State) (graph : GraphDefinition) (revision : String) (superseded : List String) :
  s.reviseGraph graph revision superseded committedAt =
    { s with
      graph := some graph
      graphRevision := revision
      nodes := (s.reviseGraph graph revision superseded committedAt).nodes
      attempts := (s.reviseGraph graph revision superseded committedAt).attempts
      resources := (s.reviseGraph graph revision superseded committedAt).resources }
  := by
  unfold reviseGraph
  rw [foldl_supersedeNode_eq]

end State

/-! ### Events by what they touch -/

namespace Event

/-- Does the event replace the graph? -/
def replacesGraph : Event → Bool
  | .graphImported .. => true
  | .graphRevised .. => true
  | _ => false

/-- Does the event write role leases? -/
def writesLeases : Event → Bool
  | .roleBound _ => true
  | .roleTransferred _ => true
  | .roleReleased .. => true
  | _ => false

/-- Does the event write effects? -/
def writesEffects : Event → Bool
  | .effectPrepared _ => true
  | .effectDispatched .. => true
  | .effectReconciling .. => true
  | .effectObserved .. => true
  | _ => false

/-- Does the event write actions? -/
def writesActions : Event → Bool
  | .actionApplied _ => true
  | .effectReconciling .. => true
  | .effectObserved .. => true
  | _ => false

/-- Does the event write nodes or attempts? -/
def writesRuns : Event → Bool
  | .graphImported .. => true
  | .graphRevised .. => true
  | .attemptStarted _ => true
  | .attemptLeased _ => true
  | .nodeAutoCompleted .. => true
  | .nodeAutoSkipped .. => true
  | .attemptCheckpointed _ => true
  | .attemptStatusChanged .. => true
  | .attemptFinished .. => true
  | _ => false

/-- Does the event write resource leases? -/
def writesResources : Event → Bool
  | .graphRevised .. => true
  | .resourceLeased _ => true
  | .resourceClosureObserved .. => true
  | .resourceReleased .. => true
  | _ => false

/-- What an event leaves as it is. -/
structure Frame (event : Event) (s s' : State) : Prop where
  projectId : s'.projectId = s.projectId
  commands : s'.commands = s.commands
  headSequence : s'.headSequence = s.headSequence
  headHash : s'.headHash = s.headHash
  graph : event.replacesGraph = false →
    s'.graph = s.graph ∧ s'.graphRevision = s.graphRevision
  known : event.replacesGraph = false → ∀ k, s.nodes.has k = true → s'.nodes.has k = true
  leases : event.writesLeases = false → s'.leases = s.leases
  effects : event.writesEffects = false → s'.effects = s.effects
  actions : event.writesActions = false → s'.actions = s.actions
  resources : event.writesResources = false → s'.resources = s.resources
  runs : event.writesRuns = false →
    s'.nodes = s.nodes ∧ s'.attempts = s.attempts ∧ s'.nodeAttempts = s.nodeAttempts

end Event

namespace State

variable {p : Platform} {s s' : State} {n : Nat} {committedAt : Stamp} {event : Event}

/-- A part of the state that an event's constructor does not write is left by the event. -/
theorem frame_of_eq
    (projectId : s'.projectId = s.projectId) (commands : s'.commands = s.commands)
    (headSequence : s'.headSequence = s.headSequence) (headHash : s'.headHash = s.headHash)
    (graph : event.replacesGraph = false →
      s'.graph = s.graph ∧ s'.graphRevision = s.graphRevision)
    (leases : event.writesLeases = false → s'.leases = s.leases)
    (effects : event.writesEffects = false → s'.effects = s.effects)
    (actions : event.writesActions = false → s'.actions = s.actions)
    (resources : event.writesResources = false → s'.resources = s.resources)
    (runs : event.writesRuns = false →
      s'.nodes = s.nodes ∧ s'.attempts = s.attempts ∧ s'.nodeAttempts = s.nodeAttempts)
    (known : event.writesRuns = true → event.replacesGraph = false →
      ∀ k, s.nodes.has k = true → s'.nodes.has k = true) :
  event.Frame s s'
  where
  projectId := projectId
  commands := commands
  headSequence := headSequence
  headHash := headHash
  graph := graph
  leases := leases
  effects := effects
  actions := actions
  resources := resources
  runs := runs
  known keeps k was := by
    cases writes : event.writesRuns with
    | true => exact known writes keeps k was
    | false =>
        rw [(runs writes).1]
        exact was

/-- Every accepted event leaves what its constructor does not write. -/
theorem applyEvent_frame
    (h : s.applyEvent p n committedAt event = .ok s') :
  event.Frame s s'
  := by
  cases event with
  | graphRevised graph revision previous superseded impact =>
      obtain rfl := Except.ok.inj h
      rw [reviseGraph_eq]
      apply frame_of_eq <;>
        simp [Event.replacesGraph, Event.writesLeases, Event.writesEffects,
          Event.writesResources, Event.writesRuns]
  | nodeAutoCompleted | nodeAutoSkipped =>
      obtain ⟨-, rfl⟩ := settleNode_ok h
      apply frame_of_eq <;> simp +contextual [Event.writesRuns]
  | attemptStarted | attemptLeased | attemptFinished | attemptCheckpointed
  | attemptStatusChanged =>
      obtain rfl := Except.ok.inj h
      apply frame_of_eq <;>
        simp +contextual [startAttempt, finishAttempt, recordCheckpoint, changeAttemptStatus,
          Event.writesRuns]
  | lifecycleHistoryImported =>
      obtain ⟨-, rfl⟩ := importHistory_ok h
      apply frame_of_eq <;> simp [Event.writesRuns]
  | evidencePackagePublished =>
      obtain ⟨-, -, rfl⟩ := publishPackage_ok h
      apply frame_of_eq <;> simp [Event.writesRuns]
  | evidenceReuseAssessed =>
      obtain ⟨-, rfl⟩ := assessReuse_ok h
      apply frame_of_eq <;> simp [Event.writesRuns]
  | decisionRecorded =>
      obtain ⟨-, -, rfl⟩ := recordDecision_ok h
      apply frame_of_eq <;> simp [Event.writesRuns]
  | resourceClosureObserved =>
      obtain ⟨_, -, -, rfl⟩ := observeClosure_ok h
      apply frame_of_eq <;> simp [Event.writesRuns, Event.writesResources]
  | resourceReleased =>
      obtain ⟨_, -, -, rfl⟩ := releaseResource_ok h
      apply frame_of_eq <;> simp [Event.writesRuns, Event.writesResources]
  | effectDispatched =>
      obtain ⟨_, -, rfl⟩ := dispatchEffect_ok h
      apply frame_of_eq <;> simp [Event.writesRuns, Event.writesEffects, Event.writesActions]
  | effectReconciling =>
      obtain ⟨_, -, rfl⟩ := reconcileEffect_ok h
      rw [setActionStatus_eq]
      apply frame_of_eq <;> simp [Event.writesRuns, Event.writesEffects, Event.writesActions]
  | effectObserved =>
      obtain rfl := Except.ok.inj h
      rw [observeEffect, setActionStatus_eq]
      apply frame_of_eq <;> simp [Event.writesRuns, Event.writesEffects, Event.writesActions]
  | incidentUpdated =>
      obtain ⟨-, rfl⟩ := updateIncident_ok h
      apply frame_of_eq <;> simp [Event.writesRuns]
  | incidentResolved =>
      obtain ⟨_, -, rfl⟩ := resolveIncident_ok h
      apply frame_of_eq <;> simp [Event.writesRuns]
  | unsupported => simp [applyEvent] at h
  | _ =>
      obtain rfl := Except.ok.inj h
      apply frame_of_eq <;>
        simp [importGraph, releaseRole, Event.replacesGraph, Event.writesLeases,
          Event.writesEffects, Event.writesActions, Event.writesResources, Event.writesRuns]

/-! ### Node entries -/

/-- Writing an entry for every node of a list gives every one of them an entry. -/
theorem has_foldl_insert
    (f : NodeDefinition → NodeRuntime) (nodes : List NodeDefinition) (t : Table NodeRuntime)
    {k : String} (known : t.has k = true ∨ ∃ node ∈ nodes, node.id = k) :
  (nodes.foldl (fun t node => t.insert node.id (f node)) t).has k = true
  := by
  induction nodes generalizing t with
  | nil => simpa using known
  | cons node rest ih =>
      rw [List.foldl_cons]
      apply ih
      rcases known with known | ⟨node', mem, rfl⟩
      · left
        simp [known]
      · rcases List.mem_cons.mp mem with rfl | mem
        · left
          simp
        · right
          exact ⟨node', mem, rfl⟩

/-- Every event keeps the nodes of the graph covered. -/
theorem applyEvent_nodesCovered
    (covered : NodesCovered s) (h : s.applyEvent p n committedAt event = .ok s') :
  NodesCovered s'
  := by
  intro g graph node mem
  cases replaces : event.replacesGraph with
  | false =>
      have frame := applyEvent_frame h
      rw [(frame.graph replaces).1] at graph
      exact frame.known replaces _ (covered g graph node mem)
  | true =>
      cases event with
      | graphImported graph' revision digest =>
          obtain rfl := Except.ok.inj h
          obtain rfl := Option.some.inj graph
          apply has_foldl_insert
          right
          exact ⟨node, mem, rfl⟩
      | graphRevised graph' revision previous superseded impact =>
          obtain rfl := Except.ok.inj h
          rw [reviseGraph_eq] at graph
          obtain rfl := Option.some.inj graph
          rw [reviseGraph, has_foldl_supersedeNode]
          apply has_foldl_insert
          right
          exact ⟨node, mem, rfl⟩
      | _ => simp [Event.replacesGraph] at replaces

end State

/-- In every replayed state the nodes of the graph are covered. -/
theorem Replayable.nodesCovered
    {p : Platform} {s : State} (replayable : Replayable p s) :
  NodesCovered s
  := by
  obtain ⟨projectId, segments, accepted⟩ := replayable
  apply reduceSegmentsFrom_invariant (P := NodesCovered) _ _ _ accepted
  · intro sequence committedAt s event s' covered h
    exact State.applyEvent_nodesCovered covered h
  · intro segment s covered
    exact covered
  · intro g graph
    simp [State.new] at graph

end Dagrail
