import Dagrail.Service.Decision
import Dagrail.Service.Evidence

/-!
# Replay

Replay takes the segments of a journal one after the other and applies their events to the
state. It trusts what the writers checked; what it still refuses is an event that does not fit
the state at all.
-/

namespace Dagrail

/-! ### Authority fences -/

/-- Is the value one of the given texts a replacement authority may come from? -/
def replacementOperations : List String :=
  ["rotation", "legacy-adoption", "relocation"]

/-- Is the establishment well formed for the project? -/
def validateAuthorityEstablishment (e : AuthorityEstablishment) (projectId : String) : Bool :=
  e.apiVersion = "dagrail.io/authority-establishment/v1alpha1" && e.kind = "AuthorityEstablishment"
    && e.projectId = projectId && canonicalUUID e.projectId && validDigest e.provenanceDigest
    && (if e.operation = "initialization" then e.previousProjectId = ""
        else replacementOperations.contains e.operation && canonicalUUID e.previousProjectId
          && e.previousProjectId ≠ e.projectId)
    && e.establishedAt.parse.isSome

/-- Is the retirement well formed for its kind? -/
def validateAnyRetirement (r : AuthorityRetirement) : Bool :=
  if r.apiVersion = "dagrail.io/authority-retirement/v1alpha1" && r.kind = "AuthorityRetirement" then
    validBareHash r.previousHead && validBareHash r.recoveryHead
      && validDigest r.recoveryBackupDigest && canonicalUUID r.replacementProjectId
      && r.replacementProjectId ≠ r.previousProjectId && r.rotatedAt.parse.isSome
  else if r.apiVersion = "dagrail.io/authority-adoption/v1alpha1"
      && r.kind = "LegacyAuthorityRetirement" then
    r.recoveryHead = r.previousHead && (r.previousHead = "" || validBareHash r.previousHead)
      && validDigest r.recoveryBackupDigest && canonicalUUID r.previousProjectId
      && canonicalUUID r.replacementProjectId && r.previousProjectId ≠ r.replacementProjectId
      && r.rotatedAt.parse.isSome
  else if r.apiVersion = "dagrail.io/authority-relocation/v1alpha1"
      && r.kind = "AuthorityRelocationRetirement" then
    canonicalUUID r.previousProjectId && canonicalUUID r.previousLocatorId
      && canonicalUUID r.replacementProjectId && r.previousProjectId ≠ r.previousLocatorId
      && r.previousProjectId ≠ r.replacementProjectId
      && r.previousLocatorId ≠ r.replacementProjectId && validBareHash r.previousHead
      && validBareHash r.recoveryHead && validDigest r.recoveryBackupDigest
      && validDigest r.targetRootDigest && validDigest r.destinationRootDigest
      && r.rotatedAt.parse.isSome
  else false

/-- The command of a fence segment is derived from the hash of its payload. -/
def fenceCommand (kind : String) (projectId : String) (digest : Hex) : Command :=
  { id := kind ++ "-" ++ String.ofList (digest.text.toList.take 32)
    kind := if kind = "authority-establish" then "authority.establish" else "authority.retire"
    actorRole := "dagrail.recovery"
    idempotencyKey := kind ++ "/" ++ digest.text
    objectRef := "project:" ++ projectId
    requestDigest := digest.digest }

/-! ### Single events -/

namespace State

/-- A migration receipt is bound to this segment and graph and is the first of its id. -/
def importHistory (s : State) (sequence : Nat) (receipt : LifecycleMigrationReceipt) :
    Fallible State := do
  check (receipt.id ≠ "" && receipt.graphRevision = s.graphRevision
      && receipt.targetSequence = sequence && decide (0 < receipt.recordCount)
      && decide (0 < receipt.nativeEventCount))
    "lifecycle migration receipt is invalid"
  check (!s.lifecycleMigrations.has receipt.id)
    ("lifecycle migration " ++ receipt.id ++ " is duplicated")
  .ok { s with lifecycleMigrations := s.lifecycleMigrations.insert receipt.id receipt }

/-- All nodes of an imported graph are planned. -/
def importGraph (s : State) (graph : GraphDefinition) (revision : String) : State :=
  { s with
    graph := some graph
    graphRevision := revision
    nodes := graph.spec.nodes.foldl (fun t node => t.insert node.id { status := .planned }) ∅ }

/-- The node runtimes after a revision: kept where the node was there, planned where it is new. -/
def revisedNodes (previous : Table NodeRuntime) (graph : GraphDefinition) : Table NodeRuntime :=
  graph.spec.nodes.foldl
    (fun t node => t.insert node.id ((previous.lookup node.id).getD { status := .planned })) ∅

/-- Release the active resources of an attempt. -/
def releaseResources (s : State) (attemptId : String) (at_ : Stamp) : State :=
  { s with
    resources := s.resources.mapValues fun lease =>
      if lease.attemptId = attemptId ∧ lease.status = .active then
        { lease with status := .released, releasedAt := at_ }
      else lease }

/-- Mark a node superseded and close its last attempt. -/
def supersedeNode (committedAt : Stamp) (s : State) (nodeId : String) : State :=
  let s := match s.nodes.lookup nodeId with
    | some runtime =>
        { s with nodes := s.nodes.insert nodeId { runtime with status := .superseded } }
    | none => s
  match s.latestAttempt nodeId with
  | some attempt =>
      if attempt.status = .terminal then s
      else
        let closed := { attempt with
          status := .terminal, outcome := "superseded", updatedAt := committedAt }
        releaseResources { s with attempts := s.attempts.insert attempt.id closed } attempt.id
          committedAt
  | none => s

/-- A revised graph replaces the old one and closes what it supersedes. -/
def reviseGraph (s : State) (graph : GraphDefinition) (revision : String)
    (superseded : List String) (committedAt : Stamp) : State :=
  superseded.foldl (supersedeNode committedAt)
    { s with
      graph := some graph
      graphRevision := revision
      nodes := revisedNodes s.nodes graph }

/-- A released role keeps its lease, no longer active. -/
def releaseRole (s : State) (roleId : String) : State :=
  { s with leases := s.leases.insert roleId { s.leases.get roleId with active := false } }

/-- A started attempt makes its node active. -/
def startAttempt (s : State) (attempt : Attempt) : State :=
  { s with
    attempts := s.attempts.insert attempt.id attempt
    nodeAttempts := s.nodeAttempts.insert attempt.nodeId
      (s.nodeAttempts.get attempt.nodeId ++ [attempt.id])
    nodes := s.nodes.insert attempt.nodeId { status := .active } }

/-- An automatic event settles a planned node. -/
def settleNode (s : State) (nodeId : String) (runtime : NodeRuntime) (message : String) :
    Fallible State := do
  check ((s.nodes.lookup nodeId).any fun r => r.status = .planned) (message ++ nodeId)
  .ok { s with nodes := s.nodes.insert nodeId runtime }

/-- A checkpoint becomes the current one of its attempt. -/
def recordCheckpoint (s : State) (checkpoint : Checkpoint) : State :=
  let attempt := s.attempts.get checkpoint.attemptId
  { s with
    checkpoints := s.checkpoints.insert checkpoint.id checkpoint
    attempts := s.attempts.insert attempt.id
      { attempt with checkpointId := checkpoint.id, updatedAt := checkpoint.createdAt } }

/-- A published package belongs to an attempt of its node under the current graph. -/
def publishPackage (p : Platform) (s : State) (sequence : Nat) (pack : ExecutionPackage) :
    Fallible State := do
  let attempt ← need (s.attempts.lookup pack.attemptId)
    ("execution package " ++ pack.id ++ " references an invalid attempt")
  let node ← need (s.nodeDefinition pack.nodeId)
    ("execution package " ++ pack.id ++ " references an invalid attempt")
  check (attempt.nodeId = pack.nodeId && pack.projectId = s.projectId
      && pack.graphRevision = s.graphRevision)
    ("execution package " ++ pack.id ++ " references an invalid attempt")
  validateExecutionPackageRecord p pack node
  check (!s.evidencePackages.has pack.id) ("execution package " ++ pack.id ++ " is duplicated")
  .ok { s with
    evidencePackages := s.evidencePackages.insert pack.id { pack with sequence }
    attemptPackages := s.attemptPackages.insert pack.attemptId
      (s.attemptPackages.get pack.attemptId ++ [pack.id]) }

/-- A reuse decision speaks about a stored package and a known attempt. -/
def assessReuse (p : Platform) (s : State) (sequence : Nat) (decision : ReuseDecision) :
    Fallible State := do
  let pack ← need (s.evidencePackages.lookup decision.packageId)
    ("reuse decision " ++ decision.id ++ " references unknown package " ++ decision.packageId)
  check (s.attempts.has decision.assessedByAttempt)
    ("reuse decision " ++ decision.id ++ " references unknown assessor attempt")
  let node ← need (s.nodeDefinition pack.nodeId)
    ("reuse decision " ++ decision.id ++ " references an unavailable package node")
  validateReuseDecisionRecord p decision pack node
  check (!s.reuseDecisions.has decision.id) ("reuse decision " ++ decision.id ++ " is duplicated")
  .ok { s with
    reuseDecisions := s.reuseDecisions.insert decision.id { decision with sequence }
    packageDecisions := s.packageDecisions.insert decision.packageId
      (s.packageDecisions.get decision.packageId ++ [decision.id]) }

/-- A decision record is valid for the state and new. -/
def recordDecision (p : Platform) (s : State) (sequence : Nat) (decision : DecisionRecord) :
    Fallible State := do
  validateDecisionRecord p decision s
  check (!s.decisions.has decision.id) ("decision record " ++ decision.id ++ " is duplicated")
  .ok { s with
    decisions := s.decisions.insert decision.id { decision with sequence }
    attemptDecisions := s.attemptDecisions.insert decision.attemptId
      (s.attemptDecisions.get decision.attemptId ++ [decision.id]) }

/-- An attempt takes over a status. -/
def changeAttemptStatus (s : State) (attemptId : String) (status : AttemptStatus)
    (updatedAt : Stamp) : State :=
  let attempt := s.attempts.get attemptId
  { s with attempts := s.attempts.insert attempt.id { attempt with status, updatedAt } }

/-- A finished attempt is terminal; its node is terminal too, or planned again for a retry. -/
def finishAttempt (s : State) (attemptId outcome : String) (outcomeClass : OutcomeClass)
    (facts : PredicateFacts) (updatedAt : Stamp) : State :=
  let attempt := s.attempts.get attemptId
  { s with
    attempts := s.attempts.insert attempt.id { attempt with status := .terminal, outcome, updatedAt }
    nodes := s.nodes.insert attempt.nodeId
      { status := if outcomeClass = .retryable then .planned else .terminal
        outcome, outcomeClass, facts } }

/-- A closure observation of an active lease. -/
def observeClosure (s : State) (resourceId : String) (status : ClosureStatus)
    (receipt : Option Json) (updatedAt : Stamp) : Fallible State := do
  let lease ← need ((s.resources.lookup resourceId).filter fun lease => lease.status = .active)
    ("closure observation references invalid resource lease " ++ resourceId)
  check ([ClosureStatus.confirmed, .failed, .unknown].contains status)
    ("closure observation references invalid resource lease " ++ resourceId)
  .ok { s with
    resources := s.resources.insert lease.id
      { lease with closureStatus := status, closureReceipt := receipt, closureUpdatedAt := updatedAt } }

/-- A release of a lease whose closure, if one was observed, is confirmed. -/
def releaseResource (s : State) (resourceId : String) (releasedAt : Stamp) : Fallible State := do
  let lease ← need (s.resources.lookup resourceId)
    ("release references unknown resource lease " ++ resourceId)
  check (lease.closureStatus = .unset || lease.closureStatus = .confirmed)
    ("resource lease " ++ resourceId ++ " cannot release without a confirmed closure")
  .ok { s with
    resources := s.resources.insert lease.id { lease with status := .released, releasedAt } }

/-- The action record of an effect takes over a status, if there is one. -/
def setActionStatus (s : State) (actionId : String) (status : ActionStatus) : State :=
  match s.actions.lookup actionId with
  | some action => { s with actions := s.actions.insert actionId { action with status } }
  | none => s

/-- An admission of a dispatch. -/
def dispatchEffect (s : State) (sequence : Nat) (actionId : String) (at_ : Stamp) :
    Fallible State := do
  let effect ← need (s.effects.lookup actionId) ("dispatch references unknown effect " ++ actionId)
  .ok { s with
    effects := s.effects.insert actionId
      { effect with status := .dispatched, updatedAt := at_, sequence } }

/-- An admission of a reconciliation. -/
def reconcileEffect (s : State) (sequence : Nat) (actionId : String) (at_ : Stamp) :
    Fallible State := do
  let effect ← need (s.effects.lookup actionId) ("reconcile references unknown effect " ++ actionId)
  .ok (setActionStatus
    { s with
      effects := s.effects.insert actionId
        { effect with status := .reconciling, updatedAt := at_, sequence } }
    actionId .reconciling)

/-- The action status that goes with an effect status. -/
def actionStatusOf : EffectStatus → ActionStatus
  | .unset => .unset
  | .prepared => .prepared
  | .dispatched => .dispatched
  | .reconciling => .reconciling
  | .confirmed => .confirmed
  | .failed => .failed
  | .unknown => .unknown
  | .other text => .other text

/-- An observation of an effect. -/
def observeEffect (s : State) (sequence : Nat) (actionId : String) (status : EffectStatus)
    (receipt : Option Json) (updatedAt : Stamp) : State :=
  setActionStatus
    { s with
      effects := s.effects.insert actionId
        { s.effects.get actionId with status, receipt, updatedAt, sequence } }
    actionId (actionStatusOf status)

/-- An update replaces a known incident. -/
def updateIncident (s : State) (incident : Incident) : Fallible State := do
  check (s.incidents.has incident.id) ("update references unknown incident " ++ incident.id)
  .ok { s with incidents := s.incidents.insert incident.id incident }

/-- A resolution of a known incident. -/
def resolveIncident (s : State) (incidentId : String) (resolvedAt : Stamp) : Fallible State := do
  let incident ← need (s.incidents.lookup incidentId)
    ("resolve references unknown incident " ++ incidentId)
  .ok { s with
    incidents := s.incidents.insert incident.id
      { incident with status := .resolved, updatedAt := resolvedAt } }

/-- Apply one event of a segment with the given sequence and time. The two authority fences leave
the state as it is; what they require is checked by `Replay.applyEvent`. -/
def applyEvent (p : Platform) (sequence : Nat) (committedAt : Stamp) (s : State) :
    Event → Fallible State
  | .authorityEstablished _ => .ok s
  | .authorityRetired _ => .ok s
  | .lifecycleHistoryImported receipt => s.importHistory sequence receipt
  | .graphImported graph revision _ => .ok (s.importGraph graph revision)
  | .graphRevised graph revision _ superseded _ =>
      .ok (s.reviseGraph graph revision superseded committedAt)
  | .roleBound lease => .ok { s with leases := s.leases.insert lease.roleId lease }
  | .roleTransferred transfer =>
      .ok { s with leases := s.leases.insert transfer.next.roleId transfer.next }
  | .roleReleased roleId _ => .ok (s.releaseRole roleId)
  | .attemptStarted attempt => .ok (s.startAttempt attempt)
  | .attemptLeased attempt => .ok (s.startAttempt attempt)
  | .nodeAutoCompleted nodeId outcome _ =>
      s.settleNode nodeId { status := .terminal, outcome, outcomeClass := .success }
        "automatic completion references non-planned node "
  | .nodeAutoSkipped nodeId reason _ =>
      s.settleNode nodeId { status := .skipped, outcome := reason, outcomeClass := .cancelled }
        "automatic skip references non-planned node "
  | .attemptCheckpointed checkpoint => .ok (s.recordCheckpoint checkpoint)
  | .evidencePackagePublished pack => s.publishPackage p sequence pack
  | .evidenceReuseAssessed decision => s.assessReuse p sequence decision
  | .decisionRecorded decision => s.recordDecision p sequence decision
  | .attemptStatusChanged attemptId status updatedAt =>
      .ok (s.changeAttemptStatus attemptId status updatedAt)
  | .attemptFinished attemptId outcome outcomeClass facts updatedAt =>
      .ok (s.finishAttempt attemptId outcome outcomeClass facts updatedAt)
  | .resourceLeased lease => .ok { s with resources := s.resources.insert lease.id lease }
  | .resourceClosureObserved resourceId status receipt updatedAt =>
      s.observeClosure resourceId status receipt updatedAt
  | .resourceReleased resourceId releasedAt => s.releaseResource resourceId releasedAt
  | .actionApplied action =>
      .ok { s with actions := s.actions.insert action.id { action with sequence } }
  | .effectPrepared effect =>
      .ok { s with effects := s.effects.insert effect.id { effect with sequence } }
  | .effectDispatched actionId dispatchedAt => s.dispatchEffect sequence actionId dispatchedAt
  | .effectReconciling actionId reconcilingAt => s.reconcileEffect sequence actionId reconcilingAt
  | .effectObserved actionId status receipt updatedAt =>
      .ok (s.observeEffect sequence actionId status receipt updatedAt)
  | .incidentOpened incident => .ok { s with incidents := s.incidents.insert incident.id incident }
  | .incidentUpdated incident => s.updateIncident incident
  | .incidentResolved incidentId resolvedAt => s.resolveIncident incidentId resolvedAt
  | .unsupported type => .error ("unsupported journal event type " ++ type)

end State

/-! ### Segments -/

/-- What the first event that names an object says the command was about. -/
def eventObjectRef : Event → Option String
  | .actionApplied action => if action.id ≠ "" then some ("action:" ++ action.id) else none
  | .effectObserved id _ _ _ | .effectDispatched id _ | .effectReconciling id _ =>
      if id ≠ "" then some ("effect:" ++ id) else none
  | .roleBound lease => if lease.roleId ≠ "" then some ("role:" ++ lease.roleId) else none
  | .roleTransferred transfer =>
      if transfer.next.roleId ≠ "" then some ("role:" ++ transfer.next.roleId) else none
  | .roleReleased roleId _ => if roleId ≠ "" then some ("role:" ++ roleId) else none
  | .incidentUpdated incident => if incident.id ≠ "" then some ("incident:" ++ incident.id) else none
  | _ => none

/-- The object of a command that does not record one. -/
def commandObjectRef (segment : Segment) (s : State) : String :=
  match segment.events.findSome? eventObjectRef with
  | some ref => ref
  | none =>
      if segment.command.kind = "graph.import" || segment.command.kind = "graph.change" then
        "graph:" ++ s.graphRevision
      else ""

/-- The request digest of a command that does not record one: that of an imported graph. -/
def commandRequestDigest (segment : Segment) : String :=
  (segment.events.findSome? fun
    | .graphImported _ _ inputDigest => some inputDigest
    | _ => none).getD ""

/-- The result a retry of the segment's command finds. -/
def Segment.commandResult (segment : Segment) (s : State) : CommandResult :=
  { kind := segment.command.kind
    actorRole := segment.command.actorRole
    objectRef := if segment.command.objectRef = "" then commandObjectRef segment s
      else segment.command.objectRef
    requestDigest := if segment.command.requestDigest = "" then commandRequestDigest segment
      else segment.command.requestDigest
    graphRevision := s.graphRevision
    sequence := segment.sequence }

/-- The state after the events of a segment: the command result is filed under its key, and the
head moves to the segment. -/
def Segment.close (segment : Segment) (s : State) : State :=
  { s with
    commands :=
      if segment.command.idempotencyKey = "" then s.commands
      else s.commands.insert segment.command.idempotencyKey (segment.commandResult s)
    headSequence := segment.sequence
    headHash := segment.segmentHash }

/-- Replay in progress: the state, and whether the authority was established or retired. -/
structure Replay where
  state : State
  established : Bool
  retired : Bool

namespace Replay

/-- Apply one event of a segment, checking the authority fences. -/
def applyEvent (p : Platform) (segment : Segment) (r : Replay) : Event → Fallible Replay
  | .authorityEstablished e => do
      check (!r.established && segment.sequence = 1 && segment.previousHash = ""
          && segment.events.length = 1
          && segment.command = fenceCommand "authority-establish" r.state.projectId
            (p.hash (.establishment e)))
        "authority establishment is not a closed bootstrap command"
      check (validateAuthorityEstablishment e r.state.projectId
          && e.establishedAt = segment.committedAt)
        "authority establishment event is invalid"
      .ok { r with established := true }
  | .authorityRetired e => do
      check (segment.events.length = 1
          && segment.command = fenceCommand "authority-retire" r.state.projectId
            (p.hash (.retirement e)))
        "authority retirement fence is not a closed command"
      check (validateAnyRetirement e && e.previousProjectId = r.state.projectId
          && e.previousHead = segment.previousHash && e.rotatedAt = segment.committedAt)
        "authority retirement event is invalid"
      .ok { r with retired := true }
  | event => do
      let s ← r.state.applyEvent p segment.sequence segment.committedAt event
      .ok { r with state := s }

/-- Apply one segment. Nothing may follow a retirement. -/
def applySegment (p : Platform) (r : Replay) (segment : Segment) : Fallible Replay := do
  check (!r.retired) "journal contains a command after authority retirement"
  let r ← segment.events.foldlM (applyEvent p segment) r
  .ok { r with state := segment.close r.state }

end Replay

/-- Replay segments from a state. -/
def reduceSegmentsFrom (p : Platform) (s : State) (segments : List Segment)
    (established retired : Bool) : Fallible State := do
  let r ← segments.foldlM (Replay.applySegment p) { state := s, established, retired }
  .ok r.state

/-- Replay a whole journal. -/
def reduceSegments (p : Platform) (projectId : String) (segments : List Segment) :
    Fallible State :=
  reduceSegmentsFrom p (State.new projectId) segments false false

/-! ### Invariants of replay -/

namespace Replay

/-- What every event keeps, an event under the fence checks keeps. -/
theorem applyEvent_invariant
    {p : Platform} {P : State → Prop} {segment : Segment}
    (keep : ∀ s event s', P s →
      s.applyEvent p segment.sequence segment.committedAt event = .ok s' → P s')
    {r r' : Replay} {event : Event} (start : P r.state)
    (accepted : applyEvent p segment r event = .ok r') :
  P r'.state
  := by
  unfold applyEvent at accepted
  split at accepted
  · simp only [bind_eq_ok, check_eq_ok, Except.ok.injEq] at accepted
    obtain ⟨_, -, _, -, rfl⟩ := accepted
    exact start
  · simp only [bind_eq_ok, check_eq_ok, Except.ok.injEq] at accepted
    obtain ⟨_, -, _, -, rfl⟩ := accepted
    exact start
  · simp only [bind_eq_ok, Except.ok.injEq] at accepted
    obtain ⟨s, applied, rfl⟩ := accepted
    exact keep _ _ _ start applied

/-- What every event and the closing of a segment keep, a segment keeps. -/
theorem applySegment_invariant
    {p : Platform} {P : State → Prop} {segment : Segment}
    (keep : ∀ s event s', P s →
      s.applyEvent p segment.sequence segment.committedAt event = .ok s' → P s')
    (close : ∀ s, P s → P (segment.close s))
    {r r' : Replay} (start : P r.state) (accepted : applySegment p r segment = .ok r') :
  P r'.state
  := by
  simp only [applySegment, bind_eq_ok, check_eq_ok, Except.ok.injEq] at accepted
  obtain ⟨_, -, r'', events, rfl⟩ := accepted
  apply close
  apply foldlM_invariant (fun r : Replay => P r.state) _ start events
  intro b event b' _ before applied
  exact applyEvent_invariant keep before applied

end Replay

/-- What every event and the closing of a segment keep, replay keeps. -/
theorem reduceSegmentsFrom_invariant
    {p : Platform} {P : State → Prop}
    (keep : ∀ sequence committedAt s event s', P s →
      s.applyEvent p sequence committedAt event = .ok s' → P s')
    (close : ∀ (segment : Segment) s, P s → P (segment.close s))
    {s s' : State} {segments : List Segment} {established retired : Bool}
    (start : P s) (accepted : reduceSegmentsFrom p s segments established retired = .ok s') :
  P s'
  := by
  simp only [reduceSegmentsFrom, bind_eq_ok, Except.ok.injEq] at accepted
  obtain ⟨r, replayed, rfl⟩ := accepted
  apply foldlM_invariant (fun r : Replay => P r.state) _ _ replayed
  · intro b segment b' _ before applied
    exact Replay.applySegment_invariant (keep segment.sequence segment.committedAt) (close segment)
      before applied
  · exact start

/-- A state that some journal replays to. -/
def Replayable (p : Platform) (s : State) : Prop :=
  ∃ projectId segments, reduceSegments p projectId segments = .ok s

/-- Every node of the graph has a run-time entry. -/
def NodesCovered (s : State) : Prop :=
  ∀ g, s.graph = some g → ∀ node ∈ g.spec.nodes, s.nodes.has node.id = true

end Dagrail
