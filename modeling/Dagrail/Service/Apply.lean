import Dagrail.Service.Effects
import Dagrail.Service.GraphChange

/-!
# Actions

An action is applied through its reference: a repeated one is answered from the stored command,
a new one is authorized on the head it was listed at and becomes one batch of events, the last of
which records the action.
-/

namespace Dagrail

/-! ### Completions -/

/-- The action that completes a node. -/
def completionAction (node : NodeDefinition) : String :=
  match node.kind with
  | .task => "task.complete"
  | .review => "review.resolve"
  | .decision => "decision.record"
  | .gate => if node.decision.isNone then "attempt.finish" else "gate.evaluate"
  | .effect => "effect.complete"
  | _ => "attempt.finish"

/-- The class of a declared outcome; an undeclared one has none. -/
def outcomeClass (node : NodeDefinition) (outcome : String) : OutcomeClass :=
  match node.outcomes.find? fun o => o.id = outcome with
  | some o => o.outcomeClass
  | none => .unset

/-- The completion a request carries. -/
def decodeCompletionInput (input : Json) : Fallible CompletionInput := do
  let value ← completionDecoder.decode {} input
  validateEvidenceRefs value.evidenceRefs
  .ok value

/-- The outcome a completion names, directly or by reference. -/
def resolveCompletionOutcome (p : Platform) (node : NodeDefinition) (outcome outcomeRef : String) :
    Fallible String := do
  check ((outcome = "") ≠ (outcomeRef = ""))
    "completion input requires exactly one of outcome or outcomeRef"
  if outcome ≠ "" then .ok outcome
  else
    match (node.outcomes.map Outcome.id).filter fun id =>
        outcomeBindingRef p node.id id = outcomeRef with
    | [] => .error ("outcome reference is not declared by node " ++ node.id)
    | id :: rest => do
        check (rest.all fun other => other = id) "outcome reference collision"
        .ok id

/-- What a completion commits: the outcome and facts, what the incident of a failure is classified
as, and the decision record, if the node makes a decision. -/
structure Completion where
  outcome : String
  facts : PredicateFacts
  classification : String := ""
  decision : Option DecisionRecord := none

/-- The completion of a gate: the choice of its policy provider. -/
def gateCompletion (p : Platform) (s : State) (ref : ActionRef) (node : NodeDefinition)
    (attempt : Attempt) (input : Json) (answer : PolicyDecision) (now : Instant) :
    Fallible Completion := do
  let value ← gateDecoder.decode {} input
  let record ← buildGateDecision p s node attempt ref.roleId value input answer now
  .ok { outcome := record.outcome, facts := record.facts, decision := some record }

/-- The completion of another node: the choice of its role. -/
def roleCompletion (p : Platform) (s : State) (ref : ActionRef) (node : NodeDefinition)
    (attempt : Attempt) (input : Json) (now : Instant) : Fallible Completion := do
  let value ← decodeCompletionInput input
  let outcome ← resolveCompletionOutcome p node value.outcome value.outcomeRef
  let value := { value with outcome }
  let result := outcomeClass node outcome
  check (!(node.kind = .task && result = .success && attempt.status ≠ .submitted))
    "successful task completion requires a submitted attempt"
  if node.kind = .effect then
    check ((s.effectForAttempt attempt.id).any fun effect =>
        !(result = .success && effect.status ≠ .confirmed)
          && !(result = .failure && effect.status ≠ .failed))
      "effect outcome is inconsistent with its observed receipt state"
  else .ok ()
  if node.kind = .review ∨ node.kind = .decision then do
    let record ← buildRoleDecision p s node attempt ref.roleId value input now
    .ok
      { outcome, facts := record.facts, classification := value.classification
        decision := some record }
  else .ok { outcome, facts := value.facts, classification := value.classification }

/-- The incident that a failed attempt opens. -/
def attemptIncident (s : State) (ref : ActionRef) (node : NodeDefinition) (attempt : Attempt)
    (completion : Completion) (result : OutcomeClass) (now : Instant) : Incident :=
  let closed : NodeRuntime :=
    { status := .terminal, outcome := completion.outcome, outcomeClass := result
      facts := completion.facts }
  { id := "attempt:" ++ attempt.id
    sourceType := "attempt"
    sourceId := attempt.id
    nodeId := node.id
    ownerRole := ref.roleId
    status := .opened
    classification :=
      if completion.classification = "" then "work-product" else completion.classification
    deadline := .utc (now + Duration.hour)
    attemptBudget := 2
    progressMetric := "new candidate or changed failure classification"
    dependencyCut := dependencyCut { s with nodes := s.nodes.insert node.id closed } node.id
    openedAt := .utc now
    updatedAt := .utc now }

/-- Does an outcome of the class open an incident? -/
def OutcomeClass.opensIncident (result : OutcomeClass) : Bool :=
  result = .failure || result = .cancelled

/-! ### Events of an action -/

/-- What an action commits besides its record. -/
structure ActionEffect where
  events : List Event
  attemptId : String
  input : Json
  committedAt : Instant

/-- A document with one text. -/
def refDocument (name value : String) : Json :=
  .obj [(name, .str value)]

/-- A renewal binds the role to the same session again. -/
def renewalEvents (ref : ActionRef) (lease : RoleLease) (input : Json) (now : Instant) :
    Fallible ActionEffect := do
  let seconds ← renewalDecoder.decode 0 input
  let ttl := if seconds = 0 then 15 * 60 else seconds
  let renewed := { lease with
    boundAt := .utc now
    expiresAt := .utc (now + ttl * Duration.second)
    active := true }
  .ok { events := [.roleBound renewed], attemptId := ref.attemptId, input, committedAt := now }

/-- The resources an attempt leases when it starts. -/
def startLeases (ref : ActionRef) (node : NodeDefinition) (attemptId : String) (env : Env)
    (now : Instant) : List Event :=
  node.resources.zipIdx.map fun (request, i) =>
    .resourceLeased
      { id := env.newID (i + 2)
        kind := request.kind
        quantity := request.quantity
        nodeId := node.id
        attemptId
        roleId := ref.roleId
        status := .active
        closureStatus := .pending
        leasedAt := .utc now }

/-- A start leases a new attempt of a ready node, runs it, and leases its resources. -/
def startEvents (s : State) (env : Env) (ref : ActionRef) (node : NodeDefinition) (input : Json)
    (now : Instant) : Fallible ActionEffect := do
  check ((s.nodes.get node.id).status = .planned && (computeFrontier s).ready.contains node.id)
    "node is not ready"
  let attempt : Attempt :=
    { id := env.newID 1
      nodeId := node.id
      roleId := ref.roleId
      number := (s.nodeAttempts.get node.id).length + 1
      status := .leased
      startedAt := .utc now
      updatedAt := .utc now }
  .ok
    { events :=
        .attemptLeased attempt :: .attemptStatusChanged attempt.id .running (.utc now)
          :: startLeases ref node attempt.id env now
      attemptId := attempt.id
      input
      committedAt := now }

/-- A checkpoint records the progress of an attempt. -/
def checkpointEvents (s : State) (env : Env) (ref : ActionRef) (input : Json) (now : Instant) :
    Fallible ActionEffect := do
  let attempt ← activeAttempt s ref
  let value ← checkpointInputDecoder.decode {} input
  check (!blank value.summary && value.summary.utf8ByteSize ≤ 2048)
    "checkpoint summary must be 1..2048 bytes"
  check (value.evidenceRefs.all fun e => e.digest ≠ "" && e.type ≠ "" && decide (0 ≤ e.size))
    "evidence refs require digest, type and non-negative size"
  .ok
    { events :=
        [.attemptCheckpointed
          { id := env.newID 1
            attemptId := attempt.id
            summary := value.summary
            evidenceRefs := value.evidenceRefs
            createdAt := .utc now }]
      attemptId := ref.attemptId
      input
      committedAt := now }

/-- A publication stores the evidence of an attempt's execution. -/
def publishEvents (p : Platform) (s : State) (ref : ActionRef) (node : NodeDefinition)
    (input : Json) (now : Instant) : Fallible ActionEffect := do
  let attempt ← activeAttempt s ref
  let value ← publishDecoder.decode default input
  let pack ← buildExecutionPackage p s node attempt value now
  check (!s.evidencePackages.has pack.id)
    ("execution package " ++ pack.id ++ " is already published")
  .ok
    { events := [.evidencePackagePublished pack]
      attemptId := ref.attemptId
      input := refDocument "packageId" pack.id
      committedAt := now }

/-- An assessment says whether an execution may be reused. -/
def assessEvents (p : Platform) (s : State) (ref : ActionRef) (input : Json) (now : Instant) :
    Fallible ActionEffect := do
  let attempt ← activeAttempt s ref
  let value ← reuseDecoder.decode default input
  let decision ← buildReuseDecision p s attempt value now
  check (!s.reuseDecisions.has decision.id)
    ("reuse decision " ++ decision.id ++ " is already recorded")
  .ok
    { events := [.evidenceReuseAssessed decision]
      attemptId := ref.attemptId
      input := refDocument "decisionId" decision.id
      committedAt := now }

/-- The status an action moves an attempt to. -/
def targetStatus (kind : String) : AttemptStatus :=
  if kind = "attempt.wait" then .waiting
  else if kind = "attempt.resume" then .running
  else .submitted

/-- Waiting, resuming and submitting change the status of an attempt. -/
def statusEvents (s : State) (ref : ActionRef) (input : Json) (now : Instant) :
    Fallible ActionEffect := do
  let attempt ← activeAttempt s ref
  check (!(ref.kind = "attempt.resume" && attempt.status ≠ .waiting))
    "only a waiting attempt can resume"
  .ok
    { events := [.attemptStatusChanged attempt.id (targetStatus ref.kind) (.utc now)]
      attemptId := ref.attemptId
      input
      committedAt := now }

/-- The events of a completion. -/
def Completion.events (s : State) (ref : ActionRef) (node : NodeDefinition) (attempt : Attempt)
    (completion : Completion) (now : Instant) : List Event :=
  let result := outcomeClass node completion.outcome
  (completion.decision.toList.map Event.decisionRecorded)
    ++ [.attemptFinished attempt.id completion.outcome result completion.facts (.utc now)]
    ++ if result.opensIncident then
        [.incidentOpened (attemptIncident s ref node attempt completion result now)]
      else []

/-- A completion closes an attempt without active resources. A gate asks its policy provider, and
the authorization is checked again when the answer is there. -/
def completionEvents (p : Platform) (s : State) (env : Env) (ref : ActionRef)
    (node : NodeDefinition) (input : Json) (answer : PolicyDecision) (now : Instant) :
    Fallible ActionEffect := do
  let attempt ← activeAttempt s ref
  check (ref.kind = completionAction node)
    ("action " ++ ref.kind ++ " cannot complete node kind " ++ node.kind.text)
  check (activeResourceIDs s attempt.id = [])
    ("attempt " ++ attempt.id
      ++ " has active resources; close or reconcile them before completion")
  let (completion, now) ←
    if ref.kind = "gate.evaluate" then do
      let commitAt := env.clock 0
      let completion ← gateCompletion p s ref node attempt input answer commitAt
      let _ ← ref.authorize p s commitAt
      pure (completion, commitAt)
    else do
      let completion ← roleCompletion p s ref node attempt input now
      pure (completion, now)
  let result := outcomeClass node completion.outcome
  check (result ≠ .unset)
    ("outcome " ++ completion.outcome ++ " is not declared by node " ++ node.id)
  check (!(result = .retryable && decide (node.retryBudget < attempt.number)))
    ("node " ++ node.id ++ " retry budget is exhausted")
  check (!result.opensIncident || completion.classification = ""
      || incidentClassifications.contains completion.classification)
    ("invalid incident classification " ++ completion.classification)
  .ok
    { events := completion.events s ref node attempt now
      attemptId := ref.attemptId
      input := match completion.decision with
        | some record => refDocument "decisionId" record.id
        | none => input
      committedAt := now }

/-- The events of an action on a node, by its kind. -/
def actionEvents (p : Platform) (s : State) (env : Env) (ref : ActionRef) (lease : RoleLease)
    (node : NodeDefinition) (input : Json) (answer : PolicyDecision) (now : Instant) :
    Fallible ActionEffect :=
  if ref.kind = "role.renew" then renewalEvents ref lease input now
  else if ref.kind = "node.start" then startEvents s env ref node input now
  else if ref.kind = "attempt.checkpoint" then checkpointEvents s env ref input now
  else if ref.kind = "evidence.publish" then publishEvents p s ref node input now
  else if ref.kind = "evidence.assess-reuse" then assessEvents p s ref input now
  else if ["attempt.wait", "attempt.resume", "attempt.submit"].contains ref.kind then
    statusEvents s ref input now
  else if ["task.complete", "review.resolve", "decision.record", "effect.complete",
      "attempt.finish", "gate.evaluate"].contains ref.kind then
    completionEvents p s env ref node input answer now
  else .error ("unsupported action kind " ++ ref.kind)

/-! ### Actions on incidents and roles -/

/-- Resolve an incident in favour of a repair node, through an action reference. -/
def applyIncidentSupersedeAction (p : Platform) (s : State) (env : Env) (ref : ActionRef)
    (input : Json) (idempotencyKey : String) : Fallible (Option Batch) := do
  check (ref.projectId = s.projectId) "incident action reference belongs to another project"
  validateAllowedActionInput incidentSupersedeInputSchema input
  let note ← noteDecoder.decodeStrict "" input
  check (note ≠ "" && note.utf8ByteSize ≤ 1024) "incident supersede note must be 1..1024 bytes"
  let call : IncidentCall := .supersede ref.successorNodeId note
  check (ref.current p s && ref.incidentId ≠ "" && ref.successorNodeId ≠ "")
    "incident action reference is stale or incomplete"
  let now := env.clock 0
  let _ ← ref.authorize p s now
  let _ ← requireRoleCapability s ref.roleId (env.clock 1) [.incidentManage]
  let incident ← need (s.incidents.lookup ref.incidentId) ("unknown incident " ++ ref.incidentId)
  check (incident.ownerRole = "" || incident.ownerRole = ref.roleId)
    ("incident " ++ ref.incidentId ++ " belongs to role " ++ incident.ownerRole)
  let changed ← supersedeIncidentValue ref.successorNodeId note incident s now
  .ok (some (incidentBatch env "incident.supersede" ref.roleId idempotencyKey
    (p.hash.requestDigest call.kind call.document) ref.incidentId changed now))

/-- The resolution a controller asks for. -/
def decodeIncidentControlResolveInput (p : Platform) (input : Json) :
    Fallible IncidentControlResolveInput := do
  validateAllowedActionInput incidentControlResolveInputSchema input
  let value ← incidentControlResolveDecoder.decodeStrict {} input
  validateIncidentText p "controller incident resolution" value.resolution 1024
  validateIncidentText p "controller incident note" value.note 1024
  check (incidentControlDispositions.contains value.disposition)
    ("invalid controller incident disposition " ++ value.disposition)
  check (value.resolution ≠ incidentResolutionSupersededByRepair)
    ("resolution " ++ value.resolution ++ " is reserved for incident supersede")
  .ok value

/-- Resolve an incident as a controller, through an action reference. -/
def applyIncidentControlResolveAction (p : Platform) (s : State) (env : Env) (ref : ActionRef)
    (input : Json) (idempotencyKey : String) : Fallible (Option Batch) := do
  check (ref.projectId = s.projectId) "incident action reference belongs to another project"
  let value ← decodeIncidentControlResolveInput p input
  check (ref.current p s && ref.incidentId ≠ "") "incident action reference is stale or incomplete"
  let now := env.clock 0
  let _ ← ref.authorize p s now
  let _ ← requireRoleCapability s ref.roleId (env.clock 1) [.incidentControl]
  let incident ← need (s.incidents.lookup ref.incidentId) ("unknown incident " ++ ref.incidentId)
  check (ref.nodeId = incident.nodeId) "incident action reference target changed"
  let changed ← controlResolveIncidentValue p ref.roleId value incident s now
  .ok (some (incidentBatch env "incident.control-resolve" ref.roleId idempotencyKey
    (incidentControlResolveRequestDigest p value) ref.incidentId changed now))

/-- The transfer a controller asks for. -/
def decodeRoleControlTransferInput (p : Platform) (input : Json) :
    Fallible RoleControlTransferInput := do
  validateAllowedActionInput roleControlTransferInputSchema input
  let value ← roleControlTransferDecoder.decodeStrict {} input
  validateRoleTransferReason p value.reason
  .ok value

/-- The transfer that an action reference and its input ask for. -/
def ActionRef.transfer (ref : ActionRef) (value : RoleControlTransferInput)
    (idempotencyKey : String) : TransferInput :=
  { actorRole := ref.roleId
    actorSessionId := ref.sessionId
    roleId := ref.targetRoleId
    expectedSessionId := ref.previousSessionId
    harness := value.harness
    sessionId := value.sessionId
    ttl := value.ttlSeconds * Duration.second
    reason := value.reason
    idempotencyKey }

/-! ### Applying an action -/

/-- A request to apply an action: the reference, the input of the given encoded size, and what the
providers that the action involves answer. -/
structure ActionCall where
  ref : ActionRef
  input : Json
  inputBytes : Nat := 0
  idempotencyKey : String
  decision : PolicyDecision := { outcome := "" }
  prepared : PreparedEffect := {}

/-- The largest action input in bytes. -/
def maxActionInputBytes : Nat := 64 * 1024

/-- The object a command is about, without the prefix of its kind. -/
def objectOf (objectKind ref : String) : String :=
  if (objectKind ++ ":").toList = ref.toList.take (objectKind.length + 1) then
    String.ofList (ref.toList.drop (objectKind.length + 1))
  else ref

/-- Is the stored command under the key the action that is repeated? -/
def ActionCall.repeated (p : Platform) (s : State) (segments : List Segment) (call : ActionCall)
    (requestDigest : String) (command : CommandResult) : Fallible Unit :=
  if call.ref.kind = "incident.supersede" then do
    let incidentId := objectOf "incident" command.objectRef
    let incident ← need ((s.incidents.lookup incidentId).filter fun incident =>
        incident.status = .resolved && incident.remedyNodeId ≠ "")
      "idempotent incident successor result is unavailable"
    validateAllowedActionInput incidentSupersedeInputSchema call.input
    let note ← noteDecoder.decodeStrict "" call.input
    check (note ≠ "" && note.utf8ByteSize ≤ 1024) "incident supersede note must be 1..1024 bytes"
    let intended : IncidentCall := .supersede incident.remedyNodeId note
    check (command.repeats "incident.supersede" call.ref.roleId ("incident:" ++ incidentId)
          (p.hash.requestDigest intended.kind intended.document)
        && call.ref.incidentId = incidentId && call.ref.successorNodeId = incident.remedyNodeId)
      keyBound
  else if call.ref.kind = "incident.control-resolve" then do
    let incidentId := objectOf "incident" command.objectRef
    let value ← decodeIncidentControlResolveInput p call.input
    check (command.repeats "incident.control-resolve" call.ref.roleId ("incident:" ++ incidentId)
          (incidentControlResolveRequestDigest p value)
        && call.ref.incidentId = incidentId
        && (s.incidents.lookup incidentId).any fun incident =>
          incident.controlledBy command.actorRole value)
      keyBound
  else if call.ref.kind = "role.control-transfer" then do
    let transfer ← roleTransferForSequence segments command.sequence
    let value ← decodeRoleControlTransferInput p call.input
    let intended : TransferInput :=
      { call.ref.transfer value call.idempotencyKey with
        actorRole := transfer.actorRole
        actorSessionId := transfer.actorSessionId
        roleId := transfer.next.roleId
        expectedSessionId := transfer.previous.sessionId }
    check (command.kind = "role.control-transfer"
        && command.objectRef = "role:" ++ transfer.next.roleId
        && call.ref.roleId = transfer.actorRole && call.ref.sessionId = transfer.actorSessionId
        && call.ref.targetRoleId = transfer.next.roleId
        && call.ref.previousSessionId = transfer.previous.sessionId
        && (command.requestDigest = "" || command.requestDigest =
          roleTransferRequestDigest p intended (value.ttlSeconds * Duration.second)))
      keyBound
  else checkRepeatedAction p s call.ref command requestDigest

/-- Apply an action that no stored command answers. -/
def ActionCall.execute (p : Platform) (s : State) (segments : List Segment) (env : Env)
    (call : ActionCall) (requestDigest : String) : Fallible (Option Batch) := do
  let ref := call.ref
  if ref.kind = "incident.supersede" then
    applyIncidentSupersedeAction p s env ref call.input call.idempotencyKey
  else if ref.kind = "incident.control-resolve" then
    applyIncidentControlResolveAction p s env ref call.input call.idempotencyKey
  else do
    let authorizedAt := env.clock 0
    let lease ← ref.authorize p s authorizedAt
    if ref.kind = "role.control-transfer" then do
      let value ← decodeRoleControlTransferInput p call.input
      transferRole p s segments env (env.clock 1) (ref.transfer value call.idempotencyKey)
        ref.headHash
    else do
      let node ← ref.target s (env.clock 1)
      validateAllowedActionInput (actionInputSchema p ref.kind node) call.input
      if ref.kind = "resource.close" ∨ ref.kind = "resource.reconcile" then
        applyResourceAction p s (env.after 1) ref call.input call.idempotencyKey requestDigest
      else if ref.kind = "effect.prepare" then
        applyEffectAction p s (env.after 2) ref call.input call.idempotencyKey requestDigest node
          call.prepared
      else do
        let done ← actionEvents p s (env.after 2) ref lease node call.input call.decision
          authorizedAt
        .ok (some
          { command := ref.command p env call.idempotencyKey requestDigest
            events := done.events
              ++ [.actionApplied (ref.record p done.attemptId (.confirmed) (some done.input.canon))]
            committedAt := done.committedAt })

/-- The digest of an action request. -/
def ActionCall.requestDigest (p : Platform) (call : ActionCall) : String :=
  p.hash.requestDigest "action.apply" call.input

/-- Apply an action. -/
def ActionCall.apply (p : Platform) (s : State) (segments : List Segment) (env : Env)
    (call : ActionCall) : Fallible (Option Batch) := do
  check (call.idempotencyKey ≠ "") "idempotency key is required"
  check (call.inputBytes ≤ maxActionInputBytes) "action input cannot exceed 64 KiB"
  check call.input.validateAuthority "action input"
  check (p.screenDocument call.input) "action input contains prohibited material"
  match s.commands.lookup call.idempotencyKey with
  | some command => do
      call.repeated p s segments (call.requestDigest p) command
      .ok none
  | none => call.execute p s segments env (call.requestDigest p)

/-! ### What is committed -/

/-- The ways the events of an action on a node come about. -/
inductive ActionDone (p : Platform) (s : State) (env : Env) (ref : ActionRef) (lease : RoleLease)
    (node : NodeDefinition) (input : Json) (answer : PolicyDecision) (now : Instant)
    (done : ActionEffect) : Prop where
  | renewal (kind : ref.kind = "role.renew") (made : renewalEvents ref lease input now = .ok done)
  | start (kind : ref.kind = "node.start") (made : startEvents s env ref node input now = .ok done)
  | checkpoint (kind : ref.kind = "attempt.checkpoint")
      (made : checkpointEvents s env ref input now = .ok done)
  | publish (kind : ref.kind = "evidence.publish")
      (made : publishEvents p s ref node input now = .ok done)
  | assess (kind : ref.kind = "evidence.assess-reuse")
      (made : assessEvents p s ref input now = .ok done)
  | status (kind : ref.kind ∈ ["attempt.wait", "attempt.resume", "attempt.submit"])
      (made : statusEvents s ref input now = .ok done)
  | completion (kind : ref.kind ∈ ["task.complete", "review.resolve", "decision.record",
        "effect.complete", "attempt.finish", "gate.evaluate"])
      (made : completionEvents p s env ref node input answer now = .ok done)

/-- The events of an action come about in one of these ways. -/
theorem actionEvents_ok
    {p : Platform} {s : State} {env : Env} {ref : ActionRef} {lease : RoleLease}
    {node : NodeDefinition} {input : Json} {answer : PolicyDecision} {now : Instant}
    {done : ActionEffect}
    (h : actionEvents p s env ref lease node input answer now = .ok done) :
  ActionDone p s env ref lease node input answer now done
  := by
  unfold actionEvents at h
  split_ifs at h with renew start checkpoint publish assess status completion
  · exact .renewal renew h
  · exact .start start h
  · exact .checkpoint checkpoint h
  · exact .publish publish h
  · exact .assess assess h
  · exact .status (List.contains_iff_mem.mp status) h
  · exact .completion (List.contains_iff_mem.mp completion) h

/-- The ways an action is committed. -/
inductive ActionCall.Executed (p : Platform) (s : State) (segments : List Segment) (env : Env)
    (call : ActionCall) (b : Batch) : Prop where
  | supersede (kind : call.ref.kind = "incident.supersede")
      (made : applyIncidentSupersedeAction p s env call.ref call.input call.idempotencyKey
        = .ok (some b))
  | controlResolve (kind : call.ref.kind = "incident.control-resolve")
      (made : applyIncidentControlResolveAction p s env call.ref call.input call.idempotencyKey
        = .ok (some b))
  | transfer (kind : call.ref.kind = "role.control-transfer") (value : RoleControlTransferInput)
      (made : transferRole p s segments env (env.clock 1)
        (call.ref.transfer value call.idempotencyKey) call.ref.headHash = .ok (some b))
  | resource (kind : call.ref.kind = "resource.close" ∨ call.ref.kind = "resource.reconcile")
      (lease : RoleLease) (node : NodeDefinition)
      (authorized : call.ref.authorize p s (env.clock 0) = .ok lease)
      (target : call.ref.target s (env.clock 1) = .ok node)
      (made : applyResourceAction p s (env.after 1) call.ref call.input call.idempotencyKey
        (call.requestDigest p) = .ok (some b))
  | effect (kind : call.ref.kind = "effect.prepare")
      (lease : RoleLease) (node : NodeDefinition)
      (authorized : call.ref.authorize p s (env.clock 0) = .ok lease)
      (target : call.ref.target s (env.clock 1) = .ok node)
      (made : applyEffectAction p s (env.after 2) call.ref call.input call.idempotencyKey
        (call.requestDigest p) node call.prepared = .ok (some b))
  | action (lease : RoleLease) (node : NodeDefinition) (done : ActionEffect)
      (authorized : call.ref.authorize p s (env.clock 0) = .ok lease)
      (target : call.ref.target s (env.clock 1) = .ok node)
      (made : ActionDone p s (env.after 2) call.ref lease node call.input call.decision
        (env.clock 0) done)
      (events : b.events = done.events ++
        [.actionApplied (call.ref.record p done.attemptId .confirmed (some done.input.canon))])
      (command : b.command = call.ref.command p env call.idempotencyKey (call.requestDigest p))

/-- An action that is committed has a new key and is committed in one of these ways. -/
theorem ActionCall.apply_ok
    {p : Platform} {s : State} {segments : List Segment} {env : Env} {call : ActionCall}
    {b : Batch} (h : call.apply p s segments env = .ok (some b)) :
  s.commands.lookup call.idempotencyKey = none ∧ call.Executed p s segments env b
  := by
  simp only [apply, bind_eq_ok] at h
  obtain ⟨_, -, _, -, _, -, _, -, h⟩ := h
  split at h
  · simp at h
  · rename_i unknown
    refine ⟨unknown, ?_⟩
    simp only [execute] at h
    split at h
    · rename_i kind
      exact .supersede kind h
    · split at h
      · rename_i kind
        exact .controlResolve kind h
      · simp only [bind_eq_ok] at h
        obtain ⟨lease, authorized, h⟩ := h
        split at h
        · rename_i kind
          simp only [bind_eq_ok] at h
          obtain ⟨value, -, made⟩ := h
          exact .transfer kind value made
        · simp only [bind_eq_ok] at h
          obtain ⟨node, target, _, -, h⟩ := h
          split at h
          · rename_i kind
            exact .resource kind lease node authorized target h
          · split at h
            · rename_i kind
              exact .effect kind lease node authorized target h
            · simp only [bind_eq_ok, Except.ok.injEq, Option.some.injEq] at h
              obtain ⟨done, made, rfl⟩ := h
              exact .action lease node done authorized target (actionEvents_ok made) rfl rfl

/-- An incident that is superseded through an action is committed like any other change. -/
theorem applyIncidentSupersedeAction_ok
    {p : Platform} {s : State} {env : Env} {ref : ActionRef} {input : Json} {key : String}
    {b : Batch} (h : applyIncidentSupersedeAction p s env ref input key = .ok (some b)) :
  (∃ note, IncidentCommit s (supersedeIncidentValue ref.successorNodeId note) ref.incidentId key b) ∧
    b.command.kind = "incident.supersede"
  := by
  simp only [applyIncidentSupersedeAction, bind_eq_ok, need_eq_ok, Except.ok.injEq,
    Option.some.injEq] at h
  obtain ⟨_, -, _, -, note, -, _, -, _, -, _, -, _, -, incident, known, _, -, next, changed, rfl⟩ := h
  exact ⟨⟨note, ⟨incident, next, _, known, changed, rfl⟩, rfl, rfl⟩, rfl⟩

/-- An incident that a controller resolves through an action is committed like any other change. -/
theorem applyIncidentControlResolveAction_ok
    {p : Platform} {s : State} {env : Env} {ref : ActionRef} {input : Json} {key : String}
    {b : Batch} (h : applyIncidentControlResolveAction p s env ref input key = .ok (some b)) :
  (∃ value, IncidentCommit s (controlResolveIncidentValue p ref.roleId value) ref.incidentId key
      b) ∧
    b.command.kind = "incident.control-resolve"
  := by
  simp only [applyIncidentControlResolveAction, bind_eq_ok, need_eq_ok, Except.ok.injEq,
    Option.some.injEq] at h
  obtain ⟨_, -, value, -, _, -, _, -, _, -, incident, known, _, -, next, changed, rfl⟩ := h
  exact ⟨⟨value, ⟨incident, next, _, known, changed, rfl⟩, rfl, rfl⟩, rfl⟩

/-- A renewal binds the role to the same session. -/
theorem renewalEvents_ok
    {ref : ActionRef} {lease : RoleLease} {input : Json} {now : Instant} {done : ActionEffect}
    (h : renewalEvents ref lease input now = .ok done) :
  ∃ ttl, done =
    { events := [.roleBound { lease with
        boundAt := .utc now, expiresAt := .utc (now + ttl * Duration.second), active := true }]
      attemptId := ref.attemptId
      input
      committedAt := now }
  := by
  simp only [renewalEvents, bind_eq_ok, Except.ok.injEq] at h
  obtain ⟨seconds, -, rfl⟩ := h
  exact ⟨_, rfl⟩

/-- The attempt that a start leases. -/
def startedAttempt (s : State) (env : Env) (ref : ActionRef) (node : NodeDefinition)
    (now : Instant) : Attempt :=
  { id := env.newID 1
    nodeId := node.id
    roleId := ref.roleId
    number := (s.nodeAttempts.get node.id).length + 1
    status := .leased
    startedAt := .utc now
    updatedAt := .utc now }

/-- A start leases a new attempt of a ready node and runs it. -/
theorem startEvents_ok
    {s : State} {env : Env} {ref : ActionRef} {node : NodeDefinition} {input : Json}
    {now : Instant} {done : ActionEffect} (h : startEvents s env ref node input now = .ok done) :
  (s.nodes.get node.id).status = .planned ∧ node.id ∈ (computeFrontier s).ready ∧
    done =
      { events :=
          .attemptLeased (startedAttempt s env ref node now)
            :: .attemptStatusChanged (env.newID 1) .running (.utc now)
            :: startLeases ref node (env.newID 1) env now
        attemptId := env.newID 1
        input
        committedAt := now }
  := by
  simp only [startEvents, bind_eq_ok, check_eq_ok, Bool.and_eq_true, decide_eq_true_eq,
    List.contains_iff_mem, Except.ok.injEq] at h
  obtain ⟨_, ⟨planned, ready⟩, rfl⟩ := h
  exact ⟨planned, ready, rfl⟩

/-- A checkpoint is one of an active attempt. -/
theorem checkpointEvents_ok
    {s : State} {env : Env} {ref : ActionRef} {input : Json} {now : Instant}
    {done : ActionEffect} (h : checkpointEvents s env ref input now = .ok done) :
  ∃ attempt checkpoint, activeAttempt s ref = .ok attempt ∧ checkpoint.id = env.newID 1 ∧
    checkpoint.attemptId = attempt.id ∧ done.events = [.attemptCheckpointed checkpoint]
  := by
  simp only [checkpointEvents, bind_eq_ok, Except.ok.injEq] at h
  obtain ⟨attempt, active, value, -, _, -, _, -, rfl⟩ := h
  exact ⟨attempt, _, active, rfl, rfl, rfl⟩

/-- A publication stores a package that was built for an active attempt. -/
theorem publishEvents_ok
    {p : Platform} {s : State} {ref : ActionRef} {node : NodeDefinition} {input : Json}
    {now : Instant} {done : ActionEffect} (h : publishEvents p s ref node input now = .ok done) :
  ∃ attempt value pack, activeAttempt s ref = .ok attempt ∧
    buildExecutionPackage p s node attempt value now = .ok pack ∧
    s.evidencePackages.has pack.id = false ∧ done.events = [.evidencePackagePublished pack]
  := by
  simp only [publishEvents, bind_eq_ok, check_eq_ok, Bool.not_eq_true', Except.ok.injEq] at h
  obtain ⟨attempt, active, value, -, pack, built, _, new, rfl⟩ := h
  exact ⟨attempt, value, pack, active, built, new, rfl⟩

/-- An assessment stores a decision that was built for an active attempt. -/
theorem assessEvents_ok
    {p : Platform} {s : State} {ref : ActionRef} {input : Json} {now : Instant}
    {done : ActionEffect} (h : assessEvents p s ref input now = .ok done) :
  ∃ attempt value decision, activeAttempt s ref = .ok attempt ∧
    buildReuseDecision p s attempt value now = .ok decision ∧
    s.reuseDecisions.has decision.id = false ∧ done.events = [.evidenceReuseAssessed decision]
  := by
  simp only [assessEvents, bind_eq_ok, check_eq_ok, Bool.not_eq_true', Except.ok.injEq] at h
  obtain ⟨attempt, active, value, -, decision, built, _, new, rfl⟩ := h
  exact ⟨attempt, value, decision, active, built, new, rfl⟩

/-- A status change is one of an active attempt. -/
theorem statusEvents_ok
    {s : State} {ref : ActionRef} {input : Json} {now : Instant} {done : ActionEffect}
    (h : statusEvents s ref input now = .ok done) :
  ∃ attempt, activeAttempt s ref = .ok attempt ∧
    done.events = [.attemptStatusChanged attempt.id (targetStatus ref.kind) (.utc now)]
  := by
  simp only [statusEvents, bind_eq_ok, Except.ok.injEq] at h
  obtain ⟨attempt, active, _, -, rfl⟩ := h
  exact ⟨attempt, active, rfl⟩

/-- Where the completion of an attempt comes from: a gate's provider or the role of the node. -/
inductive Completion.Made (p : Platform) (s : State) (ref : ActionRef) (node : NodeDefinition)
    (attempt : Attempt) (input : Json) (answer : PolicyDecision) (completion : Completion)
    (now : Instant) : Prop where
  | gate (kind : ref.kind = "gate.evaluate")
      (made : gateCompletion p s ref node attempt input answer now = .ok completion)
  | role (kind : ref.kind ≠ "gate.evaluate")
      (made : roleCompletion p s ref node attempt input now = .ok completion)

/-- A completion closes an active attempt without active resources by a declared outcome. -/
theorem completionEvents_ok
    {p : Platform} {s : State} {env : Env} {ref : ActionRef} {node : NodeDefinition}
    {input : Json} {answer : PolicyDecision} {now : Instant} {done : ActionEffect}
    (h : completionEvents p s env ref node input answer now = .ok done) :
  ∃ attempt, ∃ completion : Completion, ∃ closed, activeAttempt s ref = .ok attempt ∧
    ref.kind = completionAction node ∧ activeResourceIDs s attempt.id = [] ∧
    completion.Made p s ref node attempt input answer closed ∧
    outcomeClass node completion.outcome ≠ .unset ∧
    done.events = completion.events s ref node attempt closed
  := by
  simp only [completionEvents, bind_eq_ok, check_eq_ok, decide_eq_true_eq] at h
  obtain ⟨attempt, active, _, kind, _, settled, h⟩ := h
  split at h
  · rename_i gate
    simp only [bind_eq_ok, pure_eq_ok, check_eq_ok, decide_eq_true_eq, Except.ok.injEq] at h
    obtain ⟨completion, made, _, -, _, rfl, _, declared, _, -, _, -, rfl⟩ := h
    exact ⟨attempt, completion, _, active, kind, settled, .gate gate made, declared, rfl⟩
  · rename_i role
    simp only [bind_eq_ok, pure_eq_ok, check_eq_ok, decide_eq_true_eq, Except.ok.injEq] at h
    obtain ⟨completion, made, _, rfl, _, declared, _, -, _, -, rfl⟩ := h
    exact ⟨attempt, completion, _, active, kind, settled, .role role made, declared, rfl⟩

end Dagrail
