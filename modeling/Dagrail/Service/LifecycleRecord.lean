import Dagrail.Service.LifecycleIncident

/-!
# Commands of an imported history

The events of a command are applied one after the other. The action of the command, if it has one,
uses up what the other events have claimed, and nothing may be left over when the command is
closed.
-/

namespace Dagrail

namespace Lifecycle

variable (p : Platform) (c : LifecycleRecordContext) (s : State) (occurredAt : Stamp)

/-! ### Actions -/

/-- The actions that are recorded as confirmed. -/
def lifecycleConfirmedActionKinds : List String :=
  ["role.renew", "node.start", "attempt.checkpoint", "evidence.publish", "evidence.assess-reuse",
    "attempt.wait", "attempt.resume", "attempt.submit", "task.complete", "review.resolve",
    "decision.record", "effect.complete", "attempt.finish", "gate.evaluate"]

/-- The actions that close an attempt. -/
def completionKinds : List String :=
  ["task.complete", "review.resolve", "decision.record", "effect.complete", "attempt.finish",
    "gate.evaluate"]

/-- An object with one bounded text. -/
def closedRef (name : String) : Schema :=
  .object [name] [] [(name, .bounded 1 256)]

/-- The schema of the input an action record keeps. -/
def persistedActionInputSchema (kind : String) (node : NodeDefinition) : Schema :=
  if ["node.start", "attempt.checkpoint", "attempt.wait", "attempt.resume", "attempt.submit",
      "task.complete", "effect.prepare", "effect.complete", "attempt.finish"].contains kind then
    .anything
  else if kind = "evidence.publish" then closedRef "packageId"
  else if ["evidence.assess-reuse", "review.resolve", "decision.record",
      "gate.evaluate"].contains kind then
    closedRef "decisionId"
  else if ["resource.close", "resource.reconcile"].contains kind then closedRef "resourceId"
  else actionInputSchema p kind node

/-- The one text of an input. -/
def refOf (name : String) (input : Json) : Fallible String :=
  (Decoder.record [Decoder.textField name id fun _ v => v]).decodeStrict "" input

/-- The attempt of an action belongs to its node. Only a renewal may have none. -/
def actionTarget (action : ActionRecord) (node : NodeDefinition) : Fallible Unit :=
  if action.kind = "role.renew" then
    check (action.attemptId = "" || (s.attempts.lookup action.attemptId).any fun attempt =>
        attempt.nodeId = action.nodeId && attempt.roleId = node.role)
      "role renewal attempt binding is inconsistent"
  else
    check (action.attemptId ≠ "" && (s.attempts.lookup action.attemptId).any fun attempt =>
        attempt.nodeId = action.nodeId)
      "action target is inconsistent"

/-- A renewal goes with a binding of the same session within the lease before it. -/
def useRenewal (node : NodeDefinition) (input : Json) : Fallible LifecycleRecordContext := do
  let seconds ← renewalDecoder.decodeStrict 0 input
  let ttl := if seconds = 0 then 15 * 60 else seconds
  let before ← need (c.roleBefore.lookup node.role) "role renewal action has no matching binding"
  let renewed ← need (c.roleBindings.lookup node.role)
    "role renewal action has no matching binding"
  check (before.roleId = renewed.roleId && before.sessionId = renewed.sessionId
      && before.harness = renewed.harness
      && renewed.boundAt.parse.any fun bound => before.covers bound
        && renewed.expiresAt.parse.any fun expires => decide (expires - bound = ttl * Duration.second))
    "role renewal action has no matching binding"
  .ok { c with
    roleBefore := c.roleBefore.erase node.role, roleBindings := c.roleBindings.erase node.role }

/-- A start goes with an attempt introduced and run here, and with the resources of its node. -/
def useStart (action : ActionRecord) (node : NodeDefinition) : Fallible LifecycleRecordContext := do
  let attempt := s.attempts.get action.attemptId
  check (1 ≤ attempt.number && attempt.status = .running
      && (c.attempts.lookup action.attemptId).any (fun a => a.nodeId = action.nodeId)
      && c.statuses.lookup action.attemptId = some .running)
    "node start action does not reference an introduced attempt"
  let mine := c.resourceLeases.values.filter fun resource => resource.attemptId = action.attemptId
  check (mine.length = node.resources.length)
    "node start action does not contain its declared resource leases"
  .ok { c with
    resourceLeases := mine.foldl (fun t resource => t.erase resource.id) c.resourceLeases
    attempts := c.attempts.erase action.attemptId
    statuses := c.statuses.erase action.attemptId }

/-- A checkpoint action goes with the checkpoint it asked for. -/
def useCheckpoint (action : ActionRecord) (input : Json) : Fallible LifecycleRecordContext := do
  let checkpointId := (s.attempts.get action.attemptId).checkpointId
  let checkpoint ← need ((c.checkpoints.lookup checkpointId).filter fun _ => checkpointId ≠ "")
    "checkpoint action has no checkpoint event"
  let value ← checkpointInputDecoder.decode {} input
  check (value.summary = checkpoint.summary && value.evidenceRefs = checkpoint.evidenceRefs)
    "checkpoint action has no checkpoint event"
  .ok { c with checkpoints := c.checkpoints.erase checkpointId }

/-- A waiting, resuming or submitting action goes with its status transition. -/
def useStatus (action : ActionRecord) : Fallible LifecycleRecordContext := do
  let target := targetStatus action.kind
  check ((s.attempts.get action.attemptId).status = target
      && c.statuses.lookup action.attemptId = some target)
    "action has no matching status transition"
  .ok { c with statuses := c.statuses.erase action.attemptId }

/-- A publication goes with its package. -/
def usePackage (action : ActionRecord) (input : Json) : Fallible LifecycleRecordContext := do
  let packageId ← refOf "packageId" input
  check ((c.packages.lookup packageId).any fun pack => pack.attemptId = action.attemptId)
    "evidence action has no execution package event"
  .ok { c with packages := c.packages.erase packageId }

/-- An assessment goes with its reuse decision. -/
def useReuse (action : ActionRecord) (input : Json) : Fallible LifecycleRecordContext := do
  let decisionId ← refOf "decisionId" input
  check ((c.reuseDecisions.lookup decisionId).any fun d => d.assessedByAttempt = action.attemptId)
    "reuse action has no decision event"
  .ok { c with reuseDecisions := c.reuseDecisions.erase decisionId }

/-- A preparation goes with its prepared effect. -/
def useEffect (action : ActionRecord) (node : NodeDefinition) : Fallible LifecycleRecordContext := do
  check (node.kind = .effect && action.status = .prepared)
    "effect action kind or status is invalid"
  check ((s.effects.lookup action.id).any (fun effect =>
        effect.nodeId = action.nodeId && effect.attemptId = action.attemptId
          && effect.status = .prepared)
      && (c.effects.lookup action.id).any fun effect =>
        effect.nodeId = action.nodeId && effect.attemptId = action.attemptId)
    "effect action does not match its prepared effect"
  .ok { c with effects := c.effects.erase action.id }

/-- A closure action goes with its observation, its release and its incident. -/
def useResource (action : ActionRecord) (input : Json) : Fallible LifecycleRecordContext := do
  let resourceId ← refOf "resourceId" input
  check (resourceId ≠ "") "resource action target is invalid"
  let resource ← need (s.resources.lookup resourceId)
    "resource action does not match its closure events"
  let before ← need (c.resourceBefore.lookup resourceId)
    "resource action does not match its closure events"
  let observation ← need (c.resourceObservations.lookup resourceId)
    "resource action does not match its closure events"
  check ([ClosureStatus.confirmed, .failed, .unknown].contains observation.status
      && action.status = closureActionStatus observation.status)
    "resource action status is invalid"
  check ((if action.kind = "resource.close" then before.closureStatus = .pending
        else [ClosureStatus.unknown, .failed, .reconciling].contains before.closureStatus)
      && resource.nodeId = action.nodeId && resource.attemptId = action.attemptId
      && resource.closureStatus = observation.status
      && (if observation.status = .confirmed then
          c.resourceReleases.has resourceId && resource.status = .released
        else resource.status = .active))
    "resource action does not match its closure events"
  let c ← consumeResourceIncidentEvent c s resource observation
  .ok { c with
    resourceObservations := c.resourceObservations.erase resourceId
    resourceBefore := c.resourceBefore.erase resourceId
    resourceIncidentBefore := c.resourceIncidentBefore.erase resourceId
    resourceReleases := c.resourceReleases.erase resourceId }

/-- What a completion action says about the incident of a failure, after it was held against the
decision or the input it goes with. -/
def completionClassification (action : ActionRecord) (node : NodeDefinition) (input : Json)
    (finish : AttemptFinish) : Fallible (LifecycleRecordContext × String) :=
  if nodeRequiresDecision node then do
    let decisionId ← refOf "decisionId" input
    check ((c.decisions.lookup decisionId).any fun decision =>
        decision.attemptId = action.attemptId && decision.outcome = finish.outcome
          && decision.facts = finish.facts)
      "semantic completion action does not match its decision event"
    .ok ({ c with decisions := c.decisions.erase decisionId },
      if node.kind = .gate then "work-product" else "")
  else do
    let value ← decodeCompletionInput input
    let outcome ← resolveCompletionOutcome p node value.outcome value.outcomeRef
    check (outcome = finish.outcome && value.facts = finish.facts)
      "completion action input contradicts its terminal event"
    .ok (c, if value.classification = "" then "work-product" else value.classification)

/-- A completion action goes with the closing of its attempt, its decision and its incident. -/
def useCompletion (action : ActionRecord) (node : NodeDefinition) (input : Json) :
    Fallible LifecycleRecordContext := do
  let finish ← need ((c.finishes.lookup action.attemptId).filter fun _ =>
      (s.attempts.get action.attemptId).status = .terminal)
    "completion action has no matching terminal event"
  let (c, classification) ← completionClassification p c action node input finish
  let c ← consumeCompletionIncidentEvent c s node action.attemptId finish classification
  .ok { c with finishes := c.finishes.erase action.attemptId }

/-- Hold an action against the other events of its command. -/
def validateLifecycleAction (action : ActionRecord) (input : Option Json) :
    Fallible LifecycleRecordContext := do
  check (action.id ≠ "" && action.nodeId ≠ "") "action record is incomplete"
  let input ← need (input.filter Json.validateAuthority) "action record is incomplete"
  let node ← need (s.nodeDefinition action.nodeId) "action target is inconsistent"
  actionTarget s action node
  check ((persistedActionInputSchema p action.kind node).validate input)
    "action input is outside its writer schema"
  check (!completionKinds.contains action.kind || action.kind = completionAction node)
    "completion action does not match node kind"
  check (!lifecycleConfirmedActionKinds.contains action.kind || action.status = .confirmed)
    "confirmed action status is invalid"
  if action.kind = "role.renew" then useRenewal c node input
  else if action.kind = "node.start" then useStart c s action node
  else if action.kind = "attempt.checkpoint" then useCheckpoint c s action input
  else if ["attempt.wait", "attempt.resume", "attempt.submit"].contains action.kind then
    useStatus c s action
  else if action.kind = "evidence.publish" then usePackage c action input
  else if action.kind = "evidence.assess-reuse" then useReuse c action input
  else if action.kind = "effect.prepare" then useEffect c s action node
  else if action.kind = "resource.close" ∨ action.kind = "resource.reconcile" then
    useResource c s action input
  else if completionKinds.contains action.kind then useCompletion p c s action node input
  else .error "action kind or status is outside the closed lifecycle vocabulary"

/-- Apply the action of a command, of which there is at most one. -/
def applyAction (action : ActionRecord) (input : Option Json) : Admission := do
  let c ← validateLifecycleAction p c s action input
  check (c.actionCount = 0) "one source command cannot apply more than one action"
  check (!s.actions.has action.id) "action identity is duplicated"
  check (action.attemptId = "" || (action.nodeId ≠ ""
      && (s.attempts.lookup action.attemptId).any fun attempt => attempt.nodeId = action.nodeId))
    "action target is inconsistent"
  .ok
    ({ c with
        actionCount := c.actionCount + 1
        actionKind := action.kind
        actionId := action.id
        actionInput := input },
     { s with actions := s.actions.insert action.id action })

/-! ### Single events -/

/-- Apply an event of an imported history. The raw documents of an action, a preparation and a
receipt are read in the order they were written in. -/
def applyValidatedLifecycleEvent (source : LifecycleMigrationEvent) (event : Event) : Admission :=
  let c := { c with eventTypes := c.eventTypes ++ [source.type] }
  match event with
  | .roleBound lease => bindRole c s occurredAt lease
  | .roleTransferred t => transferRole p c s occurredAt t
  | .roleReleased roleId releasedAt => releaseRole c s occurredAt roleId releasedAt
  | .attemptStarted attempt => startAttempt c s occurredAt attempt
  | .attemptLeased attempt => startAttempt c s occurredAt attempt
  | .attemptStatusChanged attemptId status updatedAt =>
      changeAttemptStatus c s occurredAt attemptId status updatedAt
  | .attemptCheckpointed value => recordCheckpoint c s occurredAt value
  | .evidencePackagePublished pack => publishPackage p c s occurredAt pack
  | .evidenceReuseAssessed decision => assessReuse p c s occurredAt decision
  | .decisionRecorded decision => recordDecision p c s occurredAt decision
  | .resourceLeased resource => leaseResource c s occurredAt resource
  | .resourceClosureObserved id status receipt updatedAt =>
      observeClosure c s occurredAt { id, status, receipt, updatedAt }
  | .resourceReleased resourceId releasedAt => releaseResource c s occurredAt resourceId releasedAt
  | .actionApplied action => applyAction p c s action (source.bound "input")
  | .effectPrepared effect => prepareEffect c s occurredAt effect (source.bound "prepared")
  | .effectDispatched actionId dispatchedAt => dispatchEffect c s occurredAt actionId dispatchedAt
  | .effectReconciling actionId reconcilingAt =>
      reconcileEffect c s occurredAt actionId reconcilingAt
  | .effectObserved id status receipt updatedAt =>
      observeEffect p c s occurredAt { id, status, receipt, updatedAt } (source.bound "receipt")
  | .attemptFinished attemptId outcome outcomeClass facts updatedAt =>
      finishAttempt c s occurredAt { attemptId, outcome, outcomeClass, facts, updatedAt }
  | .incidentOpened incident => openIncident p c s occurredAt incident
  | .incidentUpdated incident => updateIncident p c s occurredAt incident
  | .incidentResolved incidentId resolvedAt => resolveIncident c s occurredAt incidentId resolvedAt
  | _ => .error "unsupported native event"

/-! ### Closing a command -/

/-- How often the type of event occurs in the command. -/
def eventCount (type : String) : Nat :=
  c.eventTypes.count type

/-- Does the command consist of exactly the given numbers of events? -/
def hasShape (expected : List (String × Nat)) : Bool :=
  expected.all (fun e => eventCount c e.1 = e.2)
    && c.eventTypes.all fun type => expected.any fun e => e.1 = type

/-- The numbers of events the action of a command goes with. -/
def actionShape (action : ActionRecord) (node : NodeDefinition) : Fallible (List (String × Nat)) :=
  let optional (type : String) := [(type, eventCount c type)]
  let kind := action.kind
  if kind = "role.renew" then .ok [("role.bound", 1)]
  else if kind = "node.start" then
    -- either type of introduction counts as one
    .ok [(if eventCount c "attempt.started" = 1 then "attempt.started" else "attempt.leased", 1),
      ("attempt.status-changed", 1), ("resource.leased", node.resources.length)]
  else if kind = "attempt.checkpoint" then .ok [("attempt.checkpointed", 1)]
  else if ["attempt.wait", "attempt.resume", "attempt.submit"].contains kind then
    .ok [("attempt.status-changed", 1)]
  else if kind = "evidence.publish" then .ok [("evidence.package-published", 1)]
  else if kind = "evidence.assess-reuse" then .ok [("evidence.reuse-assessed", 1)]
  else if kind = "effect.prepare" then .ok [("effect.prepared", 1)]
  else if kind = "resource.close" ∨ kind = "resource.reconcile" then
    let resourceId := (action.input.bind fun input =>
      ((Decoder.record [Decoder.textField "resourceId" id fun _ v => v]).decode "" input).toOption).getD ""
    let released := (s.resources.get resourceId).status = .released
    .ok ([("resource.closure-observed", 1), ("resource.released", if released then 1 else 0)]
      ++ optional "incident.opened" ++ optional "incident.updated" ++ optional "incident.resolved")
  else if completionKinds.contains kind then
    .ok ([("attempt.finished", 1), ("decision.recorded", if nodeRequiresDecision node then 1 else 0)]
      ++ optional "incident.opened")
  else .error "action kind is outside the closed writer command shapes"

/-- The events of a command with an action are those the action goes with. -/
def validateLifecycleActionEventShape : Fallible Unit := do
  let action ← need ((s.actions.lookup c.actionId).filter fun action => action.kind = c.actionKind)
    "applied action is unavailable at record end"
  let node := (s.nodeDefinition action.nodeId).getD default
  let shape ← actionShape c s { action with input := c.actionInput } node
  check (hasShape c (("action.applied", 1) :: shape))
    ("action " ++ action.kind ++ " native event shape is not writer-equivalent")

/-- Is there nothing that an event claimed and no action used? -/
def ledgerEmpty : Bool :=
  c.attempts.entries.isEmpty && c.statuses.entries.isEmpty && c.checkpoints.entries.isEmpty
    && c.packages.entries.isEmpty && c.reuseDecisions.entries.isEmpty
    && c.decisions.entries.isEmpty && c.resourceLeases.entries.isEmpty
    && c.resourceBefore.entries.isEmpty && c.resourceObservations.entries.isEmpty
    && c.resourceIncidentBefore.entries.isEmpty && c.resourceReleases.entries.isEmpty
    && c.effects.entries.isEmpty && c.effectObservations.entries.isEmpty
    && c.effectIncidentBefore.entries.isEmpty && c.finishes.entries.isEmpty
    && c.incidentEvents.entries.isEmpty && c.incidentResolutions.entries.isEmpty

/-- Nothing is left over. -/
def ensureLifecycleProofLedgerEmpty : Fallible Unit :=
  check (ledgerEmpty c)
    "source command has unconsumed, duplicated, or missing lifecycle proof"

/-- The observation of the one effect a command observes, with its incident. -/
def closeEffectObservation (actionId : String) (observation : StatusChange EffectStatus) :
    Fallible Unit := do
  let prior := c.effectIncidentBefore.get actionId
  let opened := observation.status = .unknown || observation.status = .failed
  let resolved := observation.status = .confirmed && prior.isSome
  let used ← consumeEffectIncidentEvent c s actionId observation
  check (hasShape c
      [("effect.observed", 1), ("incident.opened", if opened then 1 else 0),
       ("incident.resolved", if resolved then 1 else 0)])
    "effect observation command contains unrelated native events"
  ensureLifecycleProofLedgerEmpty
    { used with
      effectObservations := used.effectObservations.erase actionId
      effectIncidentBefore := used.effectIncidentBefore.erase actionId }

/-- Close a command: its events are those of one action, of one observation, of one incident
update, or one event that stands alone. -/
def validateLifecycleRecordClosed : Fallible Unit :=
  if c.actionCount = 1 then do
    validateLifecycleActionEventShape c s
    ensureLifecycleProofLedgerEmpty c
  else
    match c.effectObservations.entries, c.eventTypes, c.incidentEvents.entries with
    | [⟨actionId, observation⟩], _, _ => closeEffectObservation c s actionId observation
    | _ :: _ :: _, _, _ =>
        .error "one effect observation command must identify exactly one effect"
    | [], ["incident.updated"], [⟨incidentId, event⟩] => do
        check (event.type = "incident.updated" && event.prior.isSome)
          "standalone incident command is not an update"
        ensureLifecycleProofLedgerEmpty
          { c with incidentEvents := c.incidentEvents.erase incidentId }
    | [], [type], _ => do
        check (["role.bound", "role.transferred", "role.released", "effect.dispatched",
            "effect.reconciling"].contains type)
          "native events do not form one closed current-writer command"
        ensureLifecycleProofLedgerEmpty c
    | [], _, _ => .error "native events do not form one closed current-writer command"

end Lifecycle

end Dagrail
