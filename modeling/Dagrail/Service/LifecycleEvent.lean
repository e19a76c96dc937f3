import Dagrail.Service.Commands
import Dagrail.Service.Payload

/-!
# Events of an imported history

An imported history is admitted by a second interpreter of the event vocabulary. It applies every
event to a copy of the state under the rules a writer would have followed, and keeps a ledger of
what the events of one command have claimed, so that the action of the command can be held against
it.
-/

namespace Dagrail

/-! ### Comparing timestamps -/

namespace Stamp

/-- Is the timestamp one that parses? -/
def valid (value : Stamp) : Bool :=
  value.parse.isSome

/-- Does the timestamp parse and come no earlier than the minimum, if there is one? -/
def atOrAfter (value minimum : Stamp) : Bool :=
  value.parse.any fun instant =>
    minimum = .unset || minimum.parse.any fun base => decide (base ≤ instant)

/-- Do both timestamps parse, and does the value come no later than the maximum? -/
def atOrBefore (value maximum : Stamp) : Bool :=
  value.parse.any fun instant => maximum.parse.any fun limit => decide (instant ≤ limit)

/-- The later of two timestamps, the second of which may be absent. -/
def latest (first second : Stamp) : Stamp :=
  if second = .unset || first.atOrAfter second then first else second

end Stamp

/-- Does the active lease of the role cover the timestamp? -/
def roleLeaseCovers (s : State) (roleId : String) (at_ : Stamp) : Bool :=
  (s.leases.lookup roleId).any fun lease =>
    lease.active && at_.atOrAfter lease.boundAt
      && at_.parse.any fun instant => lease.expiresAt.parse.any fun expires => decide (instant < expires)

/-- Is the lease given for a positive time of at most a day? -/
def leaseSpan (lease : RoleLease) : Bool :=
  lease.boundAt.parse.any fun bound => lease.expiresAt.parse.any fun expires =>
    decide (bound < expires ∧ expires - bound ≤ maxTTL)

/-! ### The ledger of a command -/

/-- An incident event of a command: its type, its incident, and the incident before it. -/
structure LifecycleIncidentEvent where
  type : String
  incident : Incident
  prior : Option Incident
deriving DecidableEq, Inhabited

/-- What the events of one command have claimed so far. The admissions of effects are kept from
one command to the next. -/
structure LifecycleRecordContext where
  eventTypes : List String := []
  actionCount : Nat := 0
  actionKind : String := ""
  actionId : String := ""
  actionInput : Option Json := none
  attempts : Table Attempt := ∅
  statuses : Table AttemptStatus := ∅
  checkpoints : Table Checkpoint := ∅
  packages : Table ExecutionPackage := ∅
  reuseDecisions : Table ReuseDecision := ∅
  decisions : Table DecisionRecord := ∅
  resourceLeases : Table ResourceLease := ∅
  resourceBefore : Table ResourceLease := ∅
  resourceObservations : Table (StatusChange ClosureStatus) := ∅
  resourceIncidentBefore : Table (Option Incident) := ∅
  resourceReleases : Table Unit := ∅
  effects : Table EffectAction := ∅
  effectObservations : Table (StatusChange EffectStatus) := ∅
  effectIncidentBefore : Table (Option Incident) := ∅
  finishes : Table AttemptFinish := ∅
  incidentEvents : Table LifecycleIncidentEvent := ∅
  incidentResolutions : Table Stamp := ∅
  effectAdmissions : Table Unit := ∅
  roleBindings : Table RoleLease := ∅
  roleBefore : Table RoleLease := ∅

/-- An empty ledger with the admissions of earlier commands. -/
def newLifecycleRecordContext (effectAdmissions : Table Unit) : LifecycleRecordContext :=
  { effectAdmissions }

/-- A step of the importer: the ledger and the state after an event. -/
abbrev Admission := Fallible (LifecycleRecordContext × State)

namespace Lifecycle

variable (p : Platform) (c : LifecycleRecordContext) (s : State) (occurredAt : Stamp)

/-! ### Roles -/

/-- A binding of a declared role. It may not overlap an active one of another session. -/
def bindRole (lease : RoleLease) : Admission := do
  check (graphHasRole s lease.roleId && lease.active && lease.harness ≠ "" && lease.sessionId ≠ "")
    "role binding is incomplete or inactive"
  check (leaseSpan lease && lease.boundAt.atOrBefore occurredAt)
    "role binding timestamps are invalid"
  let current := (s.leases.lookup lease.roleId).filter fun current => current.active
  check (current.all fun current =>
      lease.boundAt.atOrAfter current.boundAt && current.boundAt.valid
        && current.expiresAt.parse.any fun expires => lease.boundAt.parse.any fun bound =>
          decide (expires ≤ bound) || current.sessionId = lease.sessionId)
    ("role " ++ lease.roleId ++ " has overlapping active bindings")
  .ok
    ({ c with
        roleBefore := match current with
          | some current => c.roleBefore.insert lease.roleId current
          | none => c.roleBefore
        roleBindings := c.roleBindings.insert lease.roleId lease },
     { s with leases := s.leases.insert lease.roleId lease })

/-- The names a transfer gives are the ones a transfer writer would have accepted. -/
def transferIdentity (t : RoleTransfer) : Bool :=
  t.authority = roleControlAuthority && t.actorRole ≠ "" && t.actorSessionId ≠ ""
    && t.actorRole ≠ t.next.roleId && t.previous.roleId ≠ "" && t.previous.roleId = t.next.roleId
    && t.previous.active && t.next.active && t.previous.harness ≠ "" && t.previous.sessionId ≠ ""
    && t.next.harness ≠ "" && t.next.sessionId ≠ "" && t.previous.sessionId ≠ t.next.sessionId
    && t.actorSessionId ≠ t.previous.sessionId && t.actorSessionId ≠ t.next.sessionId

/-- A transfer happens at the time of its record, within the lease it replaces, and gives the role
for whole seconds, at most a day. -/
def transferTimes (t : RoleTransfer) : Bool :=
  t.transferredAt.parse.any fun at_ => t.previous.boundAt.parse.any fun previousBound =>
    t.previous.expiresAt.parse.any fun previousExpiry => t.next.expiresAt.parse.any fun nextExpiry =>
      t.next.boundAt = t.transferredAt && t.transferredAt = occurredAt
        && decide (previousBound < previousExpiry ∧ previousBound ≤ at_ ∧ at_ < previousExpiry
          ∧ at_ < nextExpiry ∧ Duration.second ≤ nextExpiry - at_
          ∧ (nextExpiry - at_) % Duration.second = 0 ∧ nextExpiry - at_ ≤ maxTTL)

/-- The controller holds its role at the time of the transfer and has role control. -/
def transferAuthority (t : RoleTransfer) : Bool :=
  (s.leases.lookup t.actorRole).any (fun lease =>
      lease.active && lease.sessionId = t.actorSessionId
        && t.transferredAt.parse.any fun at_ => lease.covers at_)
    && GraphDefinition.roleHasCapability s.graph t.actorRole .roleControl

/-- Does the lease bind the successor session at the time of the transfer? A lease whose times do
not parse counts as binding it. -/
def bindsSuccessor (t : RoleTransfer) (lease : RoleLease) : Bool :=
  lease.active && lease.sessionId = t.next.sessionId
    && match lease.boundAt.parse, lease.expiresAt.parse with
      | some bound, some expires =>
          t.transferredAt.parse.any fun at_ => decide (bound ≤ at_ ∧ at_ < expires)
      | _, _ => true

/-- A transfer under role control. -/
def transferRole (t : RoleTransfer) : Admission := do
  check (transferIdentity t) "role transfer identity is invalid"
  validateRoleTransferReason p t.reason
  check (transferTimes occurredAt t) "role transfer timestamps are invalid"
  check (transferAuthority s t) "role transfer is outside controller authority"
  check (s.leases.lookup t.previous.roleId = some t.previous)
    "role transfer prior binding does not match current state"
  check (!s.leases.entries.any fun entry => entry.1 ≠ t.next.roleId && bindsSuccessor t entry.2)
    "role transfer successor session is already bound to another active role"
  .ok (c, { s with leases := s.leases.insert t.next.roleId t.next })

/-- A release of an active binding. -/
def releaseRole (roleId : String) (releasedAt : Stamp) : Admission := do
  let lease ← need ((s.leases.lookup roleId).filter fun lease =>
      lease.active && lease.roleId = roleId && releasedAt.atOrAfter lease.boundAt
        && releasedAt.atOrBefore occurredAt)
    "role release does not reference an active binding"
  .ok (c, { s with leases := s.leases.insert roleId { lease with active := false } })

/-! ### Attempts -/

/-- Does the lease of the attempt's role cover its start? -/
def startsWithinLease (attempt : Attempt) : Bool :=
  (s.leases.lookup attempt.roleId).any fun lease =>
    lease.active && attempt.startedAt.parse.any fun started => lease.covers started

/-- An introduction of the next attempt of a ready node. -/
def startAttempt (attempt : Attempt) : Admission := do
  let node ← need ((s.nodeDefinition attempt.nodeId).filter fun node => node.role = attempt.roleId)
    "attempt introduction is not a legal leased attempt"
  check (attempt.id ≠ "" && attempt.status = .leased && attempt.startedAt.valid
      && attempt.updatedAt.valid
      && attempt.startedAt.parse.any (fun started => attempt.updatedAt.parse.any fun updated =>
        decide (started ≤ updated))
      && attempt.updatedAt.atOrBefore occurredAt)
    "attempt introduction is not a legal leased attempt"
  check (startsWithinLease s attempt) "attempt starts outside its role binding"
  check (node.kind.requiredCapability.any fun capability =>
      GraphDefinition.roleHasCapability s.graph attempt.roleId capability)
    "attempt role lacks the node capability"
  check (!s.attempts.has attempt.id && (s.nodes.get attempt.nodeId).status = .planned
      && (computeFrontier s).ready.contains attempt.nodeId
      && attempt.number = (s.nodeAttempts.get attempt.nodeId).length + 1)
    "attempt identity, number, or node state is invalid"
  .ok
    ({ c with attempts := c.attempts.insert attempt.id attempt },
     { s with
        attempts := s.attempts.insert attempt.id attempt
        nodeAttempts := s.nodeAttempts.insert attempt.nodeId
          (s.nodeAttempts.get attempt.nodeId ++ [attempt.id])
        nodes := s.nodes.insert attempt.nodeId { status := .active } })

/-- The moves of an attempt between statuses. -/
def legalAttemptStatusTransition (source target : AttemptStatus) : Bool :=
  (source = .leased && target = .running)
    || (source = .running && (target = .waiting || target = .submitted))
    || (source = .waiting && target = .running)

/-- A move of an attempt to another status. -/
def changeAttemptStatus (attemptId : String) (status : AttemptStatus) (updatedAt : Stamp) : Admission := do
  let attempt ← need ((s.attempts.lookup attemptId).filter fun attempt =>
      attempt.status ≠ .terminal && legalAttemptStatusTransition attempt.status status
        && updatedAt.atOrAfter attempt.updatedAt && updatedAt.atOrBefore occurredAt
        && roleLeaseCovers s attempt.roleId updatedAt)
    "attempt status transition is invalid"
  .ok
    ({ c with statuses := c.statuses.insert attempt.id status },
     { s with attempts := s.attempts.insert attempt.id { attempt with status, updatedAt } })

/-- Is the attempt one that work can be recorded for at the time? -/
def working (attempt : Attempt) (at_ : Stamp) : Bool :=
  [AttemptStatus.running, .waiting, .submitted].contains attempt.status
    && at_.atOrAfter attempt.updatedAt && at_.atOrBefore occurredAt
    && roleLeaseCovers s attempt.roleId at_

/-- A checkpoint of a working attempt. -/
def recordCheckpoint (value : Checkpoint) : Admission := do
  let attempt ← need ((s.attempts.lookup value.attemptId).filter fun attempt =>
      working s occurredAt attempt value.createdAt)
    "checkpoint does not reference an active attempt"
  check (value.id ≠ "" && value.summary ≠ "" && value.summary.utf8ByteSize ≤ 2048)
    "checkpoint does not reference an active attempt"
  check (!s.checkpoints.has value.id) "checkpoint identity is duplicated"
  check (value.evidenceRefs.all fun e => validDigest e.digest && e.type ≠ "" && decide (0 ≤ e.size))
    "checkpoint evidence reference is invalid"
  .ok
    ({ c with checkpoints := c.checkpoints.insert value.id value },
     { s with
        checkpoints := s.checkpoints.insert value.id value
        attempts := s.attempts.insert attempt.id
          { attempt with checkpointId := value.id, updatedAt := value.createdAt } })

/-- A package of a working attempt. -/
def publishPackage (pack : ExecutionPackage) : Admission := do
  let attempt ← need ((s.attempts.lookup pack.attemptId).filter fun attempt =>
      working s occurredAt attempt pack.createdAt)
    "execution package does not reference an active attempt"
  let node ← need (s.nodeDefinition pack.nodeId)
    "execution package does not reference an active attempt"
  check (attempt.nodeId = pack.nodeId && pack.projectId = s.projectId
      && pack.graphRevision = s.graphRevision)
    "execution package does not reference an active attempt"
  check (!s.evidencePackages.has pack.id) "execution package identity is duplicated"
  validateExecutionPackageRecord p pack node
  .ok
    ({ c with packages := c.packages.insert pack.id pack },
     { s with
        evidencePackages := s.evidencePackages.insert pack.id pack
        attemptPackages := s.attemptPackages.insert pack.attemptId
          (s.attemptPackages.get pack.attemptId ++ [pack.id]) })

/-- A reuse decision of a working attempt about a stored package. -/
def assessReuse (decision : ReuseDecision) : Admission := do
  let pack ← need (s.evidencePackages.lookup decision.packageId)
    "reuse decision references unavailable evidence or assessor"
  let _ ← need ((s.attempts.lookup decision.assessedByAttempt).filter fun assessor =>
      working s occurredAt assessor decision.createdAt)
    "reuse decision references unavailable evidence or assessor"
  let node ← need (s.nodeDefinition pack.nodeId)
    "reuse decision references unavailable evidence or assessor"
  check (decision.createdAt.atOrAfter pack.createdAt)
    "reuse decision references unavailable evidence or assessor"
  check (!s.reuseDecisions.has decision.id) "reuse decision identity is duplicated"
  validateReuseDecisionRecord p decision pack node
  .ok
    ({ c with reuseDecisions := c.reuseDecisions.insert decision.id decision },
     { s with
        reuseDecisions := s.reuseDecisions.insert decision.id decision
        packageDecisions := s.packageDecisions.insert decision.packageId
          (s.packageDecisions.get decision.packageId ++ [decision.id]) })

/-- The first decision of a working attempt. -/
def recordDecision (decision : DecisionRecord) : Admission := do
  let _ ← need ((s.attempts.lookup decision.attemptId).filter fun attempt =>
      working s occurredAt attempt decision.createdAt)
    "decision does not reference an active attempt"
  check (!s.decisions.has decision.id && s.attemptDecisions.get decision.attemptId = [])
    "decision identity is duplicated"
  validateDecisionRecord p decision s
  .ok
    ({ c with decisions := c.decisions.insert decision.id decision },
     { s with
        decisions := s.decisions.insert decision.id decision
        attemptDecisions := s.attemptDecisions.insert decision.attemptId
          (s.attemptDecisions.get decision.attemptId ++ [decision.id]) })

/-- Is the node one whose completion needs a decision record? -/
def nodeRequiresDecision (node : NodeDefinition) : Bool :=
  node.kind = .review || node.kind = .decision || (node.kind = .gate && node.decision.isSome)

/-- The one decision of an attempt agrees with its completion. -/
def decisionAgrees (attempt : Attempt) (value : AttemptFinish) : Bool :=
  match s.attemptDecisions.get attempt.id with
  | [decisionId] =>
      let decision := s.decisions.get decisionId
      decision.attemptId = attempt.id && decision.roleId = attempt.roleId
        && decision.outcome = value.outcome && decision.facts = value.facts
  | _ => false

/-- The effect of an attempt agrees with its completion. -/
def effectAgrees (attempt : Attempt) (value : AttemptFinish) : Bool :=
  (s.effectForAttempt attempt.id).any fun effect =>
    !(value.outcomeClass = .success && effect.status ≠ .confirmed)
      && !(value.outcomeClass = .failure && effect.status ≠ .failed)

/-- A completion of a working attempt without active resources. -/
def finishAttempt (value : AttemptFinish) : Admission := do
  let attempt ← need ((s.attempts.lookup value.attemptId).filter fun attempt =>
      working s occurredAt attempt value.updatedAt)
    "attempt completion is inconsistent"
  let node ← need (s.nodeDefinition attempt.nodeId) "attempt completion is inconsistent"
  check (outcomeClass node value.outcome = value.outcomeClass && activeResourceIDs s attempt.id = [])
    "attempt completion is inconsistent"
  check (!(node.kind = .task && value.outcomeClass = .success && attempt.status ≠ .submitted))
    "successful task completion requires a submitted attempt"
  check (!(value.outcomeClass = .retryable && node.retryBudget < attempt.number))
    "retry budget is exhausted"
  check (!nodeRequiresDecision node || decisionAgrees s attempt value)
    "semantic completion contradicts its decision record"
  check (node.kind ≠ .effect || effectAgrees s attempt value)
    "effect completion does not match its receipt"
  .ok
    ({ c with finishes := c.finishes.insert attempt.id value },
     { s with
        attempts := s.attempts.insert attempt.id
          { attempt with
            status := .terminal, outcome := value.outcome, updatedAt := value.updatedAt }
        nodes := s.nodes.insert attempt.nodeId
          { status := if value.outcomeClass = .retryable then .planned else .terminal
            outcome := value.outcome
            outcomeClass := value.outcomeClass
            facts := value.facts } })

/-! ### Resources -/

/-- Does the node ask for the quantity of the resource kind? -/
def nodeRequestsResource (node : NodeDefinition) (kind : String) (quantity : Int) : Bool :=
  node.resources.any fun request => request.kind = kind && request.quantity = quantity

/-- The first declared capacity of a resource kind. -/
def resourceCapacity (kind : String) : Int :=
  match s.graph with
  | some g => g.spec.capacity kind
  | none => 0

/-- Does the attempt have a resource of the kind, active or not? -/
def resourceForAttempt (attemptId kind : String) : Bool :=
  s.resources.values.any fun resource => resource.attemptId = attemptId && resource.kind = kind

/-- A lease of a requested resource by a running attempt, within the capacity. -/
def leaseResource (resource : ResourceLease) : Admission := do
  let attempt ← need (s.attempts.lookup resource.attemptId)
    "resource lease is not bound to an active attempt"
  let node ← need (s.nodeDefinition resource.nodeId)
    "resource lease is not bound to an active attempt"
  check (resource.id ≠ "" && attempt.status = .running && attempt.nodeId = resource.nodeId
      && attempt.roleId = resource.roleId && resource.status = .active
      && resource.closureStatus = .pending && 1 ≤ resource.quantity
      && resource.leasedAt.atOrAfter attempt.updatedAt && resource.leasedAt.atOrBefore occurredAt
      && roleLeaseCovers s attempt.roleId resource.leasedAt)
    "resource lease is not bound to an active attempt"
  check (!s.resources.has resource.id && nodeRequestsResource node resource.kind resource.quantity
      && !resourceForAttempt s resource.attemptId resource.kind)
    "resource identity or request does not match the node contract"
  check (s.leasedQuantity resource.kind + resource.quantity ≤ resourceCapacity s resource.kind)
    "resource lease exceeds declared capacity"
  .ok
    ({ c with resourceLeases := c.resourceLeases.insert resource.id resource },
     { s with resources := s.resources.insert resource.id resource })

/-- A closure observation of an active resource. -/
def observeClosure (value : StatusChange ClosureStatus) : Admission := do
  let resource ← need ((s.resources.lookup value.id).filter fun resource =>
      resource.status = .active
        && [ClosureStatus.pending, .unknown, .failed, .reconciling].contains resource.closureStatus
        && value.updatedAt.atOrAfter (resource.leasedAt.latest resource.closureUpdatedAt)
        && value.updatedAt.atOrBefore occurredAt
        && roleLeaseCovers s resource.roleId value.updatedAt)
    "resource closure transition is invalid"
  check ([ClosureStatus.confirmed, .failed, .unknown].contains value.status
      && value.receipt.any fun receipt => receipt ≠ .null)
    "resource closure transition is invalid"
  .ok
    ({ c with
        resourceBefore := c.resourceBefore.insert value.id resource
        resourceIncidentBefore := c.resourceIncidentBefore.insert value.id
          (s.incidents.lookup ("resource:" ++ value.id))
        resourceObservations := c.resourceObservations.insert resource.id value },
     { s with
        resources := s.resources.insert resource.id
          { resource with
            closureStatus := value.status
            closureReceipt := value.receipt
            closureUpdatedAt := value.updatedAt } })

/-- A release of a resource whose closure is confirmed. -/
def releaseResource (resourceId : String) (releasedAt : Stamp) : Admission := do
  let resource ← need ((s.resources.lookup resourceId).filter fun resource =>
      resource.status = .active && resource.closureStatus = .confirmed
        && releasedAt.atOrAfter resource.closureUpdatedAt && releasedAt.atOrBefore occurredAt)
    "resource release requires a confirmed closure"
  .ok
    ({ c with resourceReleases := c.resourceReleases.insert resource.id () },
     { s with
        resources := s.resources.insert resource.id { resource with status := .released, releasedAt } })

/-! ### Effects -/

/-- The effect is prepared as its node declares. -/
def validateLifecycleEffectDeclaration (effect : EffectAction) (prepared : Option Json)
    (node : NodeDefinition) : Fallible Unit := do
  let inputs ← need node.inputs "effect node declaration is invalid"
  let declaration ← effectNodeInputDecoder.decode {} inputs
  check (declaration.adapter ≠ "" && declaration.request.any fun request => request ≠ .null)
    "effect node declaration is invalid"
  check (effect.adapterId = declaration.adapter
      && (effect.adapterVersion = "") = (effect.adapterSchemaHash = "")
      && effect.request = declaration.request)
    "effect preparation does not match its graph declaration"
  let stored ← need prepared "effect preparation binding is invalid"
  check stored.validateAuthority "effect preparation binding is invalid"
  let value ← preparedEffectDecoder.decodeStrict {} stored
  check (value.adapterId = effect.adapterId) "effect preparation binding is invalid"

/-- A preparation of the first effect of an attempt. -/
def prepareEffect (effect : EffectAction) (prepared : Option Json) : Admission := do
  let attempt ← need (s.attempts.lookup effect.attemptId) "effect preparation is inconsistent"
  let node ← need (s.nodeDefinition effect.nodeId) "effect preparation is inconsistent"
  check (effect.id ≠ "" && attempt.status ≠ .terminal && node.kind = .effect
      && attempt.nodeId = effect.nodeId && effect.ownerRole = attempt.roleId && effect.adapterId ≠ ""
      && effect.status = .prepared && effect.idempotencyKey ≠ "" && effect.request.isSome
      && effect.prepared.isSome && effect.updatedAt.atOrAfter effect.preparedAt
      && effect.preparedAt.atOrAfter attempt.updatedAt && effect.updatedAt.atOrBefore occurredAt
      && roleLeaseCovers s attempt.roleId effect.preparedAt)
    "effect preparation is inconsistent"
  check (!s.effects.has effect.id && (s.effectForAttempt effect.attemptId).isNone
      && (s.actions.get effect.id).id = "")
    "effect identity or attempt is duplicated"
  validateLifecycleEffectDeclaration effect prepared node
  .ok
    ({ c with effects := c.effects.insert effect.id effect },
     { s with effects := s.effects.insert effect.id effect })

/-- The effect of an action that may be admitted at the time under one of the capabilities. -/
def admissible (actionId : String) (at_ : Stamp) (statuses : List EffectStatus)
    (capabilities : List Capability) : Fallible (EffectAction × ActionRecord) := do
  let effect ← need ((s.effects.lookup actionId).filter fun effect =>
      statuses.contains effect.status
        && capabilities.any (GraphDefinition.roleHasCapability s.graph effect.ownerRole)
        && roleLeaseCovers s effect.ownerRole at_ && at_.atOrAfter effect.updatedAt
        && at_.atOrBefore occurredAt)
    "effect transition is invalid"
  let action ← need ((s.actions.lookup actionId).filter fun action => action.kind = "effect.prepare")
    "effect transition is invalid"
  .ok (effect, action)

/-- An admission of a dispatch of a prepared effect. -/
def dispatchEffect (actionId : String) (dispatchedAt : Stamp) : Admission := do
  let (effect, _) ← admissible s occurredAt actionId dispatchedAt [.prepared] [.effectApply]
  .ok
    ({ c with effectAdmissions := c.effectAdmissions.insert effect.id () },
     { s with
        effects := s.effects.insert effect.id
          { effect with status := .dispatched, updatedAt := dispatchedAt } })

/-- An admission of a reconciliation of an effect that is not confirmed. -/
def reconcileEffect (actionId : String) (reconcilingAt : Stamp) : Admission := do
  let (effect, action) ← admissible s occurredAt actionId reconcilingAt
    [.prepared, .dispatched, .unknown, .failed, .reconciling] [.effectApply, .effectReconcile]
  check ((s.incidents.lookup (effectIncidentId actionId)).all fun i => i.status = .opened)
    "effect transition is invalid"
  .ok
    ({ c with effectAdmissions := c.effectAdmissions.insert effect.id () },
     { s with
        actions := s.actions.insert action.id { action with status := .reconciling }
        effects := s.effects.insert effect.id
          { effect with status := .reconciling, updatedAt := reconcilingAt } })

/-- An observation of an admitted effect, which uses the admission up. -/
def observeEffect (value : StatusChange EffectStatus) (receipt : Option Json) : Admission := do
  let document ← need receipt "effect observation receipt contradicts its status"
  check document.validateAuthority "effect observation receipt contradicts its status"
  let read ← effectReceiptDecoder.decodeStrict {} document
  check (EffectStatus.ofText read.status = value.status)
    "effect observation receipt contradicts its status"
  let _ ← validateEffectReceipt p read
  let effect ← need ((s.effects.lookup value.id).filter fun effect =>
      [EffectStatus.dispatched, .reconciling].contains effect.status
        && value.updatedAt.atOrAfter effect.updatedAt && value.updatedAt.atOrBefore occurredAt)
    "effect observation is invalid"
  check (c.effectAdmissions.has value.id && document ≠ .null) "effect observation is invalid"
  .ok
    ({ c with
        effectIncidentBefore := c.effectIncidentBefore.insert value.id
          (s.incidents.lookup (effectIncidentId value.id))
        effectAdmissions := c.effectAdmissions.erase value.id
        effectObservations := c.effectObservations.insert value.id value },
     { s with
        effects := s.effects.insert effect.id
          { effect with
            status := value.status, receipt := value.receipt, updatedAt := value.updatedAt }
        actions := match s.actions.lookup effect.id with
          | some action =>
              s.actions.insert action.id { action with status := State.actionStatusOf value.status }
          | none => s.actions })

end Lifecycle

end Dagrail
