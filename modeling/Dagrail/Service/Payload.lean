import Dagrail.Service.Input

/-!
# Event payloads

The payloads of an imported history come as documents. Each type of event has a reader that binds
the members of its payload to the record the event carries. A payload whose members bind every
field at most once reads the same in its canonical form, which is the form the journal stores.
-/

namespace Dagrail

/-! ### Statuses as texts -/

def AttemptStatus.text : AttemptStatus → String
  | .unset => ""
  | .leased => "leased"
  | .running => "running"
  | .waiting => "waiting"
  | .submitted => "submitted"
  | .terminal => "terminal"
  | .other text => text

def ActionStatus.text : ActionStatus → String
  | .unset => ""
  | .applied => "applied"
  | .prepared => "prepared"
  | .dispatched => "dispatched"
  | .reconciling => "reconciling"
  | .confirmed => "confirmed"
  | .failed => "failed"
  | .unknown => "unknown"
  | .other text => text

def EffectStatus.text : EffectStatus → String
  | .unset => ""
  | .prepared => "prepared"
  | .dispatched => "dispatched"
  | .reconciling => "reconciling"
  | .confirmed => "confirmed"
  | .failed => "failed"
  | .unknown => "unknown"
  | .other text => text

def ResourceStatus.text : ResourceStatus → String
  | .unset => ""
  | .active => "active"
  | .released => "released"
  | .other text => text

def IncidentStatus.text : IncidentStatus → String
  | .unset => ""
  | .opened => "open"
  | .circuitOpen => "circuit-open"
  | .resolved => "resolved"
  | .other text => text

/-! ### Statuses of texts -/

def AttemptStatus.ofText (text : String) : AttemptStatus :=
  if text = "" then .unset
  else if text = "leased" then .leased
  else if text = "running" then .running
  else if text = "waiting" then .waiting
  else if text = "submitted" then .submitted
  else if text = "terminal" then .terminal
  else .other text

def ActionStatus.ofText (text : String) : ActionStatus :=
  if text = "" then .unset
  else if text = "applied" then .applied
  else if text = "prepared" then .prepared
  else if text = "dispatched" then .dispatched
  else if text = "reconciling" then .reconciling
  else if text = "confirmed" then .confirmed
  else if text = "failed" then .failed
  else if text = "unknown" then .unknown
  else .other text

def EffectStatus.ofText (text : String) : EffectStatus :=
  if text = "" then .unset
  else if text = "prepared" then .prepared
  else if text = "dispatched" then .dispatched
  else if text = "reconciling" then .reconciling
  else if text = "confirmed" then .confirmed
  else if text = "failed" then .failed
  else if text = "unknown" then .unknown
  else .other text

def ResourceStatus.ofText (text : String) : ResourceStatus :=
  if text = "" then .unset
  else if text = "active" then .active
  else if text = "released" then .released
  else .other text

def ClosureStatus.ofText (text : String) : ClosureStatus :=
  if text = "" then .unset
  else if text = "pending" then .pending
  else if text = "confirmed" then .confirmed
  else if text = "failed" then .failed
  else if text = "unknown" then .unknown
  else if text = "reconciling" then .reconciling
  else .other text

def IncidentStatus.ofText (text : String) : IncidentStatus :=
  if text = "" then .unset
  else if text = "open" then .opened
  else if text = "circuit-open" then .circuitOpen
  else if text = "resolved" then .resolved
  else .other text

def OutcomeClass.ofText (text : String) : OutcomeClass :=
  if text = "" then .unset
  else if text = "success" then .success
  else if text = "retryable" then .retryable
  else if text = "failure" then .failure
  else if text = "cancelled" then .cancelled
  else .other text

def DecisionSource.ofText (text : String) : DecisionSource :=
  if text = "human" then .human
  else if text = "llm" then .llm
  else if text = "provider" then .provider
  else .other text

/-! ### Fields -/

namespace Decoder

variable {σ : Type}

/-- A text field. -/
def textField (name : String) (get : σ → String) (set : σ → String → σ) : Field σ :=
  { name, decoder := .text id, get, set }

/-- A field whose text is converted. -/
def viaText {α : Type} (name : String) (f : String → α) (get : σ → α) (set : σ → α → σ) : Field σ :=
  { name, decoder := .text f, get, set }

/-- A timestamp field. -/
def stampField (name : String) (get : σ → Stamp) (set : σ → Stamp → σ) : Field σ :=
  viaText name Stamp.ofText get set

/-- An integer field. -/
def intField (name : String) (get : σ → Int) (set : σ → Int → σ) : Field σ :=
  { name, decoder := .int, get, set }

/-- A field of natural numbers. -/
def natField (name : String) (get : σ → Nat) (set : σ → Nat → σ) : Field σ :=
  { name, decoder := .nat, get, set }

/-- A field of truth values. -/
def boolField (name : String) (get : σ → Bool) (set : σ → Bool → σ) : Field σ :=
  { name, decoder := .bool, get, set }

/-- A field that keeps its document. -/
def rawField (name : String) (get : σ → Option Json) (set : σ → Option Json → σ) : Field σ :=
  { name, decoder := .raw, get, set }

/-- A field read by a decoder of its own. -/
def fieldOf {α : Type} (name : String) (decoder : Decoder α) (get : σ → α) (set : σ → α → σ) :
    Field σ :=
  { name, decoder, get, set }

end Decoder

open Decoder

/-! ### Records -/

def roleLeaseDecoder : Decoder RoleLease :=
  .record
    [textField "roleId" (·.roleId) fun r v => { r with roleId := v },
     textField "harness" (·.harness) fun r v => { r with harness := v },
     textField "sessionId" (·.sessionId) fun r v => { r with sessionId := v },
     stampField "boundAt" (·.boundAt) fun r v => { r with boundAt := v },
     stampField "expiresAt" (·.expiresAt) fun r v => { r with expiresAt := v },
     boolField "active" (·.active) fun r v => { r with active := v }]

def roleTransferDecoder : Decoder RoleTransfer :=
  .record
    [textField "authority" (·.authority) fun r v => { r with authority := v },
     textField "actorRole" (·.actorRole) fun r v => { r with actorRole := v },
     textField "actorSessionId" (·.actorSessionId) fun r v => { r with actorSessionId := v },
     fieldOf "previous" roleLeaseDecoder (·.previous) fun r v => { r with previous := v },
     fieldOf "next" roleLeaseDecoder (·.next) fun r v => { r with next := v },
     textField "reason" (·.reason) fun r v => { r with reason := v },
     stampField "transferredAt" (·.transferredAt) fun r v => { r with transferredAt := v }]

def attemptDecoder : Decoder Attempt :=
  .record
    [textField "id" (·.id) fun r v => { r with id := v },
     textField "nodeId" (·.nodeId) fun r v => { r with nodeId := v },
     textField "roleId" (·.roleId) fun r v => { r with roleId := v },
     intField "number" (·.number) fun r v => { r with number := v },
     viaText "status" AttemptStatus.ofText (·.status) fun r v => { r with status := v },
     textField "outcome" (·.outcome) fun r v => { r with outcome := v },
     textField "checkpointId" (·.checkpointId) fun r v => { r with checkpointId := v },
     stampField "startedAt" (·.startedAt) fun r v => { r with startedAt := v },
     stampField "updatedAt" (·.updatedAt) fun r v => { r with updatedAt := v }]

def checkpointDecoder : Decoder Checkpoint :=
  .record
    [textField "id" (·.id) fun r v => { r with id := v },
     textField "attemptId" (·.attemptId) fun r v => { r with attemptId := v },
     textField "summary" (·.summary) fun r v => { r with summary := v },
     fieldOf "evidenceRefs" (.list default evidenceRefDecoder) (·.evidenceRefs)
       fun r v => { r with evidenceRefs := v },
     stampField "createdAt" (·.createdAt) fun r v => { r with createdAt := v }]

def observationsDecoder : Decoder ExecutionObservations :=
  .record
    [boolField "exact" (·.exact) fun r v => { r with exact := v },
     boolField "clean" (·.clean) fun r v => { r with clean := v },
     boolField "depthComplete" (·.depthComplete) fun r v => { r with depthComplete := v },
     boolField "sourceUnmodified" (·.sourceUnmodified) fun r v => { r with sourceUnmodified := v },
     boolField "resourcesClosed" (·.resourcesClosed) fun r v => { r with resourcesClosed := v }]

def executionPackageDecoder : Decoder ExecutionPackage :=
  .record
    [textField "apiVersion" (·.apiVersion) fun r v => { r with apiVersion := v },
     textField "kind" (·.kind) fun r v => { r with kind := v },
     textField "id" (·.id) fun r v => { r with id := v },
     textField "projectId" (·.projectId) fun r v => { r with projectId := v },
     textField "graphRevision" (·.graphRevision) fun r v => { r with graphRevision := v },
     textField "nodeId" (·.nodeId) fun r v => { r with nodeId := v },
     textField "attemptId" (·.attemptId) fun r v => { r with attemptId := v },
     textField "nodeContractDigest" (·.nodeContractDigest)
       fun r v => { r with nodeContractDigest := v },
     fieldOf "candidate" artifactRefDecoder (·.candidate) fun r v => { r with candidate := v },
     fieldOf "prospectiveTree" artifactRefDecoder (·.prospectiveTree)
       fun r v => { r with prospectiveTree := v },
     textField "commandGraphDigest" (·.commandGraphDigest)
       fun r v => { r with commandGraphDigest := v },
     fieldOf "protectedInputs" (.list default protectedInputDecoder) (·.protectedInputs)
       fun r v => { r with protectedInputs := v },
     fieldOf "observations" observationsDecoder (·.observations)
       fun r v => { r with observations := v },
     fieldOf "artifacts" (.list? default artifactRefDecoder) (·.artifacts)
       fun r v => { r with artifacts := v },
     textField "coreDigest" (·.coreDigest) fun r v => { r with coreDigest := v },
     stampField "createdAt" (·.createdAt) fun r v => { r with createdAt := v },
     natField "sequence" (·.sequence) fun r v => { r with sequence := v }]

def executionCoreDecoder : Decoder ExecutionCore :=
  .record
    [textField "candidateDigest" (·.candidateDigest) fun r v => { r with candidateDigest := v },
     textField "prospectiveTreeDigest" (·.prospectiveTreeDigest)
       fun r v => { r with prospectiveTreeDigest := v },
     textField "commandGraphDigest" (·.commandGraphDigest)
       fun r v => { r with commandGraphDigest := v },
     textField "nodeContractDigest" (·.nodeContractDigest)
       fun r v => { r with nodeContractDigest := v },
     fieldOf "protectedInputs" (.list default protectedInputDecoder) (·.protectedInputs)
       fun r v => { r with protectedInputs := v }]

/-- A list of texts. -/
def textsDecoder : Decoder (List String) := .list "" (.text id)

def reuseDecisionDecoder : Decoder ReuseDecision :=
  .record
    [textField "apiVersion" (·.apiVersion) fun r v => { r with apiVersion := v },
     textField "kind" (·.kind) fun r v => { r with kind := v },
     textField "id" (·.id) fun r v => { r with id := v },
     textField "packageId" (·.packageId) fun r v => { r with packageId := v },
     textField "assessedByAttemptId" (·.assessedByAttempt)
       fun r v => { r with assessedByAttempt := v },
     fieldOf "policy" policyBindingDecoder (·.policy) fun r v => { r with policy := v },
     textField "originalCoreDigest" (·.originalCoreDigest)
       fun r v => { r with originalCoreDigest := v },
     fieldOf "currentCore" executionCoreDecoder (·.currentCore)
       fun r v => { r with currentCore := v },
     textField "currentCoreDigest" (·.currentCoreDigest)
       fun r v => { r with currentCoreDigest := v },
     textField "result" (·.result) fun r v => { r with result := v },
     fieldOf "reasons" textsDecoder (·.reasons) fun r v => { r with reasons := v },
     stampField "createdAt" (·.createdAt) fun r v => { r with createdAt := v },
     natField "sequence" (·.sequence) fun r v => { r with sequence := v }]

def providerBindingDecoder : Decoder DecisionProviderBinding :=
  .record
    [textField "id" (·.id) fun r v => { r with id := v },
     textField "version" (·.version) fun r v => { r with version := v },
     textField "schemaHash" (·.schemaHash) fun r v => { r with schemaHash := v }]

def decisionRecordDecoder : Decoder DecisionRecord :=
  .record
    [textField "id" (·.id) fun r v => { r with id := v },
     textField "projectId" (·.projectId) fun r v => { r with projectId := v },
     textField "graphRevision" (·.graphRevision) fun r v => { r with graphRevision := v },
     textField "nodeId" (·.nodeId) fun r v => { r with nodeId := v },
     textField "attemptId" (·.attemptId) fun r v => { r with attemptId := v },
     textField "roleId" (·.roleId) fun r v => { r with roleId := v },
     textField "key" (·.key) fun r v => { r with key := v },
     viaText "source" DecisionSource.ofText (·.source) fun r v => { r with source := v },
     textField "outcome" (·.outcome) fun r v => { r with outcome := v },
     fieldOf "facts" factsDecoder (·.facts) fun r v => { r with facts := v },
     fieldOf "evidenceRefs" (.list default evidenceRefDecoder) (·.evidenceRefs)
       fun r v => { r with evidenceRefs := v },
     textField "inputDigest" (·.inputDigest) fun r v => { r with inputDigest := v },
     fieldOf "provider" (.optional default providerBindingDecoder) (·.provider)
       fun r v => { r with provider := v },
     stampField "createdAt" (·.createdAt) fun r v => { r with createdAt := v },
     natField "sequence" (·.sequence) fun r v => { r with sequence := v }]

def actionRecordDecoder : Decoder ActionRecord :=
  .record
    [textField "id" (·.id) fun r v => { r with id := v },
     textField "kind" (·.kind) fun r v => { r with kind := v },
     textField "nodeId" (·.nodeId) fun r v => { r with nodeId := v },
     textField "attemptId" (·.attemptId) fun r v => { r with attemptId := v },
     viaText "status" ActionStatus.ofText (·.status) fun r v => { r with status := v },
     rawField "input" (·.input) fun r v => { r with input := v },
     natField "sequence" (·.sequence) fun r v => { r with sequence := v }]

def effectActionDecoder : Decoder EffectAction :=
  .record
    [textField "id" (·.id) fun r v => { r with id := v },
     textField "nodeId" (·.nodeId) fun r v => { r with nodeId := v },
     textField "attemptId" (·.attemptId) fun r v => { r with attemptId := v },
     textField "adapterId" (·.adapterId) fun r v => { r with adapterId := v },
     textField "adapterVersion" (·.adapterVersion) fun r v => { r with adapterVersion := v },
     textField "adapterSchemaHash" (·.adapterSchemaHash)
       fun r v => { r with adapterSchemaHash := v },
     textField "ownerRole" (·.ownerRole) fun r v => { r with ownerRole := v },
     viaText "status" EffectStatus.ofText (·.status) fun r v => { r with status := v },
     rawField "request" (·.request) fun r v => { r with request := v },
     rawField "prepared" (·.prepared) fun r v => { r with prepared := v },
     rawField "receipt" (·.receipt) fun r v => { r with receipt := v },
     textField "idempotencyKey" (·.idempotencyKey) fun r v => { r with idempotencyKey := v },
     stampField "preparedAt" (·.preparedAt) fun r v => { r with preparedAt := v },
     stampField "updatedAt" (·.updatedAt) fun r v => { r with updatedAt := v },
     natField "sequence" (·.sequence) fun r v => { r with sequence := v }]

def resourceLeaseDecoder : Decoder ResourceLease :=
  .record
    [textField "id" (·.id) fun r v => { r with id := v },
     textField "kind" (·.kind) fun r v => { r with kind := v },
     intField "quantity" (·.quantity) fun r v => { r with quantity := v },
     textField "nodeId" (·.nodeId) fun r v => { r with nodeId := v },
     textField "attemptId" (·.attemptId) fun r v => { r with attemptId := v },
     textField "roleId" (·.roleId) fun r v => { r with roleId := v },
     viaText "status" ResourceStatus.ofText (·.status) fun r v => { r with status := v },
     viaText "closureStatus" ClosureStatus.ofText (·.closureStatus)
       fun r v => { r with closureStatus := v },
     rawField "closureReceipt" (·.closureReceipt) fun r v => { r with closureReceipt := v },
     stampField "closureUpdatedAt" (·.closureUpdatedAt)
       fun r v => { r with closureUpdatedAt := v },
     stampField "leasedAt" (·.leasedAt) fun r v => { r with leasedAt := v },
     stampField "releasedAt" (·.releasedAt) fun r v => { r with releasedAt := v }]

def incidentControlDecoder : Decoder IncidentControl :=
  .record
    [textField "authority" (·.authority) fun r v => { r with authority := v },
     textField "actorRole" (·.actorRole) fun r v => { r with actorRole := v },
     textField "originalOwnerRole" (·.originalOwnerRole)
       fun r v => { r with originalOwnerRole := v },
     textField "disposition" (·.disposition) fun r v => { r with disposition := v },
     textField "resolution" (·.resolution) fun r v => { r with resolution := v },
     textField "note" (·.note) fun r v => { r with note := v },
     stampField "appliedAt" (·.appliedAt) fun r v => { r with appliedAt := v }]

def incidentDecoder : Decoder Incident :=
  .record
    [textField "id" (·.id) fun r v => { r with id := v },
     textField "sourceType" (·.sourceType) fun r v => { r with sourceType := v },
     textField "sourceId" (·.sourceId) fun r v => { r with sourceId := v },
     textField "nodeId" (·.nodeId) fun r v => { r with nodeId := v },
     textField "ownerRole" (·.ownerRole) fun r v => { r with ownerRole := v },
     viaText "status" IncidentStatus.ofText (·.status) fun r v => { r with status := v },
     textField "classification" (·.classification) fun r v => { r with classification := v },
     stampField "deadline" (·.deadline) fun r v => { r with deadline := v },
     intField "attemptBudget" (·.attemptBudget) fun r v => { r with attemptBudget := v },
     intField "attempts" (·.attempts) fun r v => { r with attempts := v },
     intField "noProgressAttempts" (·.noProgressAttempts)
       fun r v => { r with noProgressAttempts := v },
     textField "progressMetric" (·.progressMetric) fun r v => { r with progressMetric := v },
     textField "lastProgress" (·.lastProgress) fun r v => { r with lastProgress := v },
     stampField "lastProgressAt" (·.lastProgressAt) fun r v => { r with lastProgressAt := v },
     textField "circuitReason" (·.circuitReason) fun r v => { r with circuitReason := v },
     textField "resolution" (·.resolution) fun r v => { r with resolution := v },
     textField "disposition" (·.disposition) fun r v => { r with disposition := v },
     textField "dispositionBy" (·.dispositionBy) fun r v => { r with dispositionBy := v },
     stampField "dispositionAt" (·.dispositionAt) fun r v => { r with dispositionAt := v },
     textField "remedyNodeId" (·.remedyNodeId) fun r v => { r with remedyNodeId := v },
     stampField "supersededAt" (·.supersededAt) fun r v => { r with supersededAt := v },
     fieldOf "control" (.optional default incidentControlDecoder) (·.control)
       fun r v => { r with control := v },
     fieldOf "dependencyCut" (.list? "" (.text id)) (·.dependencyCut)
       fun r v => { r with dependencyCut := v },
     stampField "openedAt" (·.openedAt) fun r v => { r with openedAt := v },
     stampField "updatedAt" (·.updatedAt) fun r v => { r with updatedAt := v }]

/-- What an event says about the closing of an attempt. -/
structure AttemptFinish where
  attemptId : String
  outcome : String
  outcomeClass : OutcomeClass
  facts : PredicateFacts
  updatedAt : Stamp
deriving DecidableEq, Inhabited

def attemptFinishDecoder : Decoder AttemptFinish :=
  .record
    [textField "attemptId" (·.attemptId) fun r v => { r with attemptId := v },
     textField "outcome" (·.outcome) fun r v => { r with outcome := v },
     viaText "outcomeClass" OutcomeClass.ofText (·.outcomeClass)
       fun r v => { r with outcomeClass := v },
     fieldOf "facts" factsDecoder (·.facts) fun r v => { r with facts := v },
     stampField "updatedAt" (·.updatedAt) fun r v => { r with updatedAt := v }]

/-- What an event says about a status of a named object. -/
structure StatusChange (α : Type) where
  id : String
  status : α
  receipt : Option Json := none
  updatedAt : Stamp

/-- The zero status change. -/
instance {α : Type} [Inhabited α] : Inhabited (StatusChange α) := ⟨"", default, none, default⟩

/-- A status change under the given member name for the object. -/
def statusChangeDecoder {α : Type} (idName : String) (ofText : String → α) :
    Decoder (StatusChange α) :=
  .record
    [textField idName (·.id) fun r v => { r with id := v },
     viaText "status" ofText (·.status) fun r v => { r with status := v },
     stampField "updatedAt" (·.updatedAt) fun r v => { r with updatedAt := v }]

/-- An observation under the given member name for the object. -/
def observationDecoder {α : Type} (idName : String) (ofText : String → α) :
    Decoder (StatusChange α) :=
  .record
    [textField idName (·.id) fun r v => { r with id := v },
     viaText "status" ofText (·.status) fun r v => { r with status := v },
     rawField "receipt" (·.receipt) fun r v => { r with receipt := v },
     stampField "updatedAt" (·.updatedAt) fun r v => { r with updatedAt := v }]

/-- What an event says about a named object at a time. -/
def momentDecoder (idName stampName : String) : Decoder (String × Stamp) :=
  .record
    [textField idName (·.1) fun r v => { r with fst := v },
     stampField stampName (·.2) fun r v => { r with snd := v }]

/-! ### Events -/

/-- A reader of the payload of one type of event. -/
structure EventReader where
  /-- Read the payload. -/
  read : Json → Fallible Event
  /-- Does every member of the payload bind a field? -/
  closed : Json → Bool
  /-- Does the payload bind every field at most once? -/
  single : Json → Bool
  /-- Then its canonical form reads the same. -/
  read_canon : ∀ j, single j = true → read j.canon = read j

/-- The reader of events that carry a record. -/
def EventReader.of {α : Type} [Inhabited α] (d : Decoder α) (event : α → Event) : EventReader where
  read j := (d.decode default j).map event
  closed := d.closed
  single := d.single
  read_canon j single := by
    unfold Decoder.decode
    rw [d.read_canon default j single]

/-- The readers of the events that an imported history may contain, by their types. -/
def eventReaders : List (String × EventReader) :=
  [("role.bound", .of roleLeaseDecoder .roleBound),
   ("role.transferred", .of roleTransferDecoder .roleTransferred),
   ("role.released",
     .of (momentDecoder "roleId" "releasedAt") fun v => .roleReleased v.1 v.2),
   ("attempt.started", .of attemptDecoder .attemptStarted),
   ("attempt.leased", .of attemptDecoder .attemptLeased),
   ("attempt.status-changed",
     .of (statusChangeDecoder "attemptId" AttemptStatus.ofText)
       fun v => .attemptStatusChanged v.id v.status v.updatedAt),
   ("attempt.checkpointed", .of checkpointDecoder .attemptCheckpointed),
   ("attempt.finished",
     .of attemptFinishDecoder
       fun v => .attemptFinished v.attemptId v.outcome v.outcomeClass v.facts v.updatedAt),
   ("evidence.package-published", .of executionPackageDecoder .evidencePackagePublished),
   ("evidence.reuse-assessed", .of reuseDecisionDecoder .evidenceReuseAssessed),
   ("decision.recorded", .of decisionRecordDecoder .decisionRecorded),
   ("resource.leased", .of resourceLeaseDecoder .resourceLeased),
   ("resource.closure-observed",
     .of (observationDecoder "resourceId" ClosureStatus.ofText)
       fun v => .resourceClosureObserved v.id v.status v.receipt v.updatedAt),
   ("resource.released",
     .of (momentDecoder "resourceId" "releasedAt") fun v => .resourceReleased v.1 v.2),
   ("action.applied", .of actionRecordDecoder .actionApplied),
   ("effect.prepared", .of effectActionDecoder .effectPrepared),
   ("effect.dispatched",
     .of (momentDecoder "actionId" "dispatchedAt") fun v => .effectDispatched v.1 v.2),
   ("effect.reconciling",
     .of (momentDecoder "actionId" "reconcilingAt") fun v => .effectReconciling v.1 v.2),
   ("effect.observed",
     .of (observationDecoder "actionId" EffectStatus.ofText)
       fun v => .effectObserved v.id v.status v.receipt v.updatedAt),
   ("incident.opened", .of incidentDecoder .incidentOpened),
   ("incident.updated", .of incidentDecoder .incidentUpdated),
   ("incident.resolved",
     .of (momentDecoder "incidentId" "resolvedAt") fun v => .incidentResolved v.1 v.2)]

/-- The reader of a type of event. -/
def eventReader (type : String) : Option EventReader :=
  (eventReaders.find? fun entry => entry.1 = type).map Prod.snd

/-- An event of an imported history, with its payload as a document. -/
structure LifecycleMigrationEvent where
  type : String
  payload : Json
deriving DecidableEq

namespace LifecycleMigrationEvent

/-- The event as it is read from the given form of its payload. -/
def readAs (event : LifecycleMigrationEvent) (payload : Json) : Fallible Event := do
  let reader ← need (eventReader event.type) ("unsupported native event " ++ event.type)
  reader.read payload

/-- The event as the importer reads it. -/
def read (event : LifecycleMigrationEvent) : Fallible Event :=
  event.readAs event.payload

/-- The event as it is read from the journal, which stores payloads in canonical form. -/
def stored (event : LifecycleMigrationEvent) : Fallible Event :=
  event.readAs event.payload.canon

/-- The event as the journal keeps it. One whose payload no longer reads is kept all the same. -/
def committed (event : LifecycleMigrationEvent) : Event :=
  match event.stored with
  | .ok value => value
  | .error _ => .unsupported event.type

/-- Does the payload bind every field at most once? -/
def single (event : LifecycleMigrationEvent) : Bool :=
  (eventReader event.type).all fun reader => reader.single event.payload

/-- An event whose payload binds every field at most once reads from the journal as the importer
reads it. -/
theorem stored_eq_read
    {event : LifecycleMigrationEvent} (single : event.single = true) :
  event.stored = event.read
  := by
  unfold stored read readAs
  unfold LifecycleMigrationEvent.single at single
  cases known : eventReader event.type with
  | none => rfl
  | some reader =>
      simp only [known, Option.all_some] at single
      simp only [need, ok_bind]
      exact reader.read_canon event.payload single

/-- The raw document a member of the payload binds, if any: the last one in document order. -/
def bound (event : LifecycleMigrationEvent) (field : String) : Option Json :=
  match event.payload with
  | .obj members => (boundValues field members).getLast?
  | _ => none

end LifecycleMigrationEvent

end Dagrail
