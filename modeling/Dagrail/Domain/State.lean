import Dagrail.Domain.Graph
import Dagrail.Domain.Time

/-!
# Project state

The records that replay of the journal produces: node runtimes, attempts, role leases,
checkpoints, decisions, execution packages, reuse decisions, actions, effects, resource leases,
incidents, migration receipts and the results of idempotent commands.

A status that replay takes over from an event payload has a constructor `other` for a text
outside the program's vocabulary.
-/

namespace Dagrail

/-! ### Statuses -/

/-- The status of a node. Replay writes only these. -/
inductive NodeStatus where
  | absent
  | planned
  | active
  | terminal
  | skipped
  | superseded
deriving DecidableEq, Inhabited

/-- The status of an attempt. -/
inductive AttemptStatus where
  | unset
  | leased
  | running
  | waiting
  | submitted
  | terminal
  | other (text : String)
deriving DecidableEq, Inhabited

/-- The status of an action record. -/
inductive ActionStatus where
  | unset
  | applied
  | prepared
  | dispatched
  | reconciling
  | confirmed
  | failed
  | unknown
  | other (text : String)
deriving DecidableEq, Inhabited

/-- The status of an effect. -/
inductive EffectStatus where
  | unset
  | prepared
  | dispatched
  | reconciling
  | confirmed
  | failed
  | unknown
  | other (text : String)
deriving DecidableEq, Inhabited

/-- The status of a resource lease. -/
inductive ResourceStatus where
  | unset
  | active
  | released
  | other (text : String)
deriving DecidableEq, Inhabited

/-- The closure status of a resource lease. -/
inductive ClosureStatus where
  | unset
  | pending
  | confirmed
  | failed
  | unknown
  | reconciling
  | other (text : String)
deriving DecidableEq, Inhabited

/-- The status of an incident. -/
inductive IncidentStatus where
  | unset
  | opened
  | circuitOpen
  | resolved
  | other (text : String)
deriving DecidableEq, Inhabited

/-! ### Records -/

/-- The facts a closed node offers to edge predicates. -/
structure PredicateFacts where
  decision : Table String := ∅
  evidence : Table String := ∅
  policy : Table String := ∅
deriving DecidableEq

instance : Inhabited PredicateFacts := ⟨{}⟩

/-- The run-time side of a node. -/
structure NodeRuntime where
  status : NodeStatus
  outcome : String := ""
  outcomeClass : OutcomeClass := .unset
  facts : PredicateFacts := {}
deriving DecidableEq, Inhabited

/-- One try at a node. -/
structure Attempt where
  id : String
  nodeId : String
  roleId : String
  number : Int
  status : AttemptStatus
  outcome : String := ""
  checkpointId : String := ""
  startedAt : Stamp
  updatedAt : Stamp
deriving DecidableEq, Inhabited

/-- The binding of a role to a session. -/
structure RoleLease where
  roleId : String
  harness : String
  sessionId : String
  boundAt : Stamp
  expiresAt : Stamp
  active : Bool
deriving DecidableEq, Inhabited

/-- The record of replacing an unexpired lease under a distinct controller. -/
structure RoleTransfer where
  authority : String
  actorRole : String
  actorSessionId : String
  previous : RoleLease
  next : RoleLease
  reason : String
  transferredAt : Stamp
deriving DecidableEq, Inhabited

/-- A reference to stored evidence. -/
structure EvidenceRef where
  digest : String
  type : String
  size : Int
  uri : String := ""
deriving DecidableEq, Inhabited

/-- A recorded point of progress of an attempt. -/
structure Checkpoint where
  id : String
  attemptId : String
  summary : String
  evidenceRefs : List EvidenceRef := []
  createdAt : Stamp
deriving DecidableEq, Inhabited

/-- The provider that produced a decision. -/
structure DecisionProviderBinding where
  id : String
  version : String
  schemaHash : String
deriving DecidableEq, Inhabited

/-- A recorded semantic choice. -/
structure DecisionRecord where
  id : String
  projectId : String
  graphRevision : String
  nodeId : String
  attemptId : String
  roleId : String
  key : String
  source : DecisionSource
  outcome : String
  facts : PredicateFacts := {}
  evidenceRefs : List EvidenceRef := []
  inputDigest : String
  provider : Option DecisionProviderBinding := none
  createdAt : Stamp
  sequence : Nat := 0
deriving DecidableEq, Inhabited

/-- Where an artifact comes from. -/
structure ArtifactProvenance where
  producer : String
  revision : String := ""
  invocationDigest : String := ""
deriving DecidableEq, Inhabited

/-- A reference to an artifact. -/
structure ArtifactRef where
  digest : String
  type : String
  size : Int
  uri : String := ""
  provenance : ArtifactProvenance
deriving DecidableEq, Inhabited

/-- A named input of an execution. -/
structure ProtectedInput where
  name : String
  digest : String
deriving DecidableEq, Inhabited

/-- What was observed of an execution. -/
structure ExecutionObservations where
  exact : Bool
  clean : Bool
  depthComplete : Bool
  sourceUnmodified : Bool
  resourcesClosed : Bool
deriving DecidableEq, Inhabited

/-- The evidence of one execution. The artifact list of a record that lacks the member is
`none`, which is not the empty list. -/
structure ExecutionPackage where
  apiVersion : String
  kind : String
  id : String
  projectId : String
  graphRevision : String
  nodeId : String
  attemptId : String
  nodeContractDigest : String
  candidate : ArtifactRef
  prospectiveTree : ArtifactRef
  commandGraphDigest : String
  protectedInputs : List ProtectedInput
  observations : ExecutionObservations
  artifacts : Option (List ArtifactRef)
  coreDigest : String
  createdAt : Stamp
  sequence : Nat := 0
deriving DecidableEq, Inhabited

/-- The policy a reuse decision was made under. -/
structure PolicyBinding where
  id : String
  version : String
  schemaHash : String
deriving DecidableEq, Inhabited

/-- The protected core that reuse compares. -/
structure ExecutionCore where
  candidateDigest : String
  prospectiveTreeDigest : String
  commandGraphDigest : String
  nodeContractDigest : String
  protectedInputs : List ProtectedInput
deriving DecidableEq, Inhabited

/-- Whether an execution may be reused. -/
structure ReuseDecision where
  apiVersion : String
  kind : String
  id : String
  packageId : String
  assessedByAttempt : String
  policy : PolicyBinding
  originalCoreDigest : String
  currentCore : ExecutionCore
  currentCoreDigest : String
  result : String
  reasons : List String
  createdAt : Stamp
  sequence : Nat := 0
deriving DecidableEq, Inhabited

/-- An applied action. -/
structure ActionRecord where
  id : String
  kind : String
  nodeId : String := ""
  attemptId : String := ""
  status : ActionStatus
  input : Option Json := none
  sequence : Nat := 0
deriving DecidableEq, Inhabited

/-- An external effect of an attempt. -/
structure EffectAction where
  id : String
  nodeId : String
  attemptId : String
  adapterId : String
  adapterVersion : String := ""
  adapterSchemaHash : String := ""
  ownerRole : String := ""
  status : EffectStatus
  request : Option Json
  prepared : Option Json
  receipt : Option Json := none
  idempotencyKey : String
  preparedAt : Stamp
  updatedAt : Stamp
  sequence : Nat := 0
deriving DecidableEq, Inhabited

/-- A leased resource. -/
structure ResourceLease where
  id : String
  kind : String
  quantity : Int
  nodeId : String
  attemptId : String
  roleId : String := ""
  status : ResourceStatus
  closureStatus : ClosureStatus := .unset
  closureReceipt : Option Json := none
  closureUpdatedAt : Stamp := .unset
  leasedAt : Stamp
  releasedAt : Stamp := .unset
deriving DecidableEq, Inhabited

/-- How a control authority disposed of an incident. -/
structure IncidentControl where
  authority : String
  actorRole : String
  originalOwnerRole : String
  disposition : String
  resolution : String
  note : String
  appliedAt : Stamp
deriving DecidableEq, Inhabited

/-- A failure that needs attention. The dependency cut of a record that lacks the member is
`none`, which is not the empty list. -/
structure Incident where
  id : String
  sourceType : String
  sourceId : String
  nodeId : String := ""
  ownerRole : String := ""
  status : IncidentStatus
  classification : String
  deadline : Stamp := .unset
  attemptBudget : Int
  attempts : Int := 0
  noProgressAttempts : Int := 0
  progressMetric : String := ""
  lastProgress : String := ""
  lastProgressAt : Stamp := .unset
  circuitReason : String := ""
  resolution : String := ""
  disposition : String := ""
  dispositionBy : String := ""
  dispositionAt : Stamp := .unset
  remedyNodeId : String := ""
  supersededAt : Stamp := .unset
  control : Option IncidentControl := none
  dependencyCut : Option (List String) := none
  openedAt : Stamp
  updatedAt : Stamp
deriving DecidableEq, Inhabited

/-- The binding of one historical import. -/
structure LifecycleMigrationReceipt where
  id : String
  sourceSystem : String
  sourceProject : String
  sourceAuthorityHash : String
  sourceHeadSequence : Nat
  sourceHeadEventId : String
  sourceHeadEventHash : String
  recordsDigest : String
  recordCount : Nat
  nativeEventCount : Nat
  graphRevision : String
  targetSequence : Nat
  importedAt : Stamp
deriving DecidableEq, Inhabited

/-- The result a retry of a command finds. -/
structure CommandResult where
  kind : String
  actorRole : String := ""
  objectRef : String := ""
  requestDigest : String := ""
  graphRevision : String := ""
  sequence : Nat
deriving DecidableEq, Inhabited

/-- The state of a project. -/
structure State where
  projectId : String
  graph : Option GraphDefinition := none
  graphRevision : String := ""
  headSequence : Nat := 0
  headHash : String := ""
  nodes : Table NodeRuntime := ∅
  attempts : Table Attempt := ∅
  nodeAttempts : Table (List String) := ∅
  leases : Table RoleLease := ∅
  checkpoints : Table Checkpoint := ∅
  decisions : Table DecisionRecord := ∅
  attemptDecisions : Table (List String) := ∅
  evidencePackages : Table ExecutionPackage := ∅
  attemptPackages : Table (List String) := ∅
  reuseDecisions : Table ReuseDecision := ∅
  packageDecisions : Table (List String) := ∅
  actions : Table ActionRecord := ∅
  effects : Table EffectAction := ∅
  resources : Table ResourceLease := ∅
  incidents : Table Incident := ∅
  lifecycleMigrations : Table LifecycleMigrationReceipt := ∅
  commands : Table CommandResult := ∅

/-- The state before the first segment. -/
def State.new (projectId : String) : State :=
  { projectId }

namespace State

/-- The declaration of a node in the current graph. -/
def nodeDefinition (s : State) (nodeId : String) : Option NodeDefinition :=
  s.graph.bind fun g => g.nodeDefinition nodeId

/-- A declared node has the id it was found by and is one of the graph. -/
theorem nodeDefinition_some
    {s : State} {nodeId : String} {node : NodeDefinition}
    (found : s.nodeDefinition nodeId = some node) :
  node.id = nodeId ∧ ∃ g, s.graph = some g ∧ node ∈ g.spec.nodes
  := by
  simp only [nodeDefinition, Option.bind_eq_some_iff] at found
  obtain ⟨g, graph, declared⟩ := found
  exact ⟨(GraphDefinition.nodeDefinition_some declared).1, g, graph,
    (GraphDefinition.nodeDefinition_some declared).2⟩

/-- The last attempt recorded for a node. -/
def latestAttempt (s : State) (nodeId : String) : Option Attempt :=
  (s.nodeAttempts.get nodeId).getLast?.bind fun id => s.attempts.lookup id

/-- An effect of the attempt, if there is one. -/
def effectForAttempt (s : State) (attemptId : String) : Option EffectAction :=
  s.effects.values.find? fun effect => effect.attemptId = attemptId

/-- The last package published by an attempt. -/
def latestExecutionPackage (s : State) (attemptId : String) : Option ExecutionPackage :=
  (s.attemptPackages.get attemptId).getLast?.bind fun id => s.evidencePackages.lookup id

end State

end Dagrail
