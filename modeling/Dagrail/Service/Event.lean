import Dagrail.Domain.State

/-!
# Journal events and segments

A segment carries one command and the batch of events it committed. An event appears here with
its decoded payload: the writers encode a record and the reader decodes the same record, so the
only payloads whose decoding matters are those of an imported history, which are decoded where
the import is modelled.
-/

namespace Dagrail

/-- The command a segment was committed for. -/
structure Command where
  id : String
  kind : String
  actorRole : String := ""
  idempotencyKey : String := ""
  objectRef : String := ""
  requestDigest : String := ""
deriving DecidableEq, Inhabited

/-- The bootstrap record of a project authority. -/
structure AuthorityEstablishment where
  apiVersion : String
  kind : String
  projectId : String
  previousProjectId : String := ""
  operation : String
  establishedAt : Stamp
  provenanceDigest : String
deriving DecidableEq

/-- The fence that ends a project authority. -/
structure AuthorityRetirement where
  apiVersion : String
  kind : String
  previousProjectId : String
  previousLocatorId : String := ""
  targetRootDigest : String := ""
  destinationRootDigest : String := ""
  previousHead : String
  recoveryHead : String
  recoveryBackupDigest : String
  replacementProjectId : String
  rotatedAt : Stamp
  reason : String
  idempotencyKey : String
deriving DecidableEq

/-- What a graph change touches. -/
structure GraphImpact where
  currentRevision : String := ""
  proposedRevision : String := ""
  addedNodes : List String := []
  updatedNodes : List String := []
  removedNodes : List String := []
  addedEdges : List String := []
  removedEdges : List String := []
  addedRoles : List String := []
  updatedRoles : List String := []
  removedRoles : List String := []
  addedGroups : List String := []
  updatedGroups : List String := []
  removedGroups : List String := []
  addedLanes : List String := []
  updatedLanes : List String := []
  removedLanes : List String := []
  movedNodes : List String := []
  dependencyCut : List String := []
  token : String := ""
  expiresAt : Stamp := .unset
deriving DecidableEq

/-- A journal event with its decoded payload. -/
inductive Event where
  | authorityEstablished (establishment : AuthorityEstablishment)
  | authorityRetired (retirement : AuthorityRetirement)
  | lifecycleHistoryImported (receipt : LifecycleMigrationReceipt)
  | graphImported (graph : GraphDefinition) (revision : String) (sourceInputDigest : String)
  | graphRevised (graph : GraphDefinition) (revision previousRevision : String)
      (superseded : List String) (impact : GraphImpact)
  | roleBound (lease : RoleLease)
  | roleTransferred (transfer : RoleTransfer)
  | roleReleased (roleId : String) (releasedAt : Stamp)
  | attemptStarted (attempt : Attempt)
  | attemptLeased (attempt : Attempt)
  | nodeAutoCompleted (nodeId outcome : String) (completedAt : Stamp)
  | nodeAutoSkipped (nodeId reason : String) (skippedAt : Stamp)
  | attemptCheckpointed (checkpoint : Checkpoint)
  | evidencePackagePublished (pack : ExecutionPackage)
  | evidenceReuseAssessed (decision : ReuseDecision)
  | decisionRecorded (decision : DecisionRecord)
  | attemptStatusChanged (attemptId : String) (status : AttemptStatus) (updatedAt : Stamp)
  | attemptFinished (attemptId outcome : String) (outcomeClass : OutcomeClass)
      (facts : PredicateFacts) (updatedAt : Stamp)
  | resourceLeased (lease : ResourceLease)
  | resourceClosureObserved (resourceId : String) (status : ClosureStatus)
      (receipt : Option Json) (updatedAt : Stamp)
  | resourceReleased (resourceId : String) (releasedAt : Stamp)
  | actionApplied (action : ActionRecord)
  | effectPrepared (effect : EffectAction)
  | effectDispatched (actionId : String) (dispatchedAt : Stamp)
  | effectReconciling (actionId : String) (reconcilingAt : Stamp)
  | effectObserved (actionId : String) (status : EffectStatus) (receipt : Option Json)
      (updatedAt : Stamp)
  | incidentOpened (incident : Incident)
  | incidentUpdated (incident : Incident)
  | incidentResolved (incidentId : String) (resolvedAt : Stamp)
  | unsupported (type : String)

/-- A committed segment of the journal. -/
structure Segment where
  schemaVersion : Nat
  sequence : Nat
  projectId : String
  previousHash : String
  command : Command
  events : List Event
  committedAt : Stamp
  segmentHash : String

end Dagrail
