import Dagrail.Service.LifecycleEvent

/-!
# Incidents of an imported history

An incident event of an imported history is either the companion of an observation or a failed
attempt, which is fully determined by what it accompanies, or an explicit update, which has to be
a change that an incident command could have made.
-/

namespace Dagrail

namespace Lifecycle

variable (p : Platform) (c : LifecycleRecordContext) (s : State) (occurredAt : Stamp)

/-! ### Fields -/

/-- The fields every imported incident has to get right. -/
def incidentFields (updates : Bool) (incident : Incident) : Bool :=
  incident.id ≠ "" && ["attempt", "effect", "resource"].contains incident.sourceType
    && incident.sourceId ≠ ""
    && (incident.status = .opened || incident.status = .circuitOpen
      || (updates && incident.status = .resolved))
    && incidentClassifications.contains incident.classification && 1 ≤ incident.attemptBudget
    && 0 ≤ incident.attempts && 0 ≤ incident.noProgressAttempts && incident.openedAt.valid
    && incident.updatedAt.atOrAfter incident.openedAt && incident.updatedAt.atOrBefore occurredAt

/-- A timestamp of an incident that is absent or lies between its opening and its update. -/
def withinIncident (incident : Incident) (at_ : Stamp) : Bool :=
  at_ = .unset || (at_.atOrAfter incident.openedAt && at_.atOrBefore incident.updatedAt)

/-- A repair binding belongs to a resolution by repair, and names a live successor. -/
def repairBinding (incident : Incident) : Bool :=
  if incident.remedyNodeId ≠ "" ∨ incident.supersededAt ≠ .unset then
    incident.resolution = incidentResolutionSupersededByRepair && incident.sourceType = "attempt"
      && incident.status = .resolved && incident.remedyNodeId ≠ ""
      && incident.supersededAt = incident.updatedAt
      && validIncidentSuccessor s incident incident.remedyNodeId
  else true

/-- The record an incident is about exists, fits its node and owner, and is older. -/
def incidentSource (incident : Incident) : Bool :=
  let fits (nodeId roleId : String) (since : Stamp) : Bool :=
    (incident.nodeId = "" || incident.nodeId = nodeId)
      && (incident.ownerRole = "" || incident.ownerRole = roleId)
      && incident.openedAt.atOrAfter since
  if incident.sourceType = "attempt" then
    (s.attempts.lookup incident.sourceId).any fun a => fits a.nodeId a.roleId a.startedAt
  else if incident.sourceType = "effect" then
    (s.effects.lookup incident.sourceId).any fun e => fits e.nodeId e.ownerRole e.preparedAt
  else if incident.sourceType = "resource" then
    (s.resources.lookup incident.sourceId).any fun r => fits r.nodeId r.roleId r.leasedAt
  else false

/-! ### Explicit updates -/

/-- Does an update equal one of the changes that an incident command makes? -/
def validExplicitIncidentUpdate (prior next : Incident) : Bool :=
  let base := { prior with updatedAt := next.updatedAt }
  let open_ : Bool := prior.status ≠ .resolved
  let repairs : Bool := next.remedyNodeId ≠ "" || next.supersededAt ≠ .unset
  let progressed : Bool := next.lastProgress ≠ "" && next.lastProgressAt = next.updatedAt
  -- the controller's change, with its time written in the zone of the update
  let controlled : Bool :=
    next.control.any fun control => next.updatedAt.parse.any fun now =>
      (next.updatedAt.plus 0).any fun appliedAt =>
        match controlResolveIncidentValue p control.actorRole
            { disposition := control.disposition, resolution := control.resolution
              note := control.note } prior s now with
        | .ok changed =>
            { changed with
              dispositionAt := appliedAt
              lastProgressAt := appliedAt
              control := changed.control.map fun control => { control with appliedAt }
              updatedAt := next.updatedAt } = next
        | .error _ => false
  let resolved : Bool :=
    open_ && prior.sourceType = "attempt" && next.resolution ≠ ""
      && (next.resolution ≠ incidentResolutionSupersededByRepair || !repairs)
      && { base with status := .resolved, resolution := next.resolution } = next
  let superseded : Bool :=
    open_ && prior.sourceType = "attempt"
      && next.resolution = incidentResolutionSupersededByRepair && next.remedyNodeId ≠ ""
      && next.supersededAt = next.updatedAt && progressed
      && { base with
          status := .resolved
          resolution := incidentResolutionSupersededByRepair
          remedyNodeId := next.remedyNodeId
          supersededAt := next.supersededAt
          lastProgress := next.lastProgress
          lastProgressAt := next.lastProgressAt } = next
  let tripped : Bool :=
    open_ && next.circuitReason ≠ ""
      && { base with status := .circuitOpen, circuitReason := next.circuitReason } = next
  let advanced (madeProgress : Bool) : Bool :=
    let candidate := { base with
      attempts := base.attempts + 1
      lastProgress := next.lastProgress
      lastProgressAt := next.updatedAt
      noProgressAttempts := if madeProgress then 0 else base.noProgressAttempts + 1 }
    let candidate :=
      if 0 < candidate.attemptBudget ∧ candidate.attemptBudget ≤ candidate.noProgressAttempts then
        { candidate with
          status := .circuitOpen, circuitReason := "no_progress_attempt_budget_exhausted" }
      else if candidate.deadline.parse.any fun deadline =>
          next.updatedAt.parse.any fun updated => decide (deadline ≤ updated) then
        { candidate with status := .circuitOpen, circuitReason := "deadline_exceeded" }
      else candidate
    prior.status = .opened && progressed && candidate = next
  let disposed : Bool :=
    let candidate := { base with
      disposition := next.disposition
      dispositionBy := next.dispositionBy
      dispositionAt := next.dispositionAt
      lastProgress := next.lastProgress
      lastProgressAt := next.lastProgressAt }
    let candidate :=
      if next.disposition = "retry" ∧ prior.status = .circuitOpen then
        match next.updatedAt.plus Duration.hour with
        | some deadline =>
            { candidate with
              status := .opened
              circuitReason := ""
              attempts := 0
              noProgressAttempts := 0
              deadline }
        | none => candidate
      else candidate
    open_ && incidentDispositions.contains next.disposition && next.dispositionBy = next.ownerRole
      && next.dispositionAt = next.updatedAt && progressed && candidate = next
  controlled || resolved || superseded || tripped || advanced true || advanced false || disposed

/-- Is the update the companion of an unconfirmed closure of this command? -/
def automaticResourceUpdate (incident : Incident) : Bool :=
  incident.sourceType = "resource"
    && (c.resourceObservations.lookup incident.sourceId).any fun observation =>
      (observation.status = .failed || observation.status = .unknown)
        && observation.updatedAt = incident.updatedAt

/-- Who may update the incident: its controller, or its owner. -/
def updateAuthority (incident : Incident) : Bool :=
  match incident.control with
  | some control =>
      control.authority = incidentControlAuthority && control.actorRole ≠ ""
        && control.actorRole ≠ incident.ownerRole
        && control.originalOwnerRole = incident.ownerRole
        && roleLeaseCovers s control.actorRole incident.updatedAt
        && GraphDefinition.roleHasCapability s.graph control.actorRole .incidentControl
  | none =>
      if automaticResourceUpdate c incident then
        GraphDefinition.roleHasCapability s.graph incident.ownerRole .resourceClose
      else
        incident.ownerRole ≠ "" && roleLeaseCovers s incident.ownerRole incident.updatedAt
          && GraphDefinition.roleHasCapability s.graph incident.ownerRole .incidentManage

/-- Is the incident event one that may occur at this place of the history? -/
def validateLifecycleIncident (updates : Bool) (incident : Incident) : Fallible Unit := do
  check (incidentFields occurredAt updates incident) "incident fields are invalid"
  check (!(incident.status = .resolved && incident.resolution = ""))
    "resolved incident requires a resolution"
  check (withinIncident incident incident.lastProgressAt) "incident progress time is invalid"
  check (withinIncident incident incident.dispositionAt) "incident disposition time is invalid"
  check (repairBinding s incident) "incident repair successor is invalid"
  check (incident.nodeId = "" || (s.nodeDefinition incident.nodeId).isSome)
    "incident references an unknown node"
  check (incident.ownerRole = "" || graphHasRole s incident.ownerRole)
    "incident references an unknown role"
  if updates then do
    check (updateAuthority c s incident) "incident update is outside its owner role binding"
    check (automaticResourceUpdate c incident
        || (s.incidents.lookup incident.id).any fun prior =>
          validExplicitIncidentUpdate p s prior incident)
      "incident update is not a current writer transition"
  else .ok ()
  check (incident.deadline = .unset || incident.deadline.atOrAfter incident.openedAt)
    "incident deadline is invalid"
  check (incidentSource s incident) "incident references an unknown source"

/-- Does a new body of an incident keep what an incident never changes? -/
def sameIncident (current next : Incident) : Bool :=
  current.sourceType = next.sourceType && current.sourceId = next.sourceId
    && current.nodeId = next.nodeId && current.ownerRole = next.ownerRole
    && current.classification = next.classification && current.openedAt = next.openedAt
    && next.updatedAt.atOrAfter current.updatedAt

/-- File the body of an incident. One command has one body for an incident at most. -/
def fileIncident (type : String) (incident : Incident) : Admission := do
  check (!c.incidentEvents.has incident.id)
    ("one source command cannot emit multiple incident bodies for " ++ incident.id)
  .ok
    ({ c with
        incidentEvents := c.incidentEvents.insert incident.id
          { type, incident, prior := s.incidents.lookup incident.id } },
     { s with incidents := s.incidents.insert incident.id incident })

/-- An incident is opened, or, for an effect, opened again while it is open. -/
def openIncident (incident : Incident) : Admission := do
  validateLifecycleIncident p c s occurredAt false incident
  check ((s.incidents.lookup incident.id).all fun current =>
      current.status = .opened && current.sourceType = "effect" && sameIncident current incident)
    "reopened incident changes immutable identity or time"
  fileIncident c s "incident.opened" incident

/-- An incident that is not resolved is updated. -/
def updateIncident (incident : Incident) : Admission := do
  validateLifecycleIncident p c s occurredAt true incident
  check ((s.incidents.lookup incident.id).any fun current =>
      current.status ≠ .resolved && sameIncident current incident)
    "incident update changes immutable identity or time"
  fileIncident c s "incident.updated" incident

/-- Does a confirmed observation of this command resolve the incident? -/
def causedByConfirmedObservation (incident : Incident) : Bool :=
  if incident.sourceType = "resource" then
    (c.resourceObservations.lookup incident.sourceId).any (fun o => o.status = .confirmed)
      && c.resourceReleases.has incident.sourceId
      && (s.resources.lookup incident.sourceId).any fun resource => resource.status = .released
  else if incident.sourceType = "effect" then
    (c.effectObservations.lookup incident.sourceId).any fun o => o.status = .confirmed
  else false

/-- An incident is resolved by a confirmed observation. -/
def resolveIncident (incidentId : String) (resolvedAt : Stamp) : Admission := do
  let incident ← need ((s.incidents.lookup incidentId).filter fun incident =>
      incident.status ≠ .resolved && causedByConfirmedObservation c s incident
        && resolvedAt.atOrAfter incident.updatedAt && resolvedAt.atOrBefore occurredAt)
    "incident resolution is invalid"
  check (!c.incidentResolutions.has incidentId)
    ("one source command cannot resolve incident " ++ incidentId ++ " more than once")
  .ok
    ({ c with incidentResolutions := c.incidentResolutions.insert incidentId resolvedAt },
     { s with
        incidents := s.incidents.insert incident.id
          { incident with status := .resolved, updatedAt := resolvedAt } })

/-! ### Companions -/

/-- A companion without dependency cut has none recorded. -/
def normalizeIncidentForWriterComparison (incident : Incident) : Incident :=
  if incident.dependencyCut = some [] then { incident with dependencyCut := none } else incident

/-- What a companion keeps of the incident before it. -/
def carryOver (expected prior : Incident) : Incident :=
  { expected with
    openedAt := prior.openedAt
    attempts := prior.attempts + 1
    deadline := prior.deadline
    lastProgress := prior.lastProgress
    lastProgressAt := prior.lastProgressAt
    disposition := prior.disposition
    dispositionBy := prior.dispositionBy
    dispositionAt := prior.dispositionAt }

/-- The incident a failed completion opens. -/
def completionCompanion (node : NodeDefinition) (attemptId classification : String)
    (finish : AttemptFinish) (deadline : Stamp) : Incident :=
  normalizeIncidentForWriterComparison
    { id := "attempt:" ++ attemptId
      sourceType := "attempt"
      sourceId := attemptId
      nodeId := node.id
      ownerRole := (s.attempts.get attemptId).roleId
      status := .opened
      classification
      deadline
      attemptBudget := 2
      progressMetric := "new candidate or changed failure classification"
      dependencyCut := dependencyCut s node.id
      openedAt := finish.updatedAt
      updatedAt := finish.updatedAt }

/-- A failed completion has its incident, any other completion has none. -/
def consumeCompletionIncidentEvent (node : NodeDefinition) (attemptId : String)
    (finish : AttemptFinish) (classification : String) : Fallible LifecycleRecordContext := do
  let incidentId := "attempt:" ++ attemptId
  if finish.outcomeClass.opensIncident then do
    let event ← need ((c.incidentEvents.lookup incidentId).filter fun event =>
        event.type = "incident.opened" && event.prior.isNone)
      "failed completion requires one new attempt incident"
    let deadline ← need (finish.updatedAt.plus Duration.hour) "completion incident time is invalid"
    let classification :=
      if classification = "" then event.incident.classification else classification
    check (event.incident = completionCompanion s node attemptId classification finish deadline)
      "attempt incident is not the deterministic writer companion"
    .ok { c with incidentEvents := c.incidentEvents.erase incidentId }
  else do
    check (!c.incidentEvents.has incidentId)
      "successful or retryable completion cannot open an attempt incident"
    .ok c

/-- The incident an unconfirmed closure opens or counts against. -/
def resourceCompanion (resource : ResourceLease) (prior : Option Incident) (observedAt deadline : Stamp) :
    Incident :=
  let expected := normalizeIncidentForWriterComparison
    { id := "resource:" ++ resource.id
      sourceType := "resource"
      sourceId := resource.id
      nodeId := resource.nodeId
      ownerRole := resource.roleId
      status := .opened
      classification := "infrastructure"
      deadline
      attemptBudget := 2
      attempts := 1
      noProgressAttempts := 1
      progressMetric := "new closure receipt or changed observation"
      dependencyCut := dependencyCut s resource.nodeId
      openedAt := observedAt
      updatedAt := observedAt }
  match prior with
  | none => expected
  | some prior =>
      let next := { carryOver expected prior with
        noProgressAttempts := prior.noProgressAttempts + 1 }
      if next.attemptBudget ≤ next.noProgressAttempts then
        { next with
          status := .circuitOpen, circuitReason := "resource_closure_attempt_budget_exhausted" }
      else next

/-- A confirmed closure resolves the incident there is, any other closure has its companion. -/
def consumeResourceIncidentEvent (resource : ResourceLease)
    (observation : StatusChange ClosureStatus) : Fallible LifecycleRecordContext := do
  let incidentId := "resource:" ++ resource.id
  let prior := c.resourceIncidentBefore.get resource.id
  check (prior.all fun prior => prior.status = .opened)
    "resource action cannot bypass an incident circuit"
  if observation.status = .confirmed then do
    check (!c.incidentEvents.has incidentId)
      "confirmed resource closure cannot update an incident body"
    check (c.incidentResolutions.lookup incidentId = prior.map fun _ => observation.updatedAt)
      "confirmed resource closure must resolve its existing incident at the observation time"
    .ok { c with incidentResolutions := c.incidentResolutions.erase incidentId }
  else do
    check (!c.incidentResolutions.has incidentId)
      "unconfirmed resource closure cannot resolve an incident"
    let event ← need (c.incidentEvents.lookup incidentId)
      "unconfirmed resource closure requires an incident companion"
    let deadline ← need (observation.updatedAt.plus Duration.hour)
      "resource observation time is invalid"
    check (event.type = (if prior.isSome then "incident.updated" else "incident.opened")
        && event.incident = resourceCompanion s resource prior observation.updatedAt deadline)
      "resource incident is not the deterministic writer companion"
    .ok { c with incidentEvents := c.incidentEvents.erase incidentId }

/-- The incident an unknown or failed observation opens. -/
def effectCompanion (actionId : String) (effect : EffectAction) (prior : Option Incident)
    (observedAt deadline : Stamp) : Incident :=
  let expected := normalizeIncidentForWriterComparison
    { id := effectIncidentId actionId
      sourceType := "effect"
      sourceId := actionId
      nodeId := effect.nodeId
      ownerRole := effect.ownerRole
      status := .opened
      classification := "external-effect"
      deadline
      attemptBudget := 2
      progressMetric := "new external receipt or deterministic reconcile result"
      dependencyCut := dependencyCut s effect.nodeId
      openedAt := observedAt
      updatedAt := observedAt }
  let next := match prior with
    | none => expected
    | some prior =>
        { carryOver expected prior with noProgressAttempts := prior.noProgressAttempts }
  if next.attemptBudget ≤ next.attempts then
    { next with status := .circuitOpen, circuitReason := "effect_attempt_budget_exhausted" }
  else next

/-- A confirmed observation resolves the incident there is, an unknown or failed one has its
companion, and a reconciling one leaves incidents alone. -/
def consumeEffectIncidentEvent (actionId : String) (observation : StatusChange EffectStatus) :
    Fallible LifecycleRecordContext := do
  let incidentId := effectIncidentId actionId
  let prior := c.effectIncidentBefore.get actionId
  check (prior.all fun prior => prior.status = .opened)
    "effect observation cannot bypass an incident circuit"
  if observation.status = .confirmed then do
    check (!c.incidentEvents.has incidentId)
      "confirmed effect observation cannot update an incident body"
    check (c.incidentResolutions.lookup incidentId = prior.map fun _ => observation.updatedAt)
      "confirmed effect observation must resolve its existing incident at the observation time"
    .ok { c with incidentResolutions := c.incidentResolutions.erase incidentId }
  else if observation.status = .reconciling then do
    check (!c.incidentEvents.has incidentId && !c.incidentResolutions.has incidentId)
      "reconciling receipt cannot change an incident"
    .ok c
  else do
    check (!c.incidentResolutions.has incidentId)
      "unconfirmed effect observation cannot resolve an incident"
    let event ← need (c.incidentEvents.lookup incidentId)
      "unknown or failed effect observation requires an incident companion"
    let effect ← need ((s.effects.lookup actionId).filter fun effect => effect.id ≠ "")
      "unknown or failed effect observation requires an incident companion"
    let deadline ← need (observation.updatedAt.plus Duration.hour)
      "effect observation time is invalid"
    check (event.type = "incident.opened"
        && event.incident = effectCompanion s actionId effect prior observation.updatedAt deadline)
      "effect incident is not the deterministic writer companion"
    .ok { c with incidentEvents := c.incidentEvents.erase incidentId }

end Lifecycle

end Dagrail
