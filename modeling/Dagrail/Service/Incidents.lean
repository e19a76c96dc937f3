import Dagrail.Domain.Frontier
import Dagrail.Service.Input
import Dagrail.Service.Roles

/-!
# Incidents

An incident is changed by its owner under the capability to manage incidents, or, when its attempt
has failed for good, by a controller under the capability to control them. Every change is one
update event that carries the whole incident.
-/

namespace Dagrail

def incidentResolutionSupersededByRepair : String := "superseded_by_repair"

def incidentControlAuthority : String := "incident.control"

/-- A note is there, short and unsuspicious. -/
def validateIncidentText (p : Platform) (label value : String) (maximum : Nat) : Fallible Unit := do
  check (!blank value && value.utf8ByteSize ≤ maximum) (s!"{label} must be 1..{maximum} bytes")
  check (p.screenDocument (.obj [("value", .str value)]))
    (label ++ " contains prohibited material")

/-! ### Changes to an incident -/

/-- A change that an owner makes to an incident, in a state and at an instant. -/
abbrev IncidentChange := Incident → State → Instant → Fallible Incident

/-- Progress counts an attempt. Too many attempts without progress, or a missed deadline, open the
circuit. -/
def progressIncident (note : String) (madeProgress : Bool) : IncidentChange :=
  fun incident _ now => do
    check (incident.status = .opened) ("incident " ++ incident.id ++ " is not open")
    let incident := { incident with
      attempts := incident.attempts + 1
      lastProgress := note
      lastProgressAt := .utc now
      noProgressAttempts := if madeProgress then 0 else incident.noProgressAttempts + 1 }
    if 0 < incident.attemptBudget ∧ incident.attemptBudget ≤ incident.noProgressAttempts then
      .ok { incident with
        status := .circuitOpen, circuitReason := "no_progress_attempt_budget_exhausted" }
    else if incident.deadline.parse.any fun deadline => decide (deadline ≤ now) then
      .ok { incident with status := .circuitOpen, circuitReason := "deadline_exceeded" }
    else .ok incident

/-- A trip opens the circuit. -/
def tripIncident (reason : String) : IncidentChange :=
  fun incident _ _ => do
    check (incident.status ≠ .resolved) "resolved incident cannot be tripped"
    .ok { incident with status := .circuitOpen, circuitReason := reason }

/-- A resolution is for incidents that no observation resolves. -/
def resolveIncident (resolution : String) : IncidentChange :=
  fun incident _ _ => do
    check (incident.status ≠ .resolved) ("incident " ++ incident.id ++ " is already resolved")
    check (incident.sourceType ≠ "resource" && incident.sourceType ≠ "effect")
      (incident.sourceType ++ " incident " ++ incident.id
        ++ " can only be resolved by a confirmed observation")
    .ok { incident with status := .resolved, resolution }

/-- A disposition; the disposition to retry closes an open circuit. -/
def disposeIncident (actorRole disposition note : String) : IncidentChange :=
  fun incident _ now => do
    check (incident.status ≠ .resolved) "resolved incident cannot receive a disposition"
    let incident := { incident with
      disposition
      dispositionBy := actorRole
      dispositionAt := .utc now
      lastProgress := note
      lastProgressAt := .utc now }
    if disposition = "retry" ∧ incident.status = .circuitOpen then
      .ok { incident with
        status := .opened
        circuitReason := ""
        attempts := 0
        noProgressAttempts := 0
        deadline := .utc (now + Duration.hour) }
    else .ok incident

/-- Is the node a live repair of the incident's node: its replacement, or a successor along an
edge whose predicate is satisfied? -/
def validIncidentSuccessor (s : State) (incident : Incident) (successorNodeId : String) : Bool :=
  match s.graph with
  | none => false
  | some g =>
      successorNodeId ≠ ""
        && ((s.nodes.get successorNodeId).status = .planned
          || (s.nodes.get successorNodeId).status = .active)
        && (g.spec.nodes.any (fun node =>
            node.id = successorNodeId && node.supersedes = incident.nodeId)
          || g.spec.edges.any fun edge =>
            edge.source = incident.nodeId && edge.target = successorNodeId
              && predicateSatisfied (s.nodes.get incident.nodeId) edge.when)

/-- An attempt incident is resolved in favour of a repair node. -/
def supersedeIncidentValue (successorNodeId note : String) : IncidentChange :=
  fun incident s now => do
    check (incident.status ≠ .resolved) "resolved incident cannot be superseded"
    check (incident.sourceType = "attempt")
      "only attempt incidents can be superseded by a repair node"
    check (validIncidentSuccessor s incident successorNodeId)
      ("node " ++ successorNodeId ++ " is not a declared active repair successor for incident "
        ++ incident.id)
    .ok { incident with
      status := .resolved
      resolution := incidentResolutionSupersededByRepair
      remedyNodeId := successorNodeId
      supersededAt := .utc now
      lastProgress := note
      lastProgressAt := .utc now }

/-- A controller may resolve the incident of another owner's failed attempt. -/
def controlResolvableIncident (s : State) (incident : Incident) (actorRole : String) :
    Fallible Unit := do
  check (incident.status ≠ .resolved) ("incident " ++ incident.id ++ " is already resolved")
  check (incident.sourceType = "attempt")
    "only terminal Attempt incidents can receive controller disposition"
  check (actorRole ≠ incident.ownerRole)
    "incident owner must use ordinary incident disposition and resolve"
  let attempt ← need ((s.attempts.lookup incident.sourceId).filter fun a => a.status = .terminal)
    ("incident " ++ incident.id ++ " does not reference a terminal Attempt")
  let runtime := s.nodes.get attempt.nodeId
  check (runtime.status = .terminal
      && (runtime.outcomeClass = .failure || runtime.outcomeClass = .cancelled))
    ("incident " ++ incident.id ++ " Attempt is not a terminal failure or cancellation")

/-- A controller's resolution names the authority and the owner it overrules. -/
def controlResolveIncidentValue (p : Platform) (actorRole : String)
    (value : IncidentControlResolveInput) : IncidentChange :=
  fun incident s now => do
    validateIncidentText p "controller incident resolution" value.resolution 1024
    validateIncidentText p "controller incident note" value.note 1024
    controlResolvableIncident s incident actorRole
    check (incidentControlDispositions.contains value.disposition)
      ("invalid controller incident disposition " ++ value.disposition)
    check (value.resolution ≠ incidentResolutionSupersededByRepair)
      ("resolution " ++ value.resolution ++ " is reserved for incident supersede")
    .ok { incident with
      status := .resolved
      resolution := value.resolution
      disposition := value.disposition
      dispositionBy := actorRole
      dispositionAt := .utc now
      lastProgress := value.note
      lastProgressAt := .utc now
      control := some
        { authority := incidentControlAuthority
          actorRole
          originalOwnerRole := incident.ownerRole
          disposition := value.disposition
          resolution := value.resolution
          note := value.note
          appliedAt := .utc now } }

/-! ### Commands -/

/-- The batch of an incident command. -/
def incidentBatch (env : Env) (kind actorRole idempotencyKey requestDigest incidentId : String)
    (incident : Incident) (now : Instant) : Batch :=
  { command :=
      { id := env.newID 0
        kind
        actorRole
        idempotencyKey
        objectRef := "incident:" ++ incidentId
        requestDigest }
    events := [.incidentUpdated { incident with updatedAt := .utc now }]
    committedAt := now }

/-- Change an incident as its owner. For the incident of an effect the state is the one loaded
under the lock of that effect. -/
def updateIncident (s : State) (env : Env) (incidentId actorRole idempotencyKey kind
    requestDigest : String) (change : IncidentChange) : Fallible (Option Batch) := do
  check (incidentId ≠ "" && actorRole ≠ "" && idempotencyKey ≠ "")
    "incident, actor role and idempotency key are required"
  let incident ← need (s.incidents.lookup incidentId)
    (if s.commands.has idempotencyKey then "idempotent command references unavailable incident"
      else "unknown incident " ++ incidentId)
  check (incident.sourceType ≠ "effect" || incident.sourceId ≠ "")
    ("effect incident " ++ incidentId ++ " has no source action")
  match s.commands.lookup idempotencyKey with
  | some command => do
      check (command.repeats kind actorRole ("incident:" ++ incidentId) requestDigest) keyBound
      .ok none
  | none => do
      check (incident.ownerRole = "" || incident.ownerRole = actorRole)
        ("incident " ++ incidentId ++ " belongs to role " ++ incident.ownerRole)
      let _ ← requireRoleCapability s actorRole (env.clock 0) [.incidentManage]
      let now := env.clock 1
      let _ ← validLeaseAt s actorRole now
      let changed ← change incident s now
      .ok (some (incidentBatch env kind actorRole idempotencyKey requestDigest incidentId changed
        now))

/-- A mutation of an incident by its owner. -/
inductive IncidentCall where
  | progress (note : String) (madeProgress : Bool)
  | trip (reason : String)
  | resolve (resolution : String)
  | dispose (disposition note : String)
  | supersede (successorNodeId note : String)

namespace IncidentCall

/-- The kind of the command. -/
def kind : IncidentCall → String
  | .progress _ _ => "incident.progress"
  | .trip _ => "incident.trip"
  | .resolve _ => "incident.resolve"
  | .dispose _ _ => "incident.disposition"
  | .supersede _ _ => "incident.supersede"

/-- The document the request digest is taken of. -/
def document : IncidentCall → Json
  | .progress note madeProgress => .obj [("note", .str note), ("madeProgress", .bool madeProgress)]
  | .trip reason => .obj [("reason", .str reason)]
  | .resolve resolution => .obj [("resolution", .str resolution)]
  | .dispose disposition note => .obj [("disposition", .str disposition), ("note", .str note)]
  | .supersede successorNodeId note =>
      .obj [("successorNodeId", .str successorNodeId), ("note", .str note)]

/-- What is checked before the state is loaded. -/
def checkTexts (p : Platform) : IncidentCall → Fallible Unit
  | .progress note _ => validateIncidentText p "progress note" note 1024
  | .trip reason => validateIncidentText p "circuit reason" reason 512
  | .resolve resolution => do
      validateIncidentText p "resolution" resolution 1024
      check (resolution ≠ incidentResolutionSupersededByRepair)
        ("resolution " ++ resolution ++ " is reserved for incident supersede")
  | .dispose disposition note => do
      check (incidentDispositions.contains disposition)
        ("invalid incident disposition " ++ disposition)
      validateIncidentText p "disposition note" note 1024
  | .supersede successorNodeId note => do
      check (!blank successorNodeId) "successor node is required"
      validateIncidentText p "supersede note" note 1024

/-- The change the mutation makes. -/
def change (actorRole : String) : IncidentCall → IncidentChange
  | .progress note madeProgress => progressIncident note madeProgress
  | .trip reason => tripIncident reason
  | .resolve resolution => Dagrail.resolveIncident resolution
  | .dispose disposition note => disposeIncident actorRole disposition note
  | .supersede successorNodeId note => supersedeIncidentValue successorNodeId note

/-- Apply a mutation of an incident. -/
def answer (p : Platform) (s : State) (env : Env) (incidentId actorRole idempotencyKey : String)
    (call : IncidentCall) : Fallible (Option Batch) := do
  call.checkTexts p
  updateIncident s env incidentId actorRole idempotencyKey call.kind
    (p.hash.requestDigest call.kind call.document) (call.change actorRole)

end IncidentCall

/-- The digest of a controller's resolution. -/
def incidentControlResolveRequestDigest (p : Platform) (value : IncidentControlResolveInput) :
    String :=
  p.hash.requestDigest "incident.control-resolve"
    (.obj [("disposition", .str value.disposition), ("resolution", .str value.resolution),
      ("note", .str value.note)])

/-- Does the stored incident carry this controller resolution? -/
def Incident.controlledBy (incident : Incident) (actorRole : String)
    (value : IncidentControlResolveInput) : Bool :=
  incident.control.any fun control =>
    control.actorRole = actorRole && control.disposition = value.disposition
      && control.resolution = value.resolution && control.note = value.note

/-- Resolve an incident as a controller. -/
def controlResolveIncident (p : Platform) (s : State) (env : Env) (incidentId actorRole : String)
    (value : IncidentControlResolveInput) (idempotencyKey : String) : Fallible (Option Batch) := do
  validateIncidentText p "controller incident resolution" value.resolution 1024
  validateIncidentText p "controller incident note" value.note 1024
  check (incidentControlDispositions.contains value.disposition)
    ("invalid controller incident disposition " ++ value.disposition)
  check (value.resolution ≠ incidentResolutionSupersededByRepair)
    ("resolution " ++ value.resolution ++ " is reserved for incident supersede")
  let requestDigest := incidentControlResolveRequestDigest p value
  check (incidentId ≠ "" && actorRole ≠ "" && idempotencyKey ≠ "")
    "incident, actor role and idempotency key are required"
  match s.commands.lookup idempotencyKey with
  | some command => do
      check (command.repeats "incident.control-resolve" actorRole ("incident:" ++ incidentId)
          requestDigest
        && (s.incidents.lookup incidentId).any fun incident => incident.controlledBy actorRole value)
        keyBound
      .ok none
  | none => do
      let _ ← requireRoleCapability s actorRole (env.clock 0) [.incidentControl]
      let now := env.clock 1
      let _ ← validLeaseAt s actorRole now
      let incident ← need (s.incidents.lookup incidentId) ("unknown incident " ++ incidentId)
      let changed ← controlResolveIncidentValue p actorRole value incident s now
      .ok (some (incidentBatch env "incident.control-resolve" actorRole idempotencyKey requestDigest
        incidentId changed now))

/-! ### What is committed -/

/-- A change of an incident that is committed is one of a known incident, in one event. -/
structure IncidentCommit (s : State) (change : IncidentChange) (incidentId key : String)
    (b : Batch) : Prop where
  changed : ∃ incident next now, s.incidents.lookup incidentId = some incident ∧
    change incident s now = .ok next ∧
    b.events = [.incidentUpdated { next with updatedAt := .utc now }]
  key : b.command.idempotencyKey = key
  objectRef : b.command.objectRef = "incident:" ++ incidentId

/-- An owner's change is committed on the incident it names. -/
theorem updateIncident_ok
    {s : State} {env : Env} {incidentId actorRole key kind requestDigest : String}
    {change : IncidentChange} {b : Batch}
    (h : updateIncident s env incidentId actorRole key kind requestDigest change = .ok (some b)) :
  IncidentCommit s change incidentId key b ∧ b.command.kind = kind
  := by
  simp only [updateIncident, bind_eq_ok, need_eq_ok] at h
  obtain ⟨_, -, incident, known, _, -, h⟩ := h
  split at h
  · simp at h
  · simp only [bind_eq_ok, Except.ok.injEq, Option.some.injEq] at h
    obtain ⟨_, -, _, -, _, -, next, changed, rfl⟩ := h
    exact ⟨⟨⟨incident, next, _, known, changed, rfl⟩, rfl, rfl⟩, rfl⟩

/-- A mutation of an owner is committed on the incident it names. -/
theorem IncidentCall.answer_ok
    {p : Platform} {s : State} {env : Env} {incidentId actorRole key : String}
    {call : IncidentCall} {b : Batch}
    (h : call.answer p s env incidentId actorRole key = .ok (some b)) :
  IncidentCommit s (call.change actorRole) incidentId key b ∧ b.command.kind = call.kind
  := by
  simp only [answer, bind_eq_ok] at h
  obtain ⟨_, -, h⟩ := h
  exact updateIncident_ok h

/-- A controller's resolution is committed on the incident it names. -/
theorem controlResolveIncident_ok
    {p : Platform} {s : State} {env : Env} {incidentId actorRole key : String}
    {value : IncidentControlResolveInput} {b : Batch}
    (h : controlResolveIncident p s env incidentId actorRole value key = .ok (some b)) :
  IncidentCommit s (controlResolveIncidentValue p actorRole value) incidentId key b ∧
    b.command.kind = "incident.control-resolve"
  := by
  simp only [controlResolveIncident, bind_eq_ok] at h
  obtain ⟨_, -, _, -, _, -, _, -, _, -, h⟩ := h
  split at h
  · simp at h
  · simp only [bind_eq_ok, need_eq_ok, Except.ok.injEq, Option.some.injEq] at h
    obtain ⟨_, -, _, -, incident, known, next, changed, rfl⟩ := h
    exact ⟨⟨⟨incident, next, _, known, changed, rfl⟩, rfl, rfl⟩, rfl⟩

end Dagrail
