import Dagrail.Service.LifecycleManifest

/-!
# Importing a history

A history is imported into a project that has a graph and no run yet. Its commands are first
applied by the second interpreter, then its events are replayed by the reducer behind the receipt
of the import. What both reach has to be a state that the writers could have left.
-/

namespace Dagrail

namespace Lifecycle

variable (p : Platform)

/-! ### States a history may end in -/

/-- The indices of attempts list every attempt once, under its node. -/
def attemptIndexValid (s : State) : Bool :=
  s.nodeAttempts.entries.all (fun entry =>
      (s.nodeDefinition entry.1).isSome && entry.2.all fun id =>
        (s.attempts.lookup id).any fun attempt => attempt.nodeId = entry.1)
    && decide (s.nodeAttempts.entries.flatMap fun entry => entry.2).Nodup

/-- An attempt belongs to a declared node and its role, and a terminal one has a declared
outcome. -/
def attemptValid (s : State) (id : String) (attempt : Attempt) : Bool :=
  (s.nodeDefinition attempt.nodeId).any fun node =>
    id ≠ "" && attempt.id = id && graphHasRole s attempt.roleId && node.role = attempt.roleId
      && s.nodeAttempts.entries.any (fun entry => entry.2.contains id)
      && decide (1 ≤ attempt.number)
      && [AttemptStatus.leased, .running, .waiting, .submitted, .terminal].contains attempt.status
      && attempt.startedAt.valid && attempt.updatedAt.atOrAfter attempt.startedAt
      && (attempt.status ≠ .terminal
        || (attempt.outcome ≠ "" && outcomeClass node attempt.outcome ≠ .unset))

/-- The attempts of a node are numbered from one, and each but the last one is over before the next
one starts. -/
def attemptsOrdered (attempts : List Attempt) : Bool :=
  attempts.zipIdx.all (fun (attempt, index) => decide (attempt.number = (index + 1 : Nat)))
    && (attempts.zip (attempts.drop 1)).all fun (previous, next) =>
      previous.status = .terminal && next.startedAt.atOrAfter previous.updatedAt

/-- The status of a node goes with its attempts. -/
def nodeValid (s : State) (nodeId : String) : Bool :=
  let attempts := (s.nodeAttempts.get nodeId).map s.attempts.get
  let nonTerminal := attempts.countP fun attempt => attempt.status ≠ .terminal
  attemptsOrdered attempts
    && match (s.nodes.get nodeId).status with
      | .planned =>
          nonTerminal = 0 && (attempts.isEmpty || (s.nodes.get nodeId).outcomeClass = .retryable)
      | .active =>
          nonTerminal = 1 && (attempts.getLast?.all fun latest => latest.status ≠ .leased)
      | .terminal => nonTerminal = 0
      | .skipped => attempts.isEmpty
      | .absent => true
      | .superseded => true

/-- A role lease is filed under its declared role and given for a bounded time. -/
def leaseValid (s : State) (roleId : String) (lease : RoleLease) : Bool :=
  roleId ≠ "" && lease.roleId = roleId && graphHasRole s roleId && lease.harness ≠ ""
    && lease.sessionId ≠ "" && leaseSpan lease

/-- A checkpoint is one of a known attempt. -/
def checkpointValid (s : State) (id : String) (checkpoint : Checkpoint) : Bool :=
  id ≠ "" && checkpoint.id = id && checkpoint.summary ≠ ""
    && checkpoint.summary.utf8ByteSize ≤ 2048 && checkpoint.createdAt.valid
    && s.attempts.has checkpoint.attemptId

/-- The checkpoint an attempt names is one of its own. -/
def checkpointIndexValid (s : State) (id : String) (attempt : Attempt) : Bool :=
  attempt.checkpointId = ""
    || (s.checkpoints.lookup attempt.checkpointId).any fun c => c.attemptId = id

/-- The status of an action goes with its kind. -/
def validateLifecycleActionFinal (s : State) (action : ActionRecord) : Fallible Unit := do
  let node ← need ((s.nodeDefinition action.nodeId).filter fun _ =>
      action.id ≠ "" && action.nodeId ≠ "")
    "action target is inconsistent"
  actionTarget s action node
  check (!completionKinds.contains action.kind || action.kind = completionAction node)
    "completion action does not match node kind"
  if action.kind = "effect.prepare" then
    check (node.kind = .effect && [ActionStatus.prepared, .confirmed, .failed, .unknown,
        .reconciling].contains action.status)
      "effect action kind or status is invalid"
  else if action.kind = "resource.close" ∨ action.kind = "resource.reconcile" then
    check ([ActionStatus.confirmed, .failed, .unknown].contains action.status)
      "resource action status is invalid"
  else
    check (lifecycleConfirmedActionKinds.contains action.kind && action.status = .confirmed)
      "action kind or status is outside the closed lifecycle vocabulary"

/-- The status of an effect goes with that of its action. -/
def lifecycleEffectActionStatusCompatible : EffectStatus → ActionStatus → Bool
  | .prepared, action => action = .prepared
  | .dispatched, action => action = .prepared
  | .confirmed, action => action = .confirmed
  | .failed, action => action = .failed
  | .unknown, action => action = .unknown
  | .reconciling, action => action = .reconciling
  | _, _ => false

/-- An effect goes with its action, its attempt and its declaration. The preparation is the given
raw document. -/
def effectValid (s : State) (id : String) (effect : EffectAction) (prepared : Option Json) :
    Fallible Unit := do
  let invalid := "effect " ++ id ++ " violates the imported lifecycle contract"
  let action ← need (s.actions.lookup id) invalid
  let attempt ← need (s.attempts.lookup effect.attemptId) invalid
  let node ← need (s.nodeDefinition effect.nodeId) invalid
  check (id ≠ "" && effect.id = id && action.kind = "effect.prepare"
      && lifecycleEffectActionStatusCompatible effect.status action.status
      && action.nodeId = effect.nodeId && action.attemptId = effect.attemptId
      && node.kind = .effect && effect.nodeId = attempt.nodeId && effect.adapterId ≠ ""
      && (effect.adapterVersion = "") = (effect.adapterSchemaHash = "")
      && effect.idempotencyKey ≠ "" && effect.request.isSome && effect.prepared.isSome
      && effect.preparedAt.valid && effect.updatedAt.atOrAfter effect.preparedAt)
    invalid
  validateLifecycleEffectDeclaration effect prepared node

/-- A resource lease goes with its attempt and the request of its node. -/
def resourceValid (s : State) (id : String) (resource : ResourceLease) : Bool :=
  id ≠ "" && resource.id = id
    && (s.attempts.lookup resource.attemptId).any (fun attempt =>
      resource.nodeId = attempt.nodeId && resource.roleId = attempt.roleId)
    && (s.nodeDefinition resource.nodeId).any (fun node =>
      nodeRequestsResource node resource.kind resource.quantity)
    && [ResourceStatus.active, .released].contains resource.status
    && [ClosureStatus.pending, .confirmed, .failed, .unknown, .reconciling].contains
      resource.closureStatus
    && resource.leasedAt.valid
    && (resource.closureUpdatedAt = .unset || resource.closureUpdatedAt.atOrAfter resource.leasedAt)
    && (resource.releasedAt = .unset || resource.releasedAt.atOrAfter resource.closureUpdatedAt)

/-- Every resource the node of an attempt declares is leased for the attempt. -/
def resourcesComplete (s : State) (attempt : Attempt) : Bool :=
  ((s.nodeDefinition attempt.nodeId).getD default).resources.all fun request =>
    resourceForAttempt s attempt.id request.kind

/-- An incident has a known source and times in order. -/
def incidentValid (s : State) (id : String) (incident : Incident) : Bool :=
  id ≠ "" && incident.id = id && incident.sourceId ≠ ""
    && [IncidentStatus.opened, .circuitOpen, .resolved].contains incident.status
    && incidentClassifications.contains incident.classification && decide (1 ≤ incident.attemptBudget)
    && incident.openedAt.valid && incident.updatedAt.atOrAfter incident.openedAt
    && (if incident.sourceType = "attempt" then s.attempts.has incident.sourceId
      else if incident.sourceType = "effect" then s.effects.has incident.sourceId
      else incident.sourceType = "resource" && s.resources.has incident.sourceId)

/-- The state is one that the writers could have left. The preparation of an effect is looked up
among the raw documents of the history. -/
def validateMigratedState (s : State) (prepared : String → Option Json) : Fallible Unit := do
  let g ← need s.graph "graph is unavailable"
  check (attemptIndexValid s) "attempt index is inconsistent"
  check (s.attempts.entries.all fun entry => attemptValid s entry.1 entry.2)
    "attempt violates the imported lifecycle contract"
  check (g.spec.nodes.all fun node => nodeValid s node.id)
    "node is inconsistent with its attempts"
  check (s.leases.entries.all fun entry => leaseValid s entry.1 entry.2)
    "role lease violates the imported lifecycle contract"
  check (s.checkpoints.entries.all fun entry => checkpointValid s entry.1 entry.2)
    "checkpoint violates the imported lifecycle contract"
  check (s.attempts.entries.all fun entry => checkpointIndexValid s entry.1 entry.2)
    "attempt checkpoint index is inconsistent"
  s.actions.entries.forM fun entry => do
    check (entry.1 ≠ "" && entry.2.id = entry.1) "action violates the imported lifecycle contract"
    validateLifecycleActionFinal s entry.2
  s.effects.entries.forM fun entry => effectValid s entry.1 entry.2 (prepared entry.1)
  check (s.resources.entries.all fun entry => resourceValid s entry.1 entry.2)
    "resource lease violates the imported lifecycle contract"
  check (s.attempts.values.all fun attempt => resourcesComplete s attempt)
    "attempt is missing a declared resource"
  check (s.incidents.entries.all fun entry => incidentValid s entry.1 entry.2)
    "incident violates the imported lifecycle contract"

/-! ### The second interpreter -/

/-- One command of a history with the time of its record. -/
structure SourceCommand where
  occurredAt : Stamp
  events : List LifecycleMigrationEvent

/-- Apply the next event of a command, read in the order it was written in. -/
def applyEvent (occurredAt : Stamp) (at_ : LifecycleRecordContext × State)
    (event : LifecycleMigrationEvent) : Admission := do
  let value ← event.read
  applyValidatedLifecycleEvent p at_.1 at_.2 occurredAt event value

/-- Apply a command on a new ledger, which keeps the admissions of effects, and close it. -/
def applyCommand (at_ : LifecycleRecordContext × State) (command : SourceCommand) : Admission := do
  check command.occurredAt.valid "source event occurredAt is invalid"
  let (c, s) ← command.events.foldlM (applyEvent p command.occurredAt)
    (newLifecycleRecordContext at_.1.effectAdmissions, at_.2)
  validateLifecycleRecordClosed c s
  .ok (c, s)

/-- The raw preparation that the history gives an effect. -/
def preparedDocument (commands : List SourceCommand) (id : String) : Option Json :=
  (commands.flatMap SourceCommand.events).findSome? fun event =>
    match event.read with
    | .ok (.effectPrepared effect) => if effect.id = id then event.bound "prepared" else none
    | _ => none

/-- Apply the commands of a history one after the other. -/
def simulateLifecycleEventSequence (s : State) (commands : List SourceCommand) : Fallible State := do
  let (_, s) ← commands.foldlM (applyCommand p) ({}, s)
  validateMigratedState s (preparedDocument commands)
  .ok s

end Lifecycle

/-! ### Admission of a history -/

/-- A project that has a graph and no run yet: after the import of the graph there are only
automatic settlements. -/
def pristineLifecycleState (s : State) (segments : List Segment) : Bool :=
  let rest := match segments with
    | first :: rest =>
        if first.command.kind = "authority.establish" then
          match first.schemaVersion, first.events with
          | 4, [.authorityEstablished _] => rest
          | _, _ => []
        else segments
    | [] => []
  s.commands.entries.length = segments.length
    && (rest.head?.any fun segment => segment.command.kind = "graph.import")
    && (rest.drop 1).all (fun segment =>
      ["node.auto-complete", "node.auto-skip"].contains segment.command.kind)
    && s.attempts.entries.isEmpty && s.leases.entries.isEmpty && s.checkpoints.entries.isEmpty
    && s.decisions.entries.isEmpty && s.evidencePackages.entries.isEmpty
    && s.reuseDecisions.entries.isEmpty && s.actions.entries.isEmpty && s.effects.entries.isEmpty
    && s.resources.entries.isEmpty && s.incidents.entries.isEmpty
    && s.nodes.entries.all fun entry =>
      entry.2.status = .planned || ((s.nodeDefinition entry.1).any (fun node =>
          node.kind = .join || node.kind = .milestone)
        && (entry.2.status = .terminal || entry.2.status = .skipped))

namespace LifecycleMigrationManifest

variable (p : Platform) (manifest : LifecycleMigrationManifest)

/-- The receipt of an import. -/
def receipt (id : String) (nativeEvents sequence : Nat) (now : Instant) :
    LifecycleMigrationReceipt :=
  { id
    sourceSystem := manifest.source.system
    sourceProject := manifest.source.project
    sourceAuthorityHash := manifest.source.authorityHash
    sourceHeadSequence := manifest.source.headSequence
    sourceHeadEventId := manifest.source.headEventId
    sourceHeadEventHash := manifest.source.headEventHash
    recordsDigest := manifest.recordsDigest
    recordCount := manifest.records.length
    nativeEventCount := nativeEvents
    graphRevision := manifest.graphRevision
    targetSequence := sequence
    importedAt := .utc now }

/-- The commands of a manifest with the times of their records. -/
def sourceCommands : Fallible (List Lifecycle.SourceCommand) := do
  let perRecord ← manifest.records.mapM fun record => do
    let commands ← record.lifecycleRecordCommands manifest.apiVersion
    .ok (commands.map fun command =>
      ({ occurredAt := record.occurredAt, events := command.events } : Lifecycle.SourceCommand))
  .ok perRecord.flatten

end LifecycleMigrationManifest

/-- The adapters of effects that are not over are compiled in as the effects were prepared. -/
def checkImportedAdapters (p : Platform) (s : State) : Fallible Unit :=
  s.effects.values.forM fun effect =>
    if effect.status = .confirmed ∨ (effect.adapterVersion = "" ∧ effect.adapterSchemaHash = "") then
      .ok ()
    else do
      let metadata ← need (p.effects.lookup effect.adapterId)
        ("lifecycle migration effect adapter " ++ effect.adapterId ++ " is unavailable")
      validateEffectAdapterBinding effect metadata

/-- A history that is admitted: its commands, its events as documents and as they were read, and the
state the second interpreter reaches. -/
structure LifecycleValidation where
  commands : List Lifecycle.SourceCommand
  events : List LifecycleMigrationEvent
  native : List Event
  simulated : State

/-- Is the head, graph and project of the manifest that of the state? -/
def LifecycleMigrationManifest.targets (manifest : LifecycleMigrationManifest) (s : State) : Bool :=
  s.graph.isSome && manifest.projectId = s.projectId && manifest.graphRevision = s.graphRevision
    && manifest.expectedJournalHead = s.headHash

/-- Admit a history. The reducer replays the journal with a segment of the events as they were
read, and the state it reaches is held to the same rules as the simulated one. -/
def validateLifecycleMigration (p : Platform) (s : State) (segments : List Segment) (now : Instant)
    (manifest : LifecycleMigrationManifest) (trustedSourceAuthority : String) :
    Fallible LifecycleValidation := do
  check (manifest.targets s) "lifecycle migration target authority is stale or mismatched"
  check (s.lifecycleMigrations.entries.isEmpty && pristineLifecycleState s segments)
    "historical lifecycle import requires a pristine graph-only project"
  let authorityHash ← lifecycleSourceAuthorityHash p manifest
  check (validDigest trustedSourceAuthority
      && trustedSourceAuthority = manifest.source.authorityHash
      && trustedSourceAuthority = authorityHash)
    "lifecycle migration source authority does not match the trusted out-of-band digest"
  let commands ← manifest.sourceCommands
  let events := commands.flatMap Lifecycle.SourceCommand.events
  let native ← events.mapM (validateMigratableEventPayload p)
  check (decide ((events.map migrationIntroductionIdentity).filter (· ≠ "")).Nodup)
    "source event repeats native lifecycle identity"
  check (!events.isEmpty && events.length + 1 ≤ maxEventsPerSegment)
    "native lifecycle event count exceeds the atomic segment limit"
  let simulated ← Lifecycle.simulateLifecycleEventSequence p s commands
  checkImportedAdapters p simulated
  let id := manifest.lifecycleMigrationID p
  let receipt := manifest.receipt id events.length (s.headSequence + 1) now
  let synthetic : Segment :=
    { schemaVersion := currentSegmentSchemaVersion
      sequence := s.headSequence + 1
      projectId := s.projectId
      previousHash := s.headHash
      command := default
      events := .lifecycleHistoryImported receipt :: native
      committedAt := receipt.importedAt
      segmentHash := "" }
  let migrated ← reduceSegments p s.projectId (segments ++ [synthetic])
  Lifecycle.validateMigratedState migrated (Lifecycle.preparedDocument commands)
  .ok { commands, events, native, simulated }

/-- A request to import a history. -/
structure LifecycleImportInput where
  manifest : LifecycleMigrationManifest
  trustedSourceAuthority : String
  actorRole : String
  idempotencyKey : String

/-- Import a history. The journal keeps the payloads in canonical form, and the events of the
batch are those it reads back. -/
def importLifecycleHistory (p : Platform) (s : State) (segments : List Segment) (env : Env)
    (value : LifecycleImportInput) : Fallible (Option Batch) := do
  let manifest := value.manifest
  check (!blank value.actorRole && !blank value.idempotencyKey)
    "actor role and idempotency key are required"
  check (validDigest value.trustedSourceAuthority
      && value.trustedSourceAuthority = manifest.source.authorityHash)
    "lifecycle migration source authority does not match the trusted out-of-band digest"
  let requestDigest := manifest.requestDigest p
  let id := manifest.lifecycleMigrationID p
  let objectRef := "lifecycle-migration:" ++ id
  match s.commands.lookup value.idempotencyKey with
  | some command => do
      check (command.kind = "lifecycle.import-history" && command.actorRole = value.actorRole
          && command.objectRef = objectRef && command.requestDigest = requestDigest)
        keyBound
      check (s.lifecycleMigrations.has id) "committed lifecycle migration receipt is unavailable"
      .ok none
  | none => do
      let valid ← validateLifecycleMigration p s segments (env.clock 0) manifest
        value.trustedSourceAuthority
      let receipt := manifest.receipt id valid.events.length (s.headSequence + 1) (env.clock 1)
      .ok (some
        { command :=
            { id := env.newID 0
              kind := "lifecycle.import-history"
              actorRole := value.actorRole
              idempotencyKey := value.idempotencyKey
              objectRef
              requestDigest }
          events := .lifecycleHistoryImported receipt
            :: valid.events.map LifecycleMigrationEvent.committed
          committedAt := env.clock 2 })

/-! ### What is committed -/

/-- A project without a run has none of the records of a run. -/
structure State.Pristine (s : State) : Prop where
  attempts : s.attempts.entries = []
  leases : s.leases.entries = []
  checkpoints : s.checkpoints.entries = []
  decisions : s.decisions.entries = []
  evidencePackages : s.evidencePackages.entries = []
  reuseDecisions : s.reuseDecisions.entries = []
  actions : s.actions.entries = []
  effects : s.effects.entries = []
  resources : s.resources.entries = []
  incidents : s.incidents.entries = []
  nodes : ∀ entry ∈ s.nodes.entries, entry.2.status = .planned ∨ entry.2.status = .terminal ∨
    entry.2.status = .skipped

/-- A pristine project has no records of a run. -/
theorem pristine_of_pristineLifecycleState
    {s : State} {segments : List Segment} (h : pristineLifecycleState s segments = true) :
  s.Pristine
  := by
  simp only [pristineLifecycleState, Bool.and_eq_true, List.isEmpty_iff, List.all_eq_true,
    Bool.or_eq_true, decide_eq_true_eq] at h
  obtain ⟨⟨⟨⟨⟨⟨⟨⟨⟨⟨⟨-, attempts⟩, leases⟩, checkpoints⟩, decisions⟩, packages⟩, reuse⟩, actions⟩,
    effects⟩, resources⟩, incidents⟩, nodes⟩ := h
  refine ⟨attempts, leases, checkpoints, decisions, packages, reuse, actions, effects, resources,
    incidents, fun entry mem => ?_⟩
  rcases nodes entry mem with planned | ⟨-, closed⟩
  · exact Or.inl planned
  · exact Or.inr closed

/-- What a history was admitted on. -/
structure LifecycleValidation.Admitted (p : Platform) (s : State) (segments : List Segment)
    (manifest : LifecycleMigrationManifest) (valid : LifecycleValidation) : Prop where
  graph : s.graph.isSome = true
  migrations : s.lifecycleMigrations.entries = []
  pristine : s.Pristine
  commands : manifest.sourceCommands = .ok valid.commands
  events : valid.events = valid.commands.flatMap Lifecycle.SourceCommand.events
  native : valid.events.mapM (validateMigratableEventPayload p) = .ok valid.native
  simulated : Lifecycle.simulateLifecycleEventSequence p s valid.commands = .ok valid.simulated
  /-- The reducer accepts the events as they were read, behind the receipt of the import. -/
  reduced : ∃ now migrated,
    let receipt := manifest.receipt (manifest.lifecycleMigrationID p) valid.events.length
      (s.headSequence + 1) now
    reduceSegments p s.projectId (segments ++
      [{ schemaVersion := currentSegmentSchemaVersion
         sequence := s.headSequence + 1
         projectId := s.projectId
         previousHash := s.headHash
         command := default
         events := .lifecycleHistoryImported receipt :: valid.native
         committedAt := receipt.importedAt
         segmentHash := "" }]) = .ok migrated ∧
    Lifecycle.validateMigratedState migrated (Lifecycle.preparedDocument valid.commands) = .ok ()

/-- An admitted history was admitted on a pristine project by both interpreters. -/
theorem validateLifecycleMigration_ok
    {p : Platform} {s : State} {segments : List Segment} {now : Instant}
    {manifest : LifecycleMigrationManifest} {trusted : String} {valid : LifecycleValidation}
    (h : validateLifecycleMigration p s segments now manifest trusted = .ok valid) :
  valid.Admitted p s segments manifest
  := by
  simp only [validateLifecycleMigration, bind_eq_ok, check_eq_ok, Bool.and_eq_true,
    List.isEmpty_iff] at h
  obtain ⟨_, targets, _, ⟨migrations, pristine⟩, _, -, _, -, commands, given, native, read, _, -, _,
    -, simulated, simulates, _, -, migrated, reduced, _, checked, h⟩ := h
  obtain rfl := Except.ok.inj h
  simp only [LifecycleMigrationManifest.targets, Bool.and_eq_true] at targets
  exact ⟨targets.1.1.1, migrations, pristine_of_pristineLifecycleState pristine, given, rfl, read,
    simulates, ⟨_, migrated, reduced, checked⟩⟩

/-- A history is admitted in one way. -/
theorem LifecycleValidation.Admitted.unique
    {p : Platform} {s : State} {segments : List Segment} {manifest : LifecycleMigrationManifest}
    {valid valid' : LifecycleValidation} (h : valid.Admitted p s segments manifest)
    (h' : valid'.Admitted p s segments manifest) :
  valid = valid'
  := by
  have commands : valid.commands = valid'.commands :=
    Except.ok.inj (h.commands.symm.trans h'.commands)
  have events : valid.events = valid'.events := by rw [h.events, h'.events, commands]
  have native : valid.native = valid'.native :=
    Except.ok.inj ((h.native.symm.trans (by rw [events])).trans h'.native)
  have simulated : valid.simulated = valid'.simulated :=
    Except.ok.inj ((h.simulated.symm.trans (by rw [commands])).trans h'.simulated)
  cases valid
  cases valid'
  simp_all

/-- An import commits its receipt and the events of an admitted history. -/
theorem importLifecycleHistory_ok
    {p : Platform} {s : State} {segments : List Segment} {env : Env} {value : LifecycleImportInput}
    {b : Batch} (h : importLifecycleHistory p s segments env value = .ok (some b)) :
  ∃ now now' valid,
    validateLifecycleMigration p s segments now value.manifest value.trustedSourceAuthority =
      .ok valid ∧
    b.events = .lifecycleHistoryImported
        (value.manifest.receipt (value.manifest.lifecycleMigrationID p) valid.events.length
          (s.headSequence + 1) now')
      :: valid.events.map LifecycleMigrationEvent.committed ∧
    b.command.kind = "lifecycle.import-history" ∧
    b.command.idempotencyKey = value.idempotencyKey
  := by
  simp only [importLifecycleHistory, bind_eq_ok] at h
  obtain ⟨_, -, _, -, h⟩ := h
  split at h
  · simp at h
  · simp only [bind_eq_ok, Except.ok.injEq, Option.some.injEq] at h
    obtain ⟨valid, admitted, rfl⟩ := h
    exact ⟨_, _, valid, admitted, rfl, rfl, rfl⟩

end Dagrail
