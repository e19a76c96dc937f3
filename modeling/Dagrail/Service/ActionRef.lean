import Dagrail.Service.Incidents

/-!
# Action references

An action is applied through a reference that was signed when the action was listed. A reference
names the head it was listed at, the role and session it was listed for, and what it is about; its
id is a hash of all that. Applying it takes the same head, the lease of the same session, and a
clock before its expiry.
-/

namespace Dagrail

/-- A verified action reference, with its compact names resolved. -/
structure ActionRef where
  projectId : String
  headHash : String
  graphRevision : String
  providerSet : String
  roleId : String
  sessionId : String
  nodeId : String := ""
  attemptId : String := ""
  resourceId : String := ""
  incidentId : String := ""
  successorNodeId : String := ""
  targetRoleId : String := ""
  previousSessionId : String := ""
  kind : String
  expiresAt : Stamp
  /-- The further texts that the id is taken of: role, session and what the action is about. -/
  subject : List String

namespace ActionRef

/-- The id of the action. -/
def actionId (p : Platform) (ref : ActionRef) : String :=
  p.hash.joined
    ([ref.projectId, ref.headHash, ref.graphRevision, ref.providerSet] ++ ref.subject)

/-- Is the reference one of the current head of the project? -/
def current (p : Platform) (s : State) (ref : ActionRef) : Bool :=
  ref.projectId = s.projectId && ref.graphRevision = s.graphRevision
    && ref.providerSet = p.hash.providerFingerprint s.graph && ref.headHash = s.headHash

/-- Is the instant before the expiry of the reference? -/
def unexpired (ref : ActionRef) (now : Instant) : Bool :=
  ref.expiresAt.parse.any fun expires => decide (now < expires)

/-- The lease of the session that the reference was listed for. -/
def authorize (p : Platform) (s : State) (ref : ActionRef) (now : Instant) : Fallible RoleLease := do
  check (ref.current p s) "action reference is stale"
  check (ref.unexpired now) "action reference is expired"
  let lease ← validLeaseAt s ref.roleId now
  check (lease.sessionId = ref.sessionId)
    "action reference session no longer owns the role"
  .ok lease

/-- An authorized reference is current and belongs to the session with the valid lease. -/
theorem authorize_ok
    {p : Platform} {s : State} {ref : ActionRef} {now : Instant} {lease : RoleLease}
    (h : ref.authorize p s now = .ok lease) :
  ref.current p s = true ∧ validLeaseAt s ref.roleId now = .ok lease ∧
    lease.sessionId = ref.sessionId
  := by
  simp only [authorize, bind_eq_ok, check_eq_ok, decide_eq_true_eq, Except.ok.injEq] at h
  obtain ⟨_, current, _, -, _, valid, _, session, rfl⟩ := h
  exact ⟨current, valid, session⟩

/-- The node of the reference, whose role the reference was listed for, and whose kind the role
may work on. -/
def target (s : State) (ref : ActionRef) (now : Instant) : Fallible NodeDefinition := do
  let node ← need ((s.nodeDefinition ref.nodeId).filter fun node => node.role = ref.roleId)
    "action node or role is invalid"
  let capabilities := match node.kind.requiredCapability with
    | some capability => [capability]
    | none => [.other ""]
  let _ ← requireRoleCapability s ref.roleId now capabilities
  .ok node

/-- The target of a reference is declared under its id and role. -/
theorem target_ok
    {s : State} {ref : ActionRef} {now : Instant} {node : NodeDefinition}
    (h : ref.target s now = .ok node) :
  s.nodeDefinition ref.nodeId = some node ∧ node.role = ref.roleId
  := by
  simp only [target, bind_eq_ok, need_eq_ok, Option.filter_eq_some_iff, decide_eq_true_eq,
    Except.ok.injEq] at h
  obtain ⟨_, ⟨found, role⟩, _, -, rfl⟩ := h
  exact ⟨found, role⟩

end ActionRef

/-- The attempt of a reference, which is one of its node and not terminal. -/
def activeAttempt (s : State) (ref : ActionRef) : Fallible Attempt :=
  need ((s.attempts.lookup ref.attemptId).filter fun attempt =>
      attempt.nodeId = ref.nodeId && attempt.status ≠ .terminal)
    "attempt is not active"

/-- An active attempt is recorded, belongs to the node of the reference and is not terminal. -/
theorem activeAttempt_ok
    {s : State} {ref : ActionRef} {attempt : Attempt} (h : activeAttempt s ref = .ok attempt) :
  s.attempts.lookup ref.attemptId = some attempt ∧ attempt.nodeId = ref.nodeId ∧
    attempt.status ≠ .terminal
  := by
  simp only [activeAttempt, need_eq_ok, Option.filter_eq_some_iff, Bool.and_eq_true,
    decide_eq_true_eq] at h
  exact ⟨h.1, h.2.1, h.2.2⟩

/-- The record of an applied action. -/
def ActionRef.record (p : Platform) (ref : ActionRef) (attemptId : String) (status : ActionStatus)
    (input : Option Json) : ActionRecord :=
  { id := ref.actionId p
    kind := ref.kind
    nodeId := ref.nodeId
    attemptId
    status
    input }

/-- The command of an applied action. -/
def ActionRef.command (p : Platform) (ref : ActionRef) (env : Env)
    (idempotencyKey requestDigest : String) : Command :=
  { id := env.newID 0
    kind := ref.kind
    actorRole := ref.roleId
    idempotencyKey
    objectRef := "action:" ++ ref.actionId p
    requestDigest }

/-- The action that was applied by the command with the sequence. -/
def actionForSequence (s : State) (sequence : Nat) : Option ActionRecord :=
  s.actions.values.find? fun action => action.sequence = sequence

/-- A repeated action is the one that was applied under the key. -/
def checkRepeatedAction (p : Platform) (s : State) (ref : ActionRef) (command : CommandResult)
    (requestDigest : String) : Fallible Unit :=
  check ((actionForSequence s command.sequence).any (fun action =>
      action.id = ref.actionId p && action.kind = ref.kind)
    && (command.requestDigest = "" || command.requestDigest = requestDigest))
    keyBound

end Dagrail
