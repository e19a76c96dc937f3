import Dagrail.Service.Append

/-!
# Role leases

A role is bound to a session by a lease. The session may renew its lease and release it; another
session gets the role when the lease has expired, or at once through a transfer, which takes a
controller with a lease of its own under another role.
-/

namespace Dagrail

/-! ### Lease checks -/

/-- Is the instant within the lease? -/
def RoleLease.covers (lease : RoleLease) (instant : Instant) : Bool :=
  match lease.boundAt.parse, lease.expiresAt.parse with
  | some bound, some expires => decide (bound ≤ instant ∧ instant < expires)
  | _, _ => false

/-- The lease of a role, if it is active and covers the instant. -/
def validLeaseAt (s : State) (roleId : String) (instant : Instant) : Fallible RoleLease := do
  let lease ← need ((s.leases.lookup roleId).filter fun lease => lease.active)
    ("role " ++ roleId ++ " has no active lease")
  check (lease.covers instant) ("role " ++ roleId ++ " lease is expired")
  .ok lease

/-- The lease of a role that has one of the capabilities. -/
def requireRoleCapability (s : State) (roleId : String) (instant : Instant)
    (capabilities : List Capability) : Fallible RoleLease := do
  let lease ← validLeaseAt s roleId instant
  check (capabilities.any fun capability => GraphDefinition.roleHasCapability s.graph roleId capability)
    ("role " ++ roleId ++ " lacks required capability")
  .ok lease

/-- A valid lease is the active lease of the role and covers the instant. -/
theorem validLeaseAt_ok
    {s : State} {roleId : String} {instant : Instant} {lease : RoleLease}
    (h : validLeaseAt s roleId instant = .ok lease) :
  s.leases.lookup roleId = some lease ∧ lease.active = true ∧ lease.covers instant = true
  := by
  simp only [validLeaseAt, bind_eq_ok, need_eq_ok, check_eq_ok, Option.filter_eq_some_iff,
    Except.ok.injEq] at h
  obtain ⟨_, ⟨found, active⟩, _, covers, rfl⟩ := h
  exact ⟨found, active, covers⟩

/-- A required capability comes with a valid lease. -/
theorem requireRoleCapability_ok
    {s : State} {roleId : String} {instant : Instant} {capabilities : List Capability}
    {lease : RoleLease} (h : requireRoleCapability s roleId instant capabilities = .ok lease) :
  validLeaseAt s roleId instant = .ok lease ∧
    ∃ capability ∈ capabilities, GraphDefinition.roleHasCapability s.graph roleId capability = true
  := by
  simp only [requireRoleCapability, bind_eq_ok, check_eq_ok, List.any_eq_true,
    Except.ok.injEq] at h
  obtain ⟨_, valid, _, able, rfl⟩ := h
  exact ⟨valid, able⟩

/-! ### Answers from stored commands -/

/-- The error of a key that another command has. -/
def keyBound : String := "idempotency key is already bound to another command"

/-- Is the stored command the one that is repeated? -/
def CommandResult.repeats (c : CommandResult) (kind actorRole objectRef requestDigest : String) :
    Bool :=
  c.kind = kind && c.actorRole = actorRole && c.objectRef = objectRef
    && (c.requestDigest = "" || c.requestDigest = requestDigest)

/-- The lease that the segment with the sequence bound. -/
def roleLeaseForSequence (segments : List Segment) (sequence : Nat) : Fallible RoleLease :=
  need ((segments.filter fun segment => segment.sequence = sequence).findSome? fun segment =>
      segment.events.findSome? fun
        | .roleBound lease => some lease
        | _ => none)
    "role lease receipt is unavailable"

/-- The transfer that the segment with the sequence recorded. -/
def roleTransferForSequence (segments : List Segment) (sequence : Nat) : Fallible RoleTransfer :=
  need ((segments.filter fun segment => segment.sequence = sequence).findSome? fun segment =>
      segment.events.findSome? fun
        | .roleTransferred transfer => some transfer
        | _ => none)
    "role transfer receipt is unavailable"

/-! ### Binding -/

/-- A request to bind a role. -/
structure BindInput where
  roleId : String
  harness : String
  sessionId : String
  ttl : Duration
  takeover : Bool := false
  idempotencyKey : String

/-- The ttl a lease gets when none is asked for. -/
def defaultTTL : Duration := 15 * Duration.minute

/-- The longest ttl of a lease. -/
def maxTTL : Duration := 24 * Duration.hour

/-- The binding as the document that is screened and hashed. -/
def BindInput.document (value : BindInput) (ttl : Duration) : Json :=
  .obj [("roleId", .str value.roleId), ("harness", .str value.harness),
    ("sessionId", .str value.sessionId), ("ttlSeconds", .num (ttl / Duration.second)),
    ("takeover", .bool value.takeover)]

/-- Does the graph declare the role? -/
def graphHasRole (s : State) (roleId : String) : Bool :=
  match s.graph with
  | none => false
  | some g => g.spec.roles.any fun role => role.id = roleId

/-- A renewal needs the unexpired lease of the same session. -/
def checkRenewal (s : State) (value : BindInput) (now : Instant) : Fallible Unit := do
  let current ← need ((s.leases.lookup value.roleId).filter fun lease => lease.active)
    ("role " ++ value.roleId ++ " has no active lease to renew")
  let expires ← need current.expiresAt.parse "cannot parse the expiry of the lease"
  check (now < expires) ("role " ++ value.roleId ++ " lease is expired; use role takeover")
  check (current.sessionId = value.sessionId && current.harness = value.harness)
    "role renewal identity does not own the active lease"

/-- A binding needs the role to be free: its lease is inactive, expired or of the same session.
A takeover needs it expired. -/
def checkBinding (s : State) (value : BindInput) (now : Instant) : Fallible Unit :=
  match (s.leases.lookup value.roleId).filter fun lease => lease.active with
  | none => .ok ()
  | some current => do
      let expires ← need current.expiresAt.parse "cannot parse the expiry of the lease"
      check (!(decide (now < expires) && current.sessionId ≠ value.sessionId))
        ("role " ++ value.roleId ++ " already has an active lease")
      check (!(value.takeover && decide (now < expires)))
        ("role " ++ value.roleId ++ " lease has not expired")

/-- The lease a binding gives. -/
def BindInput.lease (value : BindInput) (ttl : Duration) (now : Instant) : RoleLease :=
  { roleId := value.roleId
    harness := value.harness
    sessionId := value.sessionId
    boundAt := .utc now
    expiresAt := .utc (now + ttl)
    active := true }

/-- The batch of a binding that no stored command answers. -/
def BindInput.commit (s : State) (env : Env) (renewOnly : Bool) (value : BindInput) (ttl : Duration)
    (requestDigest : String) : Fallible Batch := do
  let now := env.clock 0
  if renewOnly then checkRenewal s value now
  check (graphHasRole s value.roleId) ("unknown role " ++ value.roleId)
  checkBinding s value now
  .ok
    { command :=
        { id := env.newID 0
          kind := "role.bind"
          actorRole := value.roleId
          idempotencyKey := value.idempotencyKey
          objectRef := "role:" ++ value.roleId
          requestDigest }
      events := [.roleBound (value.lease ttl now)]
      committedAt := now }

/-- Bind a role to a session, or renew its lease. A repeated binding is committed again when the
role has no lease any more. -/
def bindRole (p : Platform) (s : State) (segments : List Segment) (env : Env) (renewOnly : Bool)
    (value : BindInput) : Fallible (Option Batch) := do
  check (value.idempotencyKey ≠ "") "idempotency key is required"
  check (value.roleId ≠ "" && value.harness ≠ "" && value.sessionId ≠ "")
    "role, harness and session are required"
  let ttl := if value.ttl ≤ 0 then defaultTTL else value.ttl
  check (ttl ≤ maxTTL) "lease TTL cannot exceed 24 hours"
  let document := value.document ttl
  check (p.screenDocument document) "role binding contains prohibited material"
  let requestDigest :=
    p.hash.requestDigest (if renewOnly then "role.renew-cli" else "role.bind") document
  match s.commands.lookup value.idempotencyKey with
  | none => some <$> value.commit s env renewOnly ttl requestDigest
  | some command => do
      check (command.repeats "role.bind" value.roleId ("role:" ++ value.roleId) requestDigest)
        keyBound
      if renewOnly then do
        let _ ← roleLeaseForSequence segments command.sequence
        .ok none
      else if s.leases.has value.roleId then .ok none
      else some <$> value.commit s env renewOnly ttl requestDigest

/-- Renew the lease of the current session. -/
def renewRole (p : Platform) (s : State) (segments : List Segment) (env : Env)
    (value : BindInput) : Fallible (Option Batch) := do
  check (decide (Duration.second ≤ value.ttl) && value.ttl % Duration.second = 0)
    "role renewal lease TTL must be a whole number of seconds"
  bindRole p s segments env true { value with takeover := false }

/-! ### Transfer -/

/-- The authority a transfer is recorded under. -/
def roleControlAuthority : String := "role.control"

/-- A request to transfer a role. -/
structure TransferInput where
  actorRole : String
  actorSessionId : String
  roleId : String
  expectedSessionId : String
  harness : String
  sessionId : String
  ttl : Duration
  reason : String
  idempotencyKey : String

/-- The reason of a transfer is there, short and unsuspicious. -/
def validateRoleTransferReason (p : Platform) (reason : String) : Fallible Unit := do
  check (!blank reason && reason.length ≤ 1024) "role transfer reason must be 1..1024 characters"
  check (p.screenDocument (.obj [("reason", .str reason)]))
    "role transfer reason contains prohibited material"

/-- The digest of a transfer request. -/
def roleTransferRequestDigest (p : Platform) (value : TransferInput) (ttl : Duration) : String :=
  p.hash.requestDigest "role.control-transfer"
    (.obj [("actorRole", .str value.actorRole), ("actorSessionId", .str value.actorSessionId),
      ("roleId", .str value.roleId), ("expectedSessionId", .str value.expectedSessionId),
      ("harness", .str value.harness), ("sessionId", .str value.sessionId),
      ("ttlSeconds", .num (ttl / Duration.second)), ("reason", .str value.reason)])

/-- The six names of a transfer are given and pairwise distinct where they have to be. -/
def checkTransferNames (value : TransferInput) : Fallible Unit := do
  check (value.idempotencyKey ≠ "") "idempotency key is required"
  check (value.actorRole ≠ "" && value.actorSessionId ≠ "" && value.roleId ≠ ""
      && value.expectedSessionId ≠ "" && value.harness ≠ "" && value.sessionId ≠ "")
    ("actor role/session, target role/expected session, harness and new session are required")
  check (value.actorRole ≠ value.roleId)
    "role controller must be distinct from the transferred role"
  check (value.expectedSessionId ≠ value.sessionId)
    "role transfer requires a distinct successor session"
  check (value.actorSessionId ≠ value.expectedSessionId)
    "role controller session cannot also own the target lease"
  check (value.actorSessionId ≠ value.sessionId)
    "role transfer successor session cannot reuse the controller session"

/-- The lease that a transfer replaces: active, begun, unexpired and of the expected session. -/
def transferredLease (s : State) (value : TransferInput) (now : Instant) : Fallible RoleLease := do
  let previous ← need ((s.leases.lookup value.roleId).filter fun lease => lease.active)
    ("role " ++ value.roleId ++ " has no active lease to transfer")
  let bound ← need previous.boundAt.parse
    ("role " ++ value.roleId ++ " lease timestamps are invalid")
  let expires ← need previous.expiresAt.parse
    ("role " ++ value.roleId ++ " lease timestamps are invalid")
  check (bound ≤ now) ("role " ++ value.roleId ++ " lease has not begun")
  check (now < expires) ("role " ++ value.roleId ++ " lease is expired; use role takeover")
  check (previous.sessionId = value.expectedSessionId)
    ("role " ++ value.roleId ++ " active lease session changed")
  .ok previous

/-- Is the lease an active one of the session that has not expired? An expiry that does not parse
counts as none. -/
def RoleLease.heldBy (lease : RoleLease) (sessionId : String) (now : Instant) : Bool :=
  lease.active && lease.sessionId = sessionId && lease.expiresAt.parse.all fun e => decide (now < e)

/-- No other role is bound to the successor session. -/
def checkSuccessor (s : State) (value : TransferInput) (now : Instant) : Fallible Unit :=
  check (!s.leases.entries.any fun entry =>
      entry.1 ≠ value.roleId && entry.2.heldBy value.sessionId now)
    "role transfer successor session is already bound to another active role"

/-- Transfer a role under a controller. The head an action reference names must be the current
one. -/
def transferRole (p : Platform) (s : State) (segments : List Segment) (env : Env) (now : Instant)
    (value : TransferInput) (actionHead : String) : Fallible (Option Batch) := do
  checkTransferNames value
  let ttl := if value.ttl ≤ 0 then defaultTTL else value.ttl
  check (decide (Duration.second ≤ ttl) && ttl % Duration.second = 0)
    "role transfer lease TTL must be a whole number of seconds"
  check (ttl ≤ maxTTL) "lease TTL cannot exceed 24 hours"
  validateRoleTransferReason p value.reason
  check (p.screenDocument (.obj [("harness", .str value.harness),
      ("sessionId", .str value.sessionId), ("ttlSeconds", .num (ttl / Duration.second)),
      ("reason", .str value.reason)]))
    "role transfer contains prohibited material"
  let requestDigest := roleTransferRequestDigest p value ttl
  let objectRef := "role:" ++ value.roleId
  match s.commands.lookup value.idempotencyKey with
  | some command => do
      check (command.repeats "role.control-transfer" value.actorRole objectRef requestDigest)
        keyBound
      let _ ← roleTransferForSequence segments command.sequence
      .ok none
  | none => do
      check (actionHead = "" || s.headHash = actionHead)
        "role control transfer action reference is stale"
      let actorLease ← validLeaseAt s value.actorRole now
      check (actorLease.sessionId = value.actorSessionId)
        ("role controller session does not own actor role " ++ value.actorRole)
      check (GraphDefinition.roleHasCapability s.graph value.actorRole .roleControl)
        ("role " ++ value.actorRole ++ " lacks role control capability")
      let previous ← transferredLease s value now
      checkSuccessor s value now
      let next : RoleLease :=
        { roleId := value.roleId
          harness := value.harness
          sessionId := value.sessionId
          boundAt := .utc now
          expiresAt := .utc (now + ttl)
          active := true }
      .ok (some
        { command :=
            { id := env.newID 0
              kind := "role.control-transfer"
              actorRole := value.actorRole
              idempotencyKey := value.idempotencyKey
              objectRef
              requestDigest }
          events :=
            [.roleTransferred
              { authority := roleControlAuthority
                actorRole := value.actorRole
                actorSessionId := value.actorSessionId
                previous
                next
                reason := value.reason
                transferredAt := .utc now }]
          committedAt := now })

/-! ### Release -/

/-- Release a role, which takes the session that holds it. An expired lease may be released. -/
def releaseRole (p : Platform) (s : State) (env : Env) (roleId sessionId idempotencyKey : String) :
    Fallible (Option Batch) := do
  check (idempotencyKey ≠ "") "idempotency key is required"
  let requestDigest := p.hash.requestDigest "role.release"
    (.obj [("roleId", .str roleId), ("sessionId", .str sessionId)])
  let objectRef := "role:" ++ roleId
  match s.commands.lookup idempotencyKey with
  | some command => do
      check (command.repeats "role.release" roleId objectRef requestDigest) keyBound
      .ok none
  | none => do
      check ((s.leases.lookup roleId).any fun lease => lease.active && lease.sessionId = sessionId)
        "active role lease does not match session"
      .ok (some
        { command :=
            { id := env.newID 0
              kind := "role.release"
              actorRole := roleId
              idempotencyKey
              objectRef
              requestDigest }
          events := [.roleReleased roleId (.utc (env.clock 0))]
          committedAt := env.clock 1 })

/-! ### What is committed -/

/-- A binding is committed when its role is free. -/
theorem BindInput.commit_ok
    {s : State} {env : Env} {renewOnly : Bool} {value : BindInput} {ttl : Duration}
    {requestDigest : String} {b : Batch}
    (h : value.commit s env renewOnly ttl requestDigest = .ok b) :
  checkBinding s value (env.clock 0) = .ok () ∧
    b.events = [.roleBound (value.lease ttl (env.clock 0))] ∧
    b.command.kind = "role.bind" ∧ b.command.idempotencyKey = value.idempotencyKey
  := by
  unfold commit at h
  cases renewOnly
  all_goals
    simp only [if_true, Bool.false_eq_true, if_false, bind_eq_ok, check_eq_ok,
      Except.ok.injEq] at h
  · obtain ⟨_, -, _, free, rfl⟩ := h
    exact ⟨free, rfl, rfl, rfl⟩
  · obtain ⟨_, -, _, -, _, free, rfl⟩ := h
    exact ⟨free, rfl, rfl, rfl⟩

/-- A binding that is committed finds its role free and gives it for a bounded time. -/
theorem bindRole_ok
    {p : Platform} {s : State} {segments : List Segment} {env : Env} {renewOnly : Bool}
    {value : BindInput} {b : Batch}
    (h : bindRole p s segments env renewOnly value = .ok (some b)) :
  ∃ ttl, 0 < ttl ∧ ttl ≤ maxTTL ∧ value.roleId ≠ "" ∧ value.sessionId ≠ "" ∧
    checkBinding s value (env.clock 0) = .ok () ∧
    b.events = [.roleBound (value.lease ttl (env.clock 0))] ∧
    b.command.kind = "role.bind" ∧ b.command.idempotencyKey = value.idempotencyKey
  := by
  simp only [bindRole, bind_eq_ok, check_eq_ok, Bool.and_eq_true, decide_eq_true_eq] at h
  obtain ⟨_, -, _, ⟨⟨role, -⟩, session⟩, _, short, _, -, h⟩ := h
  have positive : 0 < (if value.ttl ≤ 0 then defaultTTL else value.ttl) := by
    split
    · decide
    · exact not_le.mp ‹_›
  suffices made : ∃ digest, value.commit s env renewOnly
      (if value.ttl ≤ 0 then defaultTTL else value.ttl) digest = .ok b by
    obtain ⟨digest, made⟩ := made
    exact ⟨_, positive, short, role, session, BindInput.commit_ok made⟩
  split at h
  · exact ⟨_, some_map_eq_ok.mp h⟩
  · simp only [bind_eq_ok] at h
    obtain ⟨_, -, h⟩ := h
    cases renewOnly with
    | true => simp at h
    | false =>
        simp only [Bool.false_eq_true, if_false] at h
        split at h
        · simp at h
        · exact ⟨_, some_map_eq_ok.mp h⟩

/-- A renewal is a binding. -/
theorem renewRole_ok
    {p : Platform} {s : State} {segments : List Segment} {env : Env} {value : BindInput} {b : Batch}
    (h : renewRole p s segments env value = .ok (some b)) :
  bindRole p s segments env true { value with takeover := false } = .ok (some b)
  := by
  simp only [renewRole, bind_eq_ok] at h
  obtain ⟨_, -, h⟩ := h
  exact h

/-- A binding finds the role free: an active lease of it has expired or is one of the session. -/
theorem checkBinding_ok
    {s : State} {value : BindInput} {now : Instant} (h : checkBinding s value now = .ok ())
    {lease : RoleLease} (held : s.leases.lookup value.roleId = some lease)
    (active : lease.active = true) :
  ∃ expires, lease.expiresAt.parse = some expires ∧
    (expires ≤ now ∨ lease.sessionId = value.sessionId)
  := by
  simp only [checkBinding, held, Option.filter, active, if_true, bind_eq_ok, need_eq_ok,
    check_eq_ok, Bool.not_eq_true', Bool.and_eq_false_imp, decide_eq_true_eq,
    decide_eq_false_iff_not, not_not] at h
  obtain ⟨expires, parsed, _, free, -⟩ := h
  refine ⟨expires, parsed, ?_⟩
  rcases lt_or_ge now expires with before | after
  · exact Or.inr (free before)
  · exact Or.inl after

/-- What a transfer was admitted on. -/
structure TransferInput.Admitted (s : State) (value : TransferInput) (now : Instant)
    (previous : RoleLease) : Prop where
  names : checkTransferNames value = .ok ()
  controller : ∃ lease, validLeaseAt s value.actorRole now = .ok lease ∧
    lease.sessionId = value.actorSessionId
  capable : GraphDefinition.roleHasCapability s.graph value.actorRole .roleControl = true
  replaced : transferredLease s value now = .ok previous
  successor : checkSuccessor s value now = .ok ()

/-- The lease that a transfer gives. -/
def TransferInput.lease (value : TransferInput) (ttl : Duration) (now : Instant) : RoleLease :=
  { roleId := value.roleId
    harness := value.harness
    sessionId := value.sessionId
    boundAt := .utc now
    expiresAt := .utc (now + ttl)
    active := true }

/-- A transfer that is committed was admitted. -/
theorem transferRole_ok
    {p : Platform} {s : State} {segments : List Segment} {env : Env} {now : Instant}
    {value : TransferInput} {actionHead : String} {b : Batch}
    (h : transferRole p s segments env now value actionHead = .ok (some b)) :
  ∃ ttl previous, 0 < ttl ∧ ttl ≤ maxTTL ∧ value.Admitted s now previous ∧
    b.events = [.roleTransferred
      { authority := roleControlAuthority
        actorRole := value.actorRole
        actorSessionId := value.actorSessionId
        previous
        next := value.lease ttl now
        reason := value.reason
        transferredAt := .utc now }] ∧
    b.command.kind = "role.control-transfer" ∧
    b.command.idempotencyKey = value.idempotencyKey
  := by
  simp only [transferRole, bind_eq_ok, check_eq_ok, Bool.and_eq_true, decide_eq_true_eq] at h
  obtain ⟨_, names, _, whole, _, short, _, -, _, -, h⟩ := h
  split at h
  · simp at h
  · simp only [bind_eq_ok, check_eq_ok, decide_eq_true_eq, Except.ok.injEq,
      Option.some.injEq] at h
    obtain ⟨_, -, lease, valid, _, session, _, capable, previous, replaced, _, successor, rfl⟩ := h
    refine ⟨_, previous, ?_, short, ⟨names, ⟨lease, valid, session⟩, capable, replaced, successor⟩,
      rfl, rfl, rfl⟩
    exact lt_of_lt_of_le (by decide) whole.1

/-- A release that is committed is one of the session that the active lease of the role names. -/
theorem releaseRole_ok
    {p : Platform} {s : State} {env : Env} {roleId sessionId key : String} {b : Batch}
    (h : releaseRole p s env roleId sessionId key = .ok (some b)) :
  (∃ lease, s.leases.lookup roleId = some lease ∧ lease.active = true ∧
      lease.sessionId = sessionId) ∧
    b.events = [.roleReleased roleId (.utc (env.clock 0))] ∧
    b.command.kind = "role.release" ∧ b.command.idempotencyKey = key
  := by
  simp only [releaseRole, bind_eq_ok] at h
  obtain ⟨_, -, h⟩ := h
  split at h
  · simp at h
  · simp only [bind_eq_ok, check_eq_ok, Option.any_eq_true, Bool.and_eq_true, decide_eq_true_eq,
      Except.ok.injEq, Option.some.injEq] at h
    obtain ⟨_, ⟨lease, held, active, session⟩, rfl⟩ := h
    exact ⟨⟨lease, held, active, session⟩, rfl, rfl, rfl⟩

end Dagrail
