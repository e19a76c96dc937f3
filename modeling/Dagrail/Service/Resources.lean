import Dagrail.Service.ActionRef

/-!
# Resource closures

The holder of a resource lease reports what became of the resource. A confirmed closure releases
the lease and resolves its incident; any other report opens an incident or counts against it.
-/

namespace Dagrail

/-- The closure status a report asks for. -/
def closureStatusOf (status : String) : Option ClosureStatus :=
  if status = "confirmed" then some .confirmed
  else if status = "failed" then some .failed
  else if status = "unknown" then some .unknown
  else none

/-- The status of the action that reports a closure. -/
def closureActionStatus : ClosureStatus → ActionStatus
  | .confirmed => .confirmed
  | .failed => .failed
  | .unknown => .unknown
  | .unset => .unset
  | .pending => .other "pending"
  | .reconciling => .reconciling
  | .other text => .other text

/-- The lease a closure is reported for. -/
def closableResource (s : State) (ref : ActionRef) : Fallible ResourceLease := do
  let resource ← need ((s.resources.lookup ref.resourceId).filter fun resource =>
      resource.status = .active && resource.attemptId = ref.attemptId
        && resource.nodeId = ref.nodeId && resource.roleId = ref.roleId)
    "resource action target is invalid or no longer active"
  check (ref.kind ≠ "resource.close" || resource.closureStatus = .unset
      || resource.closureStatus = .pending)
    "resource closure already requires reconciliation"
  check (ref.kind ≠ "resource.reconcile" || resource.closureStatus = .unknown
      || resource.closureStatus = .failed || resource.closureStatus = .reconciling)
    "resource closure is not reconcilable"
  check ((s.incidents.lookup ("resource:" ++ resource.id)).all fun incident =>
      incident.status = .opened)
    "resource incident is not open and cannot be reopened by reconciliation"
  .ok resource

/-- The incident after a closure that is not confirmed. -/
def closureIncident (s : State) (resource : ResourceLease) (now : Instant) : Incident :=
  let fresh : Incident :=
    { id := "resource:" ++ resource.id
      sourceType := "resource"
      sourceId := resource.id
      nodeId := resource.nodeId
      ownerRole := resource.roleId
      status := .opened
      classification := "infrastructure"
      deadline := .utc (now + Duration.hour)
      attemptBudget := 2
      attempts := 1
      noProgressAttempts := 1
      progressMetric := "new closure receipt or changed observation"
      dependencyCut := dependencyCut s resource.nodeId
      openedAt := .utc now
      updatedAt := .utc now }
  match s.incidents.lookup fresh.id with
  | none => fresh
  | some existing =>
      let next := { fresh with
        openedAt := existing.openedAt
        deadline := existing.deadline
        attempts := existing.attempts + 1
        noProgressAttempts := existing.noProgressAttempts + 1
        lastProgress := existing.lastProgress
        lastProgressAt := existing.lastProgressAt
        disposition := existing.disposition
        dispositionBy := existing.dispositionBy
        dispositionAt := existing.dispositionAt }
      if next.attemptBudget ≤ next.noProgressAttempts then
        { next with
          status := .circuitOpen
          circuitReason := "resource_closure_attempt_budget_exhausted" }
      else next

/-- The events that follow the observation of a closure. -/
def closureEvents (s : State) (resource : ResourceLease) (status : ClosureStatus) (now : Instant) :
    List Event :=
  let incidentId := "resource:" ++ resource.id
  if status = .confirmed then
    .resourceReleased resource.id (.utc now) ::
      if (s.incidents.lookup incidentId).any fun incident => incident.status ≠ .resolved then
        [.incidentResolved incidentId (.utc now)]
      else []
  else if s.incidents.has incidentId then [.incidentUpdated (closureIncident s resource now)]
  else [.incidentOpened (closureIncident s resource now)]

/-- Report the closure of a resource. -/
def applyResourceAction (p : Platform) (s : State) (env : Env) (ref : ActionRef) (input : Json)
    (idempotencyKey requestDigest : String) : Fallible (Option Batch) := do
  let _ ← requireRoleCapability s ref.roleId (env.clock 1) [.resourceClose]
  let resource ← closableResource s ref
  let value ← closureDecoder.decode {} input
  let status ← need (closureStatusOf value.status)
    "resource closure status must be confirmed, failed or unknown"
  check (value.receipt.any fun receipt => receipt ≠ .null) "resource closure receipt is required"
  let now := env.clock 2
  let _ ← validLeaseAt s ref.roleId now
  .ok (some
    { command := ref.command p env idempotencyKey requestDigest
      events :=
        .resourceClosureObserved resource.id status value.receipt (.utc now)
          :: closureEvents s resource status now
          ++ [.actionApplied (ref.record p ref.attemptId (closureActionStatus status)
            (some (.obj [("resourceId", .str resource.id)])))]
      committedAt := now })

/-! ### What is committed -/

/-- A status that can be asked for is an observed one. -/
theorem closureStatusOf_eq_some
    {status : String} {closure : ClosureStatus} (h : closureStatusOf status = some closure) :
  closure = .confirmed ∨ closure = .failed ∨ closure = .unknown
  := by
  unfold closureStatusOf at h
  split_ifs at h <;> simp_all

/-- A closure that is committed is one of an active lease of the attempt. -/
theorem applyResourceAction_ok
    {p : Platform} {s : State} {env : Env} {ref : ActionRef} {input : Json}
    {key requestDigest : String} {b : Batch}
    (h : applyResourceAction p s env ref input key requestDigest = .ok (some b)) :
  ∃ resource status receipt now, closableResource s ref = .ok resource ∧
    (status = .confirmed ∨ status = .failed ∨ status = .unknown) ∧
    b.events =
      .resourceClosureObserved resource.id status receipt (.utc now)
        :: closureEvents s resource status now
        ++ [.actionApplied (ref.record p ref.attemptId (closureActionStatus status)
          (some (.obj [("resourceId", .str resource.id)])))] ∧
    b.command = ref.command p env key requestDigest
  := by
  simp only [applyResourceAction, bind_eq_ok, need_eq_ok, Except.ok.injEq, Option.some.injEq] at h
  obtain ⟨_, -, resource, closable, value, -, status, known, _, -, _, -, rfl⟩ := h
  exact ⟨resource, status, value.receipt, _, closable, closureStatusOf_eq_some known, rfl, rfl⟩

/-- The events that follow a closure are about the resource and its incident. -/
theorem mem_closureEvents
    {s : State} {resource : ResourceLease} {status : ClosureStatus} {now : Instant} {event : Event}
    (mem : event ∈ closureEvents s resource status now) :
  event = .resourceReleased resource.id (.utc now) ∨
    event = .incidentResolved ("resource:" ++ resource.id) (.utc now) ∨
    event = .incidentUpdated (closureIncident s resource now) ∨
    event = .incidentOpened (closureIncident s resource now)
  := by
  simp only [closureEvents] at mem
  split at mem
  · rcases List.mem_cons.mp mem with rfl | mem
    · exact Or.inl rfl
    · split at mem
      · exact Or.inr (Or.inl (List.mem_singleton.mp mem))
      · simp at mem
  · split at mem
    · exact Or.inr (Or.inr (Or.inl (List.mem_singleton.mp mem)))
    · exact Or.inr (Or.inr (Or.inr (List.mem_singleton.mp mem)))

end Dagrail
