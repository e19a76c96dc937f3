import Dagrail.Service.Apply
import Dagrail.Domain.CutIndex

/-!
# Listing actions

The actions a role is offered for a node (`internal/service/actions.go`): which kinds of action the
state allows, how long each of them needs the lease of the role, and which of them are left out
because too little time remains. When one is left out, the list has a renewal of the role.
-/

namespace Dagrail

/-- Providers that publish how long an operation may take, by adapter and by policy. A provider that
publishes nothing, or is not compiled in, has no entry. -/
structure Budgets where
  effect : String → Option (String → Int)
  policy : String → Option (String → Int)

/-- An action that is offered. Its reference is signed when it leaves the service. -/
structure AllowedAction where
  id : String
  kind : String
  ref : ActionRef
  nodeId : String
  attemptId : String
  targetRef : String
  inputSchema : Schema
  leaseRemainingSeconds : Int
  requiredLeaseSeconds : Int

/-- A kind of action that the state allows, on a resource for the kinds that close one. -/
structure ActionCandidate where
  kind : String
  resourceId : String := ""
deriving DecidableEq

/-- The actions on a running attempt. -/
def runningActions (s : State) (node : NodeDefinition) (attempt : Attempt) : List String :=
  if node.kind = .effect then
    match s.effectForAttempt attempt.id with
    | none => ["attempt.checkpoint", "attempt.wait", "effect.prepare"]
    | some effect =>
        if effect.status = .confirmed then ["attempt.checkpoint", "effect.complete"]
        else if effect.status = .failed then
          ["attempt.checkpoint", "effect.complete", "attempt.wait"]
        else ["attempt.checkpoint", "attempt.wait"]
  else
    ["attempt.checkpoint", "attempt.wait", completionAction node]
      ++ if node.kind = .task then ["attempt.submit"] else []

/-- The actions on an attempt in its status. -/
def attemptActions (s : State) (node : NodeDefinition) (attempt : Attempt) : List String :=
  match attempt.status with
  | .running => runningActions s node attempt
  | .waiting => ["attempt.checkpoint", "attempt.resume"]
  | .submitted => ["attempt.checkpoint", completionAction node]
  | _ => []

/-- The actions on the evidence of an attempt. -/
def evidenceActions (s : State) (attempt : Attempt) : List String :=
  if attempt.status = .running ∨ attempt.status = .waiting ∨ attempt.status = .submitted then
    "evidence.publish" ::
      if s.evidencePackages.entries.isEmpty then [] else ["evidence.assess-reuse"]
  else []

/-- The action that closes a resource, or reconciles its closure. -/
def closureCandidate (resource : ResourceLease) : ActionCandidate where
  kind :=
    if resource.closureStatus = .unknown || resource.closureStatus = .failed
      || resource.closureStatus = .reconciling then "resource.reconcile" else "resource.close"
  resourceId := resource.id

/-- The active resources of an attempt. -/
def activeResources (s : State) (attemptId : String) : List ResourceLease :=
  s.resources.values.filter fun resource =>
    resource.status = .active && resource.attemptId = attemptId

/-- The attempt that a listing is about, empty for a node that is not active, and the candidates
before they are sorted. -/
def candidatesOf (s : State) (roleId : String) (node : NodeDefinition) (ready : Bool) :
    Fallible (String × List ActionCandidate) :=
  match (s.nodes.get node.id).status with
  | .planned => .ok ("", if ready then [{ kind := "node.start" }] else [])
  | .active => do
      let attempt ← need (s.latestAttempt node.id) "active node has no attempt"
      let kinds := attemptActions s node attempt ++ evidenceActions s attempt
      let closures :=
        if GraphDefinition.roleHasCapability s.graph roleId .resourceClose then
          (activeResources s attempt.id).map closureCandidate
        else []
      .ok (attempt.id, (kinds.map fun kind => { kind }) ++ closures)
  | _ => .ok ("", [])

/-- Candidates by kind, and by resource when the kinds are the same. -/
def ActionCandidate.le (a b : ActionCandidate) : Prop :=
  if a.kind = b.kind then a.resourceId ≤ b.resourceId else a.kind ≤ b.kind

instance : DecidableRel ActionCandidate.le := fun a b => by
  unfold ActionCandidate.le
  infer_instance

/-- The provider that an action calls and the operation it calls it for. -/
def budgetFor (budgets : Budgets) (kind : String) (node : NodeDefinition) : Option Int :=
  if kind = "effect.prepare" then do
    let inputs ← node.inputs
    let declaration ← (effectNodeInputDecoder.decode {} inputs).toOption
    if declaration.adapter = "" then none
    else (budgets.effect declaration.adapter).map fun budget => budget "dispatch"
  else if kind = "gate.evaluate" then
    match node.decision with
    | none => none
    | some decision =>
        if decision.providerId = "" then none
        else (budgets.policy decision.providerId).map fun budget => budget "decide"
  else none

/-- The seconds that an action gets when no provider says how long it takes. -/
def defaultLeaseSeconds (kind : String) : Int :=
  match kind with
  | "effect.prepare" => 120
  | "resource.close" | "resource.reconcile" => 60
  | "attempt.finish" | "evidence.publish" | "decision.record" => 30
  | _ => 5

/-- The longest budget of a provider that is accepted, 24 hours. -/
def maxBudgetSeconds : Int := 24 * 60 * 60

/-- The seconds of its lease that a role needs for an action. -/
def requiredLeaseSeconds (budgets : Budgets) (kind : String) (node : NodeDefinition) : Int :=
  match budgetFor budgets kind node with
  | some seconds =>
      if 0 < seconds ∧ seconds ≤ maxBudgetSeconds then seconds else defaultLeaseSeconds kind
  | none => defaultLeaseSeconds kind

/-- The expiry of a reference: in five minutes, or with the lease when this is earlier. -/
def referenceExpiry (lease : RoleLease) (now : Instant) : Instant :=
  match lease.expiresAt.parse with
  | some leaseExpiry =>
      if leaseExpiry < now + 5 * Duration.minute then leaseExpiry else now + 5 * Duration.minute
  | none => now + 5 * Duration.minute

/-- The whole seconds from now to an instant, none when it is past. -/
def remainingSeconds (expires now : Instant) : Int :=
  max 0 ((expires - now).tdiv Duration.second)

/-- The reference of an action. -/
def listedRef (p : Platform) (s : State) (lease : RoleLease) (roleId : String)
    (node : NodeDefinition) (attemptId resourceId kind : String) (subject : List String)
    (now : Instant) : ActionRef where
  projectId := s.projectId
  headHash := s.headHash
  graphRevision := s.graphRevision
  providerSet := p.hash.providerFingerprint s.graph
  roleId := roleId
  sessionId := lease.sessionId
  nodeId := node.id
  attemptId := attemptId
  resourceId := resourceId
  kind := kind
  expiresAt := .utc (referenceExpiry lease now)
  subject := subject

/-- The offer of a candidate. -/
def offerOf (p : Platform) (budgets : Budgets) (s : State) (lease : RoleLease) (roleId : String)
    (node : NodeDefinition) (attemptId : String) (now : Instant) (candidate : ActionCandidate) :
    AllowedAction :=
  let ref := listedRef p s lease roleId node attemptId candidate.resourceId candidate.kind
    [roleId, lease.sessionId, node.id, attemptId, candidate.resourceId, candidate.kind] now
  { id := ref.actionId p
    kind := candidate.kind
    ref
    nodeId := node.id
    attemptId
    targetRef := if candidate.resourceId ≠ "" then "resource:" ++ candidate.resourceId else ""
    inputSchema := actionInputSchema p candidate.kind node
    leaseRemainingSeconds := remainingSeconds (referenceExpiry lease now) now
    requiredLeaseSeconds := requiredLeaseSeconds budgets candidate.kind node }

/-- The offer of a renewal. -/
def renewalOffer (p : Platform) (s : State) (lease : RoleLease) (roleId : String)
    (node : NodeDefinition) (attemptId : String) (now : Instant) : AllowedAction :=
  let ref := listedRef p s lease roleId node attemptId "" "role.renew"
    [roleId, lease.sessionId, node.id, attemptId, "role.renew"] now
  { id := ref.actionId p
    kind := "role.renew"
    ref
    nodeId := node.id
    attemptId
    targetRef := ""
    inputSchema := actionInputSchema p "role.renew" node
    leaseRemainingSeconds := remainingSeconds (referenceExpiry lease now) now
    requiredLeaseSeconds := 0 }

/-- Does a candidate need more than what remains? -/
def needsRenewal (budgets : Budgets) (lease : RoleLease) (node : NodeDefinition) (now : Instant)
    (candidate : ActionCandidate) : Bool :=
  decide (remainingSeconds (referenceExpiry lease now) now
    < requiredLeaseSeconds budgets candidate.kind node)

/-- The actions for a node under a lease of its role. -/
def listActionsForNodeAtWithReady (p : Platform) (budgets : Budgets) (s : State)
    (lease : RoleLease) (roleId : String) (node : NodeDefinition) (ready : Bool) (now : Instant) :
    Fallible (List AllowedAction) := do
  check (node.role = roleId) ("node " ++ node.id ++ " belongs to role " ++ node.role)
  check (GraphDefinition.roleHasCapability s.graph roleId
      ((node.kind.requiredCapability).getD (.other "")))
    ("role " ++ roleId ++ " lacks required capability")
  let (attemptId, unsorted) ← candidatesOf s roleId node ready
  let candidates := unsorted.insertionSort ActionCandidate.le
  let offers := (candidates.filter fun candidate =>
    !needsRenewal budgets lease node now candidate).map
      (offerOf p budgets s lease roleId node attemptId now)
  .ok (offers ++
    if candidates.any (needsRenewal budgets lease node now) then
      [renewalOffer p s lease roleId node attemptId now]
    else [])

/-- The actions a role is offered for a node. -/
def listActionsAt (p : Platform) (budgets : Budgets) (s : State) (roleId nodeId : String)
    (now : Instant) : Fallible (List AllowedAction) := do
  let ready := (s.nodes.get nodeId).status = .planned && (computeFrontier s).ready.contains nodeId
  let lease ← validLeaseAt s roleId now
  check (graphHasRole s roleId) ("unknown role " ++ roleId)
  let node ← need (s.nodeDefinition nodeId) ("unknown node " ++ nodeId)
  check (node.role = roleId) ("node " ++ nodeId ++ " belongs to role " ++ node.role)
  listActionsForNodeAtWithReady p budgets s lease roleId node ready now

/-! ### What is offered -/

/-- A lease lasts for a number of seconds from now. -/
def RoleLease.lasts (lease : RoleLease) (now : Instant) (seconds : Int) : Prop :=
  ∃ expires, lease.expiresAt.parse = some expires ∧ seconds * Duration.second ≤ expires - now

/-- What is required is positive and at most 24 hours. -/
theorem requiredLeaseSeconds_range
    (budgets : Budgets) (kind : String) (node : NodeDefinition) :
  0 < requiredLeaseSeconds budgets kind node ∧
    requiredLeaseSeconds budgets kind node ≤ maxBudgetSeconds
  := by
  have default : 0 < defaultLeaseSeconds kind ∧ defaultLeaseSeconds kind ≤ maxBudgetSeconds := by
    unfold defaultLeaseSeconds
    split <;> decide
  unfold requiredLeaseSeconds
  split
  · split
    · assumption
    · exact default
  · exact default

/-- No more than five minutes remain of a reference. -/
theorem remainingSeconds_le
    (lease : RoleLease) (now : Instant) :
  remainingSeconds (referenceExpiry lease now) now ≤ 300
  := by
  have bound : referenceExpiry lease now ≤ now + 5 * Duration.minute := by
    unfold referenceExpiry
    split
    · split
      · rename_i earlier
        exact le_of_lt earlier
      · exact le_refl _
    · exact le_refl _
  have five : 5 * Duration.minute = 300 * Duration.second := rfl
  rw [five] at bound
  have positive : (0 : Int) < Duration.second := by decide
  have quotient : (referenceExpiry lease now - now).tdiv Duration.second
      ≤ (300 * Duration.second).tdiv Duration.second :=
    Int.tdiv_le_tdiv positive (Int.sub_left_le_of_le_add bound)
  rw [Int.mul_tdiv_cancel _ (by decide)] at quotient
  exact max_le (by decide) quotient

/-- What a lease lasts for, up to five minutes, remains of a reference. -/
theorem le_remainingSeconds
    {lease : RoleLease} {now : Instant} {seconds : Int} (short : seconds ≤ 300)
    (lasts : lease.lasts now seconds) :
  seconds ≤ remainingSeconds (referenceExpiry lease now) now
  := by
  obtain ⟨expires, parsed, long⟩ := lasts
  have five : 5 * Duration.minute = 300 * Duration.second := rfl
  have unit : (0 : Int) < Duration.second := by decide
  have enough : seconds * Duration.second ≤ referenceExpiry lease now - now := by
    have within : seconds * Duration.second ≤ 300 * Duration.second :=
      Int.mul_le_mul_of_nonneg_right short (le_of_lt unit)
    simp only [referenceExpiry, parsed, five]
    split <;> omega
  have quotient := Int.tdiv_le_tdiv unit enough
  rw [Int.mul_tdiv_cancel _ (by decide)] at quotient
  exact le_trans quotient (le_max_right _ _)

/-- No candidate is a renewal. -/
theorem candidate_ne_renew
    {s : State} {roleId : String} {node : NodeDefinition} {ready : Bool} {attemptId : String}
    {candidates : List ActionCandidate}
    (listed : candidatesOf s roleId node ready = .ok (attemptId, candidates))
    {candidate : ActionCandidate} (mem : candidate ∈ candidates) :
  candidate.kind ≠ "role.renew"
  := by
  have completion : ∀ node, completionAction node ≠ "role.renew" := by
    intro node
    unfold completionAction
    split
    iterate 3 decide
    · split <;> decide
    iterate 2 decide
  have running : ∀ attempt, "role.renew" ∉ runningActions s node attempt := by
    intro attempt
    unfold runningActions
    split
    · split
      · decide
      · split
        · decide
        · split <;> decide
    · split <;> simp [(completion node).symm]
  have work : ∀ attempt, "role.renew" ∉ attemptActions s node attempt := by
    intro attempt
    unfold attemptActions
    split
    · exact running attempt
    · decide
    · simp [(completion node).symm]
    · exact List.not_mem_nil
  have evidence : ∀ attempt, "role.renew" ∉ evidenceActions s attempt := by
    intro attempt
    unfold evidenceActions
    split
    · split <;> decide
    · exact List.not_mem_nil
  intro renews
  unfold candidatesOf at listed
  split at listed
  · obtain ⟨-, rfl⟩ := Prod.mk.inj (Except.ok.inj listed)
    split at mem
    · obtain rfl := List.mem_singleton.mp mem
      exact absurd renews (by decide)
    · exact absurd mem List.not_mem_nil
  · simp only [bind_eq_ok, need_eq_ok, Except.ok.injEq, Prod.mk.injEq] at listed
    obtain ⟨attempt, -, -, rfl⟩ := listed
    rcases List.mem_append.mp mem with mem | mem
    · obtain ⟨kind, inside, rfl⟩ := List.mem_map.mp mem
      subst renews
      rcases List.mem_append.mp inside with inside | inside
      · exact work attempt inside
      · exact evidence attempt inside
    · split at mem
      · obtain ⟨resource, -, rfl⟩ := List.mem_map.mp mem
        simp only [closureCandidate] at renews
        split at renews <;> exact absurd renews (by decide)
      · exact absurd mem List.not_mem_nil
  · obtain ⟨-, rfl⟩ := Prod.mk.inj (Except.ok.inj listed)
    exact absurd mem List.not_mem_nil

/-- A listing has the offers of the candidates that fit, and a renewal when one does not. -/
theorem listActionsAt_ok
    {p : Platform} {budgets : Budgets} {s : State} {roleId nodeId : String} {now : Instant}
    {actions : List AllowedAction} {lease : RoleLease} {node : NodeDefinition}
    {attemptId : String} {candidates : List ActionCandidate}
    (valid : validLeaseAt s roleId now = .ok lease)
    (declared : s.nodeDefinition nodeId = some node)
    (possible : candidatesOf s roleId node ((s.nodes.get nodeId).status = .planned &&
      (computeFrontier s).ready.contains nodeId) = .ok (attemptId, candidates))
    (listed : listActionsAt p budgets s roleId nodeId now = .ok actions) (action : AllowedAction) :
  action ∈ actions ↔
    (∃ candidate ∈ candidates, needsRenewal budgets lease node now candidate = false ∧
      offerOf p budgets s lease roleId node attemptId now candidate = action) ∨
    ((∃ candidate ∈ candidates, needsRenewal budgets lease node now candidate = true) ∧
      action = renewalOffer p s lease roleId node attemptId now)
  := by
  simp only [listActionsAt, listActionsForNodeAtWithReady, valid, declared, bind_eq_ok, need_eq_ok,
    Except.ok.injEq, Option.some.injEq, exists_eq_left'] at listed
  obtain ⟨_, -, _, -, _, -, _, -, _, same, rfl⟩ := listed
  obtain rfl := Except.ok.inj (possible.symm.trans same)
  have perm := List.perm_insertionSort ActionCandidate.le candidates
  rw [List.mem_append, List.mem_map]
  simp only [List.mem_filter, perm.mem_iff, Bool.not_eq_true', and_assoc]
  refine or_congr Iff.rfl ?_
  have some_ : (candidates.insertionSort ActionCandidate.le).any
      (needsRenewal budgets lease node now) = true ↔
      ∃ candidate ∈ candidates, needsRenewal budgets lease node now candidate = true := by
    simp only [List.any_eq_true, perm.mem_iff]
  rw [← some_]
  split
  · rename_i short
    simp [short]
  · rename_i enough
    simp [enough]

/-- The listing offers every candidate that the lease lasts for, and no renewal when it lasts for
all of them. -/
def OfferedWhileLasting (p : Platform) (budgets : Budgets) (s : State) (lease : RoleLease)
    (roleId : String) (node : NodeDefinition) (attemptId : String)
    (candidates : List ActionCandidate) (now : Instant) (actions : List AllowedAction) : Prop :=
  (∀ candidate ∈ candidates,
    lease.lasts now (requiredLeaseSeconds budgets candidate.kind node) →
      offerOf p budgets s lease roleId node attemptId now candidate ∈ actions) ∧
  ((∀ candidate ∈ candidates,
    lease.lasts now (requiredLeaseSeconds budgets candidate.kind node)) →
      ∀ action ∈ actions, action.kind ≠ "role.renew")

/-- A candidate that the lease lasts for needs a renewal only when it needs more than five
minutes. -/
theorem needsRenewal_eq_false
    {budgets : Budgets} {lease : RoleLease} {node : NodeDefinition} {now : Instant}
    {candidate : ActionCandidate}
    (lasts : lease.lasts now (requiredLeaseSeconds budgets candidate.kind node))
    (short : requiredLeaseSeconds budgets candidate.kind node ≤ 300) :
  needsRenewal budgets lease node now candidate = false
  := by
  have enough := le_remainingSeconds short lasts
  rw [needsRenewal, decide_eq_false_iff_not]
  exact not_lt.mpr enough

/-- A listing unblocks what the lease lasts for exactly when none of that needs more than the five
minutes of a reference. -/
theorem listing_unblocked_iff
    (p : Platform) (budgets : Budgets) (s : State) (roleId nodeId : String) (now : Instant)
    (actions : List AllowedAction) (lease : RoleLease) (node : NodeDefinition) (attemptId : String)
    (candidates : List ActionCandidate) (valid : validLeaseAt s roleId now = .ok lease)
    (declared : s.nodeDefinition nodeId = some node)
    (possible : candidatesOf s roleId node ((s.nodes.get nodeId).status = .planned &&
      (computeFrontier s).ready.contains nodeId) = .ok (attemptId, candidates))
    (listed : listActionsAt p budgets s roleId nodeId now = .ok actions) :
  OfferedWhileLasting p budgets s lease roleId node attemptId candidates now actions ↔
    ∀ candidate ∈ candidates,
      lease.lasts now (requiredLeaseSeconds budgets candidate.kind node) →
        requiredLeaseSeconds budgets candidate.kind node ≤ 300
  := by
  have members := listActionsAt_ok valid declared possible listed
  constructor
  · intro unblocked candidate mem lasts
    rcases (members _).mp (unblocked.1 candidate mem lasts) with
      ⟨other, -, fits, same⟩ | ⟨-, same⟩
    · have kinds : other.kind = candidate.kind := congrArg AllowedAction.kind same
      rw [needsRenewal, decide_eq_false_iff_not, not_lt, kinds] at fits
      exact le_trans fits (remainingSeconds_le lease now)
    · have renews : candidate.kind = "role.renew" := congrArg AllowedAction.kind same
      exact absurd renews (candidate_ne_renew possible mem)
  · intro short
    constructor
    · intro candidate mem lasts
      have fits := needsRenewal_eq_false lasts (short candidate mem lasts)
      exact (members _).mpr (Or.inl ⟨candidate, mem, fits, rfl⟩)
    · intro all action mem
      rcases (members action).mp mem with
        ⟨candidate, inside, -, rfl⟩ | ⟨⟨candidate, inside, slow⟩, -⟩
      · exact candidate_ne_renew possible inside
      · have lasts := all candidate inside
        rw [needsRenewal_eq_false lasts (short candidate inside lasts)] at slow
        exact absurd slow Bool.false_ne_true

namespace SlowEffect

/-- An effect node of a role that may apply effects. -/
def publish : NodeDefinition :=
  { id := "publish", kind := .effect, role := "worker"
    inputs := some (.obj [("adapter", .str "slow"), ("request", .obj [])]) }

/-- The lease of the role, of one hour. -/
def lease : RoleLease :=
  { roleId := "worker", harness := "harness", sessionId := "session", boundAt := .utc 0
    expiresAt := .utc Duration.hour, active := true }

/-- A running attempt at the node. -/
def state : State :=
  { projectId := "project"
    graph := some
      { apiVersion := "dagrail.io/v1alpha1", kind := "Graph", metadata := { name := "slow" }
        spec := { roles := [⟨"worker", [.effectApply]⟩], nodes := [publish] } }
    nodes := (∅ : Table NodeRuntime).insert "publish" { status := .active }
    attempts := (∅ : Table Attempt).insert "attempt"
      { id := "attempt", nodeId := "publish", roleId := "worker", number := 1, status := .running
        startedAt := .utc 0, updatedAt := .utc 0 }
    nodeAttempts := (∅ : Table (List String)).insert "publish" ["attempt"]
    leases := (∅ : Table RoleLease).insert "worker" lease }

/-- The adapter says how long it takes. -/
def budgets (seconds : Int) : Budgets where
  effect id := if id = "slow" then some fun _ => seconds else none
  policy _ := none

/-- What the state allows. -/
def candidates : List ActionCandidate :=
  [{ kind := "attempt.checkpoint" }, { kind := "attempt.wait" }, { kind := "effect.prepare" },
    { kind := "evidence.publish" }]

end SlowEffect

/-- An effect of two minutes is offered under a lease of an hour. -/
theorem short_effect_unblocked :
  ∃ actions, listActionsAt .plain (SlowEffect.budgets 120) SlowEffect.state "worker" "publish" 0
      = .ok actions ∧
    OfferedWhileLasting .plain (SlowEffect.budgets 120) SlowEffect.state SlowEffect.lease "worker"
      SlowEffect.publish "attempt" SlowEffect.candidates 0 actions
  := by
  obtain ⟨actions, listed⟩ : ∃ actions, listActionsAt .plain (SlowEffect.budgets 120)
      SlowEffect.state "worker" "publish" 0 = .ok actions := ⟨_, rfl⟩
  refine ⟨actions, listed, (listing_unblocked_iff .plain (SlowEffect.budgets 120) SlowEffect.state
    "worker" "publish" 0 actions SlowEffect.lease SlowEffect.publish "attempt"
    SlowEffect.candidates rfl rfl rfl listed).mpr ?_⟩
  have short : ∀ candidate ∈ SlowEffect.candidates,
      requiredLeaseSeconds (SlowEffect.budgets 120) candidate.kind SlowEffect.publish ≤ 300 := by
    decide +kernel
  exact fun candidate mem _ => short candidate mem

/-- An effect of ten minutes is not offered under a lease of an hour: the list has a renewal in its
place, whatever the lease. -/
theorem slow_effect_blocked :
  ¬ ∀ (p : Platform) (budgets : Budgets) (s : State) (roleId nodeId : String) (now : Instant)
      (actions : List AllowedAction) (lease : RoleLease) (node : NodeDefinition)
      (attemptId : String) (candidates : List ActionCandidate),
      validLeaseAt s roleId now = .ok lease → s.nodeDefinition nodeId = some node →
      candidatesOf s roleId node ((s.nodes.get nodeId).status = .planned &&
        (computeFrontier s).ready.contains nodeId) = .ok (attemptId, candidates) →
      listActionsAt p budgets s roleId nodeId now = .ok actions →
      OfferedWhileLasting p budgets s lease roleId node attemptId candidates now actions
  := by
  intro always
  obtain ⟨actions, listed⟩ : ∃ actions, listActionsAt .plain (SlowEffect.budgets 600)
      SlowEffect.state "worker" "publish" 0 = .ok actions := ⟨_, rfl⟩
  have unblocked := always .plain (SlowEffect.budgets 600) SlowEffect.state "worker" "publish" 0
    actions SlowEffect.lease SlowEffect.publish "attempt" SlowEffect.candidates rfl rfl rfl listed
  have members := listActionsAt_ok (s := SlowEffect.state) rfl rfl rfl listed
  have offered := unblocked.1 { kind := "effect.prepare" } (by decide)
    ⟨Duration.hour, by decide +kernel, by decide +kernel⟩
  rcases (members _).mp offered with ⟨candidate, -, fits, same⟩ | ⟨-, same⟩
  · have kinds : candidate.kind = "effect.prepare" := congrArg AllowedAction.kind same
    rw [needsRenewal, kinds] at fits
    revert fits
    decide +kernel
  · have renews : "effect.prepare" = "role.renew" := congrArg AllowedAction.kind same
    exact absurd renews (by decide)

end Dagrail
