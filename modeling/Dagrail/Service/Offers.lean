import Dagrail.Service.CompactRef
import Dagrail.Service.Declared
import Dagrail.Domain.WellFormed
import Dagrail.Service.Listing
import Dagrail.Service.Runs

/-!
# References that are offered

The actions that a role is offered besides those on its nodes (`internal/service/query.go`): to
transfer the role of another, to resolve the incident of another, and to close an own incident in
favour of a node that repairs it. What is signed for any offer of a reachable state is bound in that
state, and its compact form stays good for exactly as long as all of it is bound.
-/

namespace Dagrail

/-! ### Offers -/

/-- The reference of an action of a role under its lease. -/
def plannedRef (p : Platform) (s : State) (lease : RoleLease) (roleId kind : String)
    (expires : Instant) (subject : List String) : ActionRef where
  projectId := s.projectId
  headHash := s.headHash
  graphRevision := s.graphRevision
  providerSet := p.hash.providerFingerprint s.graph
  roleId
  sessionId := lease.sessionId
  kind
  expiresAt := .utc expires
  subject

/-- The node that stands for none. -/
def noNode : NodeDefinition :=
  { id := "", kind := default }

/-- The offer to resolve the incident of another role. -/
def incidentControlResolveAllowedAction (p : Platform) (budgets : Budgets) (s : State)
    (lease : RoleLease) (roleId : String) (incident : Incident) (now : Instant) :
    Fallible AllowedAction := do
  check (GraphDefinition.roleHasCapability s.graph roleId .incidentControl)
    ("role " ++ roleId ++ " lacks incident control capability")
  controlResolvableIncident s incident roleId
  let kind := "incident.control-resolve"
  let expires := referenceExpiry lease now
  let ref := { plannedRef p s lease roleId kind expires
      [roleId, lease.sessionId, incident.id, incident.ownerRole, incident.sourceId, kind] with
    nodeId := incident.nodeId
    incidentId := incident.id }
  let remaining := remainingSeconds expires now
  let required := requiredLeaseSeconds budgets kind noNode
  check (required ≤ remaining)
    ("role " ++ roleId ++ " lease is too short for incident controller action")
  .ok
    { id := ref.actionId p
      kind
      ref
      nodeId := incident.nodeId
      attemptId := ""
      targetRef := "incident:" ++ incident.id
      inputSchema := incidentControlResolveInputSchema
      leaseRemainingSeconds := remaining
      requiredLeaseSeconds := required }

/-- The expiry of an offer on the lease of another: the earlier one of both leases. -/
def transferExpiry (lease : RoleLease) (targetExpiry now : Instant) : Instant :=
  if targetExpiry < referenceExpiry lease now then targetExpiry else referenceExpiry lease now

/-- The offer to transfer the role of another session. -/
def roleControlTransferAllowedAction (p : Platform) (budgets : Budgets) (s : State)
    (lease : RoleLease) (roleId : String) (target : RoleLease) (now : Instant) :
    Fallible AllowedAction := do
  check (GraphDefinition.roleHasCapability s.graph roleId .roleControl)
    ("role " ++ roleId ++ " lacks role control capability")
  check (target.roleId ≠ "" && target.roleId ≠ roleId && target.active)
    "target role does not have a distinct active lease"
  check (target.sessionId ≠ lease.sessionId) "role controller session also owns the target lease"
  let bound ← need target.boundAt.parse "target role lease is expired"
  let targetExpiry ← need target.expiresAt.parse "target role lease is expired"
  check (decide (bound ≤ now) && decide (now < targetExpiry)) "target role lease is expired"
  let kind := "role.control-transfer"
  let expires := transferExpiry lease targetExpiry now
  let ref := { plannedRef p s lease roleId kind expires
      [roleId, lease.sessionId, target.roleId, target.sessionId, kind] with
    targetRoleId := target.roleId
    previousSessionId := target.sessionId }
  let remaining := remainingSeconds expires now
  let required := requiredLeaseSeconds budgets kind noNode
  check (required ≤ remaining)
    ("role " ++ roleId ++ " lease is too short for role controller action")
  .ok
    { id := ref.actionId p
      kind
      ref
      nodeId := ""
      attemptId := ""
      targetRef := "role:" ++ target.roleId
      inputSchema := roleControlTransferInputSchema
      leaseRemainingSeconds := remaining
      requiredLeaseSeconds := required }

/-- The offer to close an incident of the role in favour of the node that repairs it. It is the one
offer that needs no rest of the lease. -/
def incidentSupersedeAllowedAction (p : Platform) (s : State) (lease : RoleLease) (roleId : String)
    (incident : Incident) (successorNodeId : String) (now : Instant) : Fallible AllowedAction := do
  check (incident.ownerRole = roleId
      && GraphDefinition.roleHasCapability s.graph roleId .incidentManage)
    ("role " ++ incident.ownerRole ++ " lacks incident management capability")
  let kind := "incident.supersede"
  let ref := { plannedRef p s lease incident.ownerRole kind (referenceExpiry lease now)
      [incident.ownerRole, lease.sessionId, incident.id, successorNodeId, kind] with
    nodeId := successorNodeId
    incidentId := incident.id
    successorNodeId }
  .ok
    { id := ref.actionId p
      kind
      ref
      nodeId := successorNodeId
      attemptId := ""
      targetRef := "incident:" ++ incident.id
      inputSchema := incidentSupersedeInputSchema
      leaseRemainingSeconds := 0
      requiredLeaseSeconds := 0 }

/-- Is the node planned or active? -/
def State.underWay (s : State) (nodeId : String) : Bool :=
  (s.nodes.get nodeId).status = .planned || (s.nodes.get nodeId).status = .active

/-- The nodes that may repair a node: behind an edge from it whose predicate is satisfied, or in its
place. -/
def incidentSuccessors (s : State) (nodeId : String) : List String :=
  match s.graph with
  | none => []
  | some g =>
      (g.spec.edges.filter fun edge => edge.source = nodeId
          && predicateSatisfied (s.nodes.get edge.source) edge.when
          && s.underWay edge.target).map EdgeDefinition.target
        ++ (g.spec.nodes.filter fun node => node.supersedes ≠ "" && node.supersedes = nodeId
          && s.underWay node.id).map NodeDefinition.id

/-- The first of the nodes that may repair a node. -/
def buildIncidentSuccessorIndex (s : State) (nodeId : String) : String :=
  ((incidentSuccessors s nodeId).insertionSort fun a b => a ≤ b).headD ""

/-- The action is offered to the role. Of a transfer it is not asked whether the target role has
work left. -/
inductive Offered (p : Platform) (budgets : Budgets) (s : State) (roleId : String) (now : Instant)
    (action : AllowedAction) : Prop where
  | node (lease : RoleLease) (node : NodeDefinition) (ready : Bool) (actions : List AllowedAction)
      (own : validLeaseAt s roleId now = .ok lease) (role : graphHasRole s roleId = true)
      (declared : s.nodeDefinition node.id = some node)
      (listed : listActionsForNodeAtWithReady p budgets s lease roleId node ready now = .ok actions)
      (mem : action ∈ actions)
  | transfer (lease target : RoleLease) (targetRoleId : String)
      (own : validLeaseAt s roleId now = .ok lease) (role : graphHasRole s roleId = true)
      (other : validLeaseAt s targetRoleId now = .ok target)
      (offered : roleControlTransferAllowedAction p budgets s lease roleId target now = .ok action)
  | controlResolve (lease : RoleLease) (incidentId : String) (incident : Incident)
      (own : validLeaseAt s roleId now = .ok lease) (role : graphHasRole s roleId = true)
      (known : s.incidents.lookup incidentId = some incident)
      (offered : incidentControlResolveAllowedAction p budgets s lease roleId incident now
        = .ok action)
  | supersede (lease : RoleLease) (incidentId : String) (incident : Incident)
      (own : validLeaseAt s roleId now = .ok lease) (role : graphHasRole s roleId = true)
      (known : s.incidents.lookup incidentId = some incident)
      (live : incident.status ≠ .resolved) (source : incident.sourceType = "attempt")
      (repair : buildIncidentSuccessorIndex s incident.nodeId ≠ "")
      (offered : incidentSupersedeAllowedAction p s lease roleId incident
        (buildIncidentSuccessorIndex s incident.nodeId) now = .ok action)

/-- What is signed for a reference. -/
def ActionRef.payload (p : Platform) (ref : ActionRef) : ActionRefPayload where
  actionId := ref.actionId p
  projectId := ref.projectId
  graphRevision := ref.graphRevision
  providerSet := ref.providerSet
  headHash := ref.headHash
  roleId := ref.roleId
  sessionId := ref.sessionId
  nodeId := ref.nodeId
  attemptId := ref.attemptId
  resourceId := ref.resourceId
  incidentId := ref.incidentId
  successorNodeId := ref.successorNodeId
  targetRoleId := ref.targetRoleId
  previousSessionId := ref.previousSessionId
  kind := ref.kind
  expiresAt := ref.expiresAt.format

/-! ### What is bound -/

/-- What the names of a state have to satisfy for its offers to be bound. -/
structure State.Bindable (s : State) : Prop where
  attempts : ∀ id attempt, s.attempts.lookup id = some attempt → attempt.id = id
  resources : ∀ id resource, s.resources.lookup id = some resource → resource.id = id
  incidents : ∀ id incident, s.incidents.lookup id = some incident → incident.id = id
  incidentNodes : ∀ id incident, s.incidents.lookup id = some incident →
    incident.sourceType = "attempt" → ∃ attempt,
      s.attempts.lookup incident.sourceId = some attempt ∧ attempt.nodeId = incident.nodeId
  leases : LeasesFiled s
  nodes : s.NodesDeclared
  roles : s.RolesDeclared
  named : ∀ nodeId node, s.nodeDefinition nodeId = some node → nodeId ≠ ""

section Bound

variable {p : Platform} {budgets : Budgets} {s : State} {roleId : String} {now : Instant}
  {action : AllowedAction}

/-- A node that has a status is declared. -/
theorem State.Bindable.declared
    (bindable : s.Bindable) (nodeId : String) (status : (s.nodes.get nodeId).status ≠ .absent) :
  (s.nodeDefinition nodeId).isSome = true ∧ nodeId ≠ ""
  := by
  have known : s.nodes.has nodeId = true := by
    cases found : s.nodes.lookup nodeId with
    | none => exact absurd (by simp [Table.get, found]; rfl) status
    | some runtime => exact Table.has_iff.mpr ⟨runtime, found⟩
  obtain ⟨g, graph, declared⟩ := bindable.nodes nodeId known
  have there : (s.nodeDefinition nodeId).isSome = true := by
    simpa [State.nodeDefinition, graph, GraphDefinition.nodeDefinition, List.find?_isSome,
      GraphDefinition.hasNode] using declared
  obtain ⟨node, found⟩ := Option.isSome_iff_exists.mp there
  exact ⟨there, bindable.named nodeId node found⟩

/-- The attempt and the resources of the candidates are known. -/
theorem State.Bindable.candidates
    (bindable : s.Bindable) {node : NodeDefinition} {ready : Bool} {attemptId : String}
    {candidates : List ActionCandidate}
    (possible : candidatesOf s roleId node ready = .ok (attemptId, candidates)) :
  (attemptId ≠ "" → s.attempts.has attemptId = true) ∧
    ∀ candidate ∈ candidates, candidate.resourceId ≠ "" →
      s.resources.has candidate.resourceId = true
  := by
  unfold candidatesOf at possible
  split at possible
  · obtain ⟨rfl, rfl⟩ := Prod.mk.inj (Except.ok.inj possible)
    refine ⟨fun there => absurd rfl there, fun candidate mem there => ?_⟩
    split at mem
    · obtain rfl := List.mem_singleton.mp mem
      exact absurd rfl there
    · cases mem
  · simp only [bind_eq_ok, need_eq_ok, Except.ok.injEq, Prod.mk.injEq] at possible
    obtain ⟨attempt, latest, rfl, rfl⟩ := possible
    simp only [State.latestAttempt, Option.bind_eq_some_iff] at latest
    obtain ⟨id, -, known⟩ := latest
    refine ⟨fun _ => ?_, fun candidate mem there => ?_⟩
    · rw [bindable.attempts id attempt known]
      exact Table.has_iff.mpr ⟨attempt, known⟩
    · rcases List.mem_append.mp mem with mem | mem
      · obtain ⟨kind, -, rfl⟩ := List.mem_map.mp mem
        exact absurd rfl there
      · split at mem
        · obtain ⟨resource, active, rfl⟩ := List.mem_map.mp mem
          obtain ⟨id, known⟩ := Table.mem_values_iff.mp (List.mem_filter.mp active).1
          have own : (closureCandidate resource).resourceId = id :=
            bindable.resources id resource known
          rw [own]
          exact Table.has_iff.mpr ⟨resource, known⟩
        · cases mem
  · obtain ⟨rfl, rfl⟩ := Prod.mk.inj (Except.ok.inj possible)
    exact ⟨fun there => absurd rfl there, fun candidate mem => by cases mem⟩

/-- The reference of an offer on a node is about the attempt of the candidates, and about the
resource of one of them or none. -/
theorem ref_of_listActionsForNode
    {lease : RoleLease} {node : NodeDefinition} {ready : Bool} {actions : List AllowedAction}
    (listed : listActionsForNodeAtWithReady p budgets s lease roleId node ready now = .ok actions)
    (mem : action ∈ actions) :
  ∃ attemptId candidates resourceId kind subject,
    candidatesOf s roleId node ready = .ok (attemptId, candidates) ∧
    (resourceId = "" ∨ ∃ candidate ∈ candidates, candidate.resourceId = resourceId) ∧
    roleId ≠ "" ∧
    action.ref = listedRef p s lease roleId node attemptId resourceId kind subject now
  := by
  simp only [listActionsForNodeAtWithReady, bind_eq_ok, check_eq_ok, Except.ok.injEq] at listed
  obtain ⟨_, -, _, able, ⟨attemptId, unsorted⟩, possible, rfl⟩ := listed
  have named := GraphDefinition.ne_empty_of_roleHasCapability able
  rcases List.mem_append.mp mem with mem | mem
  · obtain ⟨candidate, fits, rfl⟩ := List.mem_map.mp mem
    have among := (List.perm_insertionSort ActionCandidate.le unsorted).mem_iff.mp
      (List.mem_filter.mp fits).1
    exact ⟨attemptId, unsorted, _, _, _, possible, .inr ⟨candidate, among, rfl⟩, named, rfl⟩
  · split at mem
    · obtain rfl := List.mem_singleton.mp mem
      exact ⟨attemptId, unsorted, _, _, _, possible, .inl rfl, named, rfl⟩
    · cases mem

/-- What is signed for an offer on a node is bound. -/
theorem State.Bindable.bound_node
    (bindable : s.Bindable) {lease : RoleLease} {node : NodeDefinition}
    {attemptId resourceId kind : String} {subject : List String}
    (own : validLeaseAt s roleId now = .ok lease)
    (role : roleId ≠ "" ∧ graphHasRole s roleId = true)
    (declared : s.nodeDefinition node.id = some node)
    (attempt : attemptId ≠ "" → s.attempts.has attemptId = true)
    (resource : resourceId ≠ "" → s.resources.has resourceId = true) :
  ((listedRef p s lease roleId node attemptId resourceId kind subject now).payload p).Bound s
  := by
  obtain ⟨held, -, -⟩ := validLeaseAt_ok own
  exact {
    projectId := rfl
    roleId := role
    sessionId := ⟨lease, held, rfl⟩
    about := .inr (bindable.named node.id node declared)
    target := fun there => absurd rfl there
    nodeId := fun _ => Option.isSome_iff_exists.mpr ⟨node, declared⟩
    attemptId := attempt
    resourceId := resource
    incidentId := fun there => absurd rfl there
    successorNodeId := fun there => absurd rfl there }

/-- A successor of a node is under way. -/
theorem underWay_of_successor
    {nodeId : String} (there : buildIncidentSuccessorIndex s nodeId ≠ "") :
  s.underWay (buildIncidentSuccessorIndex s nodeId) = true
  := by
  have mem : buildIncidentSuccessorIndex s nodeId ∈ incidentSuccessors s nodeId := by
    unfold buildIncidentSuccessorIndex at there ⊢
    rw [← (List.perm_insertionSort (fun a b => a ≤ b) (incidentSuccessors s nodeId)).mem_iff]
    cases sorted : (incidentSuccessors s nodeId).insertionSort fun a b => a ≤ b with
    | nil => simp [sorted] at there
    | cons first rest => exact List.mem_cons_self
  generalize buildIncidentSuccessorIndex s nodeId = successor at mem
  unfold incidentSuccessors at mem
  cases graph : s.graph with
  | none => simp [graph] at mem
  | some g =>
      simp only [graph, List.mem_append, List.mem_map, List.mem_filter, Bool.and_eq_true] at mem
      rcases mem with ⟨edge, ⟨-, -, way⟩, rfl⟩ | ⟨node, ⟨-, -, way⟩, rfl⟩
      · exact way
      · exact way

/-- What is signed for an action that is offered is bound. -/
theorem State.Bindable.bound
    (bindable : s.Bindable) (listed : Offered p budgets s roleId now action) :
  (action.ref.payload p).Bound s
  := by
  cases listed with
  | node lease node ready actions own role declared listed mem =>
      obtain ⟨attemptId, candidates, resourceId, kind, subject, possible, about, named, ref⟩ :=
        ref_of_listActionsForNode listed mem
      obtain ⟨attempt, resources⟩ := bindable.candidates possible
      rw [ref]
      refine bindable.bound_node own ⟨named, role⟩ declared attempt fun there => ?_
      obtain ⟨candidate, among, rfl⟩ := about.resolve_left there
      exact resources candidate among there
  | transfer lease target targetRoleId own role other offered =>
      obtain ⟨held, -, -⟩ := validLeaseAt_ok own
      obtain ⟨held', active, -⟩ := validLeaseAt_ok other
      simp only [roleControlTransferAllowedAction, bind_eq_ok, check_eq_ok, Except.ok.injEq]
        at offered
      obtain ⟨_, able, _, -, _, -, _, -, _, -, _, -, _, -, rfl⟩ := offered
      have filed := bindable.leases targetRoleId target held' active
      exact {
        projectId := rfl
        roleId := ⟨GraphDefinition.ne_empty_of_roleHasCapability able, role⟩
        sessionId := ⟨lease, held, rfl⟩
        about := .inl rfl
        target := fun _ => by
          change graphHasRole s target.roleId = true ∧ ∃ lease,
            s.leases.lookup target.roleId = some lease ∧ lease.sessionId = target.sessionId
          rw [filed]
          exact ⟨bindable.roles targetRoleId target held' active, target, held', rfl⟩
        nodeId := fun there => absurd rfl there
        attemptId := fun there => absurd rfl there
        resourceId := fun there => absurd rfl there
        incidentId := fun there => absurd rfl there
        successorNodeId := fun there => absurd rfl there }
  | controlResolve lease incidentId incident own role known offered =>
      obtain ⟨held, -, -⟩ := validLeaseAt_ok own
      simp only [incidentControlResolveAllowedAction, controlResolvableIncident, bind_eq_ok,
        need_eq_ok, check_eq_ok, Bool.and_eq_true, decide_eq_true_eq, Option.filter_eq_some_iff,
        Except.ok.injEq] at offered
      obtain ⟨_, able, _, ⟨_, -, _, source, _, -, attempt, ⟨found, -⟩, over_, -⟩, _, -, rfl⟩ :=
        offered
      -- the node of a failed attempt is a terminal one, so it is declared
      obtain ⟨attempt', found', same⟩ := bindable.incidentNodes incidentId incident known source
      obtain rfl := Option.some.inj (found.symm.trans found')
      rw [same] at over_
      have declared := bindable.declared incident.nodeId (by rw [over_]; decide)
      exact {
        projectId := rfl
        roleId := ⟨GraphDefinition.ne_empty_of_roleHasCapability able, role⟩
        sessionId := ⟨lease, held, rfl⟩
        about := .inr declared.2
        target := fun there => absurd rfl there
        nodeId := fun _ => declared.1
        attemptId := fun there => absurd rfl there
        resourceId := fun there => absurd rfl there
        incidentId := fun _ => by
          change s.incidents.has incident.id = true
          rw [bindable.incidents incidentId incident known]
          exact Table.has_iff.mpr ⟨incident, known⟩
        successorNodeId := fun there => absurd rfl there }
  | supersede lease incidentId incident own role known live source repair offered =>
      obtain ⟨held, -, -⟩ := validLeaseAt_ok own
      simp only [incidentSupersedeAllowedAction, bind_eq_ok, check_eq_ok, Bool.and_eq_true,
        decide_eq_true_eq, Except.ok.injEq] at offered
      obtain ⟨_, ⟨owner, able⟩, rfl⟩ := offered
      have way := underWay_of_successor repair
      have declared : (s.nodeDefinition (buildIncidentSuccessorIndex s incident.nodeId)).isSome
          = true := by
        refine (bindable.declared _ fun absent => ?_).1
        simp [State.underWay, absent] at way
      exact {
        projectId := rfl
        roleId := by
          change incident.ownerRole ≠ "" ∧ graphHasRole s incident.ownerRole = true
          rw [owner]
          exact ⟨GraphDefinition.ne_empty_of_roleHasCapability able, role⟩
        sessionId := by
          change ∃ l, s.leases.lookup incident.ownerRole = some l ∧ l.sessionId = lease.sessionId
          rw [owner]
          exact ⟨lease, held, rfl⟩
        about := .inr repair
        target := fun there => absurd rfl there
        nodeId := fun _ => declared
        attemptId := fun there => absurd rfl there
        resourceId := fun there => absurd rfl there
        incidentId := fun _ => by
          change s.incidents.has incident.id = true
          rw [bindable.incidents incidentId incident known]
          exact Table.has_iff.mpr ⟨incident, known⟩
        successorNodeId := fun _ => declared }

/-- The states of a run with faithful imports have names that satisfy what the offers need. -/
theorem Reachable.bindable
    {projectId : String} {w : World}
    (reachable : Reachable p projectId (fun _ call => call.Faithful) w)
    (free : CollisionFree w.journal) (loaded : reduceSegments p projectId w.journal = .ok s) :
  s.Bindable
  := by
  have owned := reachable.owned free loaded
  have filed := runsFiled_of_reduceSegments loaded
  exact {
    attempts := filed.attempts
    resources := filed.resources
    incidents := fun id incident known => (owned.incidents id incident known).1
    incidentNodes := fun id incident known source =>
      ((owned.incidents id incident known).2.2.resolve_right not_false).2 source
    leases := leasesFiled_of_reduceSegments loaded
    nodes := reachable.nodesDeclared free loaded
    roles := reachable.rolesDeclared free loaded
    named := fun nodeId node found => by
      obtain ⟨own, g, graph, mem⟩ := State.nodeDefinition_some found
      have valid := validateGraph_ok_iff.mp (reachable.validGraph (List.prefix_refl _) loaded graph)
      rw [← own]
      exact (locallyValid_of_localChecks valid.1).nodesNamed node mem }

end Bound

/-! ### Along runs -/

/-- A reference that is authorized is one of the head of the state, under the session of the valid
lease. -/
theorem ActionRef.current_of_authorize
    {p : Platform} {s : State} {ref : ActionRef} {now : Instant} {lease : RoleLease}
    (h : ref.authorize p s now = .ok lease) :
  ref.projectId = s.projectId ∧ ref.graphRevision = s.graphRevision ∧
    ref.providerSet = p.hash.providerFingerprint s.graph ∧ ref.headHash = s.headHash
  := by
  have current := (authorize_ok h).1
  simp only [ActionRef.current, Bool.and_eq_true, decide_eq_true_eq] at current
  exact ⟨current.1.1.1, current.1.1.2, current.1.2, current.2⟩

/-- An action that is offered is one of the head of the state, and it names a previous session with
a target role only. -/
theorem Offered.head
    {p : Platform} {budgets : Budgets} {s : State} {roleId : String} {now : Instant}
    {action : AllowedAction} (listed : Offered p budgets s roleId now action) :
  (action.ref.headHash = s.headHash ∧ action.ref.graphRevision = s.graphRevision ∧
    action.ref.providerSet = p.hash.providerFingerprint s.graph) ∧
  (action.ref.targetRoleId = "" → action.ref.previousSessionId = "")
  := by
  cases listed with
  | node lease node ready actions own role declared listed mem =>
      obtain ⟨attemptId, candidates, resourceId, kind, subject, -, -, -, ref⟩ :=
        ref_of_listActionsForNode listed mem
      rw [ref]
      exact ⟨⟨rfl, rfl, rfl⟩, fun _ => rfl⟩
  | transfer lease target targetRoleId own role other offered =>
      simp only [roleControlTransferAllowedAction, bind_eq_ok, check_eq_ok, Bool.and_eq_true,
        decide_eq_true_eq, Except.ok.injEq] at offered
      obtain ⟨_, -, _, ⟨⟨there, -⟩, -⟩, _, -, _, -, _, -, _, -, _, -, rfl⟩ := offered
      exact ⟨⟨rfl, rfl, rfl⟩, fun none_ => absurd none_ there⟩
  | controlResolve lease incidentId incident own role known offered =>
      simp only [incidentControlResolveAllowedAction, bind_eq_ok, Except.ok.injEq] at offered
      obtain ⟨_, -, _, -, _, -, rfl⟩ := offered
      exact ⟨⟨rfl, rfl, rfl⟩, fun _ => rfl⟩
  | supersede lease incidentId incident own role known live source repair offered =>
      simp only [incidentSupersedeAllowedAction, bind_eq_ok, Except.ok.injEq] at offered
      obtain ⟨_, -, rfl⟩ := offered
      exact ⟨⟨rfl, rfl, rfl⟩, fun _ => rfl⟩

/-- What comes back from the reference of an action is what was signed for it. The full form is
taken as it is. The compact form is resolved to the same names in every state that still has all of
them under the same sessions, and in no other. An authorized reference is one of the head it was
listed at. -/
theorem offered_reference_resolves
    {p : Platform} {projectId : String} {w : World} {s s' : State} {budgets : Budgets}
    {roleId : String} {now : Instant} {action : AllowedAction} (codec : ActionCodec)
    (secret : List UInt8)
    (reachable : Reachable p projectId (fun _ call => call.Faithful) w)
    (free : CollisionFree w.journal) (loaded : reduceSegments p projectId w.journal = .ok s)
    (listed : Offered p budgets s roleId now action)
    (reads : codec.parse (codec.text (codec.signedPayload p (action.ref.payload p)).document)
      = some (codec.signedPayload p (action.ref.payload p)).document)
    (apart : KeysApart p s (action.ref.payload p)) (apart' : KeysApart p s' (action.ref.payload p))
    (plain : bindingCollision ∉ (action.ref.payload p).names) :
  (codec.verifyActionRef (codec.signActionRef p (action.ref.payload p) secret) secret
      = .ok (codec.signedPayload p (action.ref.payload p)) ∧
    (codec.signedPayload p (action.ref.payload p) = action.ref.payload p ∨
      codec.signedPayload p (action.ref.payload p) = compactActionRef p (action.ref.payload p))) ∧
  (resolveCompactActionRef p s (action.ref.payload p) = .ok (action.ref.payload p) ∧
    resolveCompactActionRef p s (compactActionRef p (action.ref.payload p))
      = .ok ((action.ref.payload p).keyed p)) ∧
  (∀ r, resolveCompactActionRef p s' (compactActionRef p (action.ref.payload p)) = .ok r ↔
    r = (action.ref.payload p).keyed p ∧ (action.ref.payload p).Bound s') ∧
  ∀ now' lease, action.ref.authorize p s' now' = .ok lease →
    (s'.headHash = s.headHash ∧ s'.graphRevision = s.graphRevision ∧
      p.hash.providerFingerprint s'.graph = p.hash.providerFingerprint s.graph) ∧
    validLeaseAt s' action.ref.roleId now' = .ok lease ∧ lease.sessionId = action.ref.sessionId
  := by
  have bound := (reachable.bindable free loaded).bound listed
  have resolved : ∀ {t : State}, KeysApart p t (action.ref.payload p) → ∀ r,
      resolveCompactActionRef p t (compactActionRef p (action.ref.payload p)) = .ok r ↔
        r = (action.ref.payload p).keyed p ∧ (action.ref.payload p).Bound t :=
    fun apart _ => resolveCompactActionRef_iff apart plain listed.head.2
  refine ⟨⟨codec.verifyActionRef_signActionRef p _ secret reads, ?_⟩, ⟨rfl, ?_⟩,
    resolved apart', ?_⟩
  · unfold ActionCodec.signedPayload
    split
    · exact .inr rfl
    · exact .inl rfl
  · exact (resolved apart _).mpr ⟨rfl, bound⟩
  · intro now' lease authorized
    obtain ⟨-, revision, providers, head⟩ := ActionRef.current_of_authorize authorized
    obtain ⟨-, valid, session⟩ := ActionRef.authorize_ok authorized
    obtain ⟨head', revision', providers'⟩ := listed.head.1
    exact ⟨⟨head.symm.trans head', revision.symm.trans revision', providers.symm.trans providers'⟩,
      valid, session⟩

/-! ### A run -/

namespace SampleReference

/-- A hash for the last digit of a number. -/
def numberedHex (n : Nat) : Hex where
  text := numberedText n
  valid := validBareHash_numberedText n

/-- A hash that tells joined texts apart by the last digit of their length. -/
def hash : HashFunction
  | .segment segment => numberedHex segment.sequence
  | .joined text => numberedHex text.length
  | _ => Hex.zero

/-- The platform with the hash. -/
def platform : Platform :=
  { Platform.plain with hash }

/-- No provider publishes a budget. -/
def budgets : Budgets where
  effect _ := none
  policy _ := none

/-- A graph with one role and one task of it. -/
def graph : GraphDefinition where
  apiVersion := graphAPIVersion
  kind := graphKind
  metadata := { name := "sample" }
  spec :=
    { roles := [{ id := "dev", capabilities := [.nodeRun] }]
      nodes :=
        [{ id := "build", title := "build", kind := .task, role := "dev", objective := "build"
           outcomes := [⟨"done", .success⟩] }] }

/-- The session binds the role for a number of seconds. -/
def bindFor (seconds : Int) (key : String) : Call :=
  .bindRole
    { roleId := "dev", harness := "cli", sessionId := "session", ttl := seconds * Duration.second
      idempotencyKey := key }

/-- The calls: the graph is imported, and a session binds the role. -/
def calls : List Call :=
  [.importGraph { graph, idempotencyKey := "import", actorRole := "dev", requestDigest := "" },
   bindFor 600 "bind"]

/-- Is the text of the same length as another of the list, up to the last digit, only if it is the
same text? -/
def tells (names others : List String) : Bool :=
  names.all fun name => others.all fun other =>
    name = "" || other = "" || name.length % 10 ≠ other.length % 10 || other = name

/-- A numbered text tells the last digit. -/
theorem digit_of_numberedText
    {m n : Nat} (same : numberedText m = numberedText n) :
  m % 10 = n % 10
  := by
  have digits : ∀ a < 10, ∀ b < 10, Nat.digitChar a = Nat.digitChar b → a = b := by decide
  have lists := String.ofList_injective same
  have last := List.append_cancel_left lists
  exact digits _ (Nat.mod_lt _ (by decide)) _ (Nat.mod_lt _ (by decide)) (List.cons.inj last).1

/-- Names that are told apart by their lengths have different keys. -/
theorem keysApart_of_tells
    {s : State} {payload : ActionRefPayload}
    (tells : tells payload.names s.bindingNames = true) (named : "" ∉ s.bindingNames) :
  KeysApart platform s payload
  := by
  intro kind value mem name inside same
  have there : name ≠ "" := fun empty => named (empty ▸ inside)
  by_cases empty : value = ""
  · rw [empty] at same
    exact absurd (actionBindingKey_eq_empty_iff.mp same) there
  · rw [actionBindingKey, if_neg there, actionBindingKey, if_neg empty] at same
    have lengths : ∀ text : String, ("\x00".intercalate [payload.projectId, kind, text]).length
        = payload.projectId.length + 1 + kind.length + 1 + text.length := by
      intro text
      change (payload.projectId ++ "\x00" ++ kind ++ "\x00" ++ text).length = _
      simp only [String.length_append]
      rfl
    have digits := digit_of_numberedText same
    rw [lengths, lengths] at digits
    have told := List.all_eq_true.mp (List.all_eq_true.mp tells value mem) name inside
    simp only [Bool.or_eq_true, decide_eq_true_eq, empty, there, false_or] at told
    rcases told with apart | same
    · exact absurd (by omega) apart
    · exact same

/-- The member of a plain text, in quotation marks. -/
def renderMember (member : String × Json) : List Char :=
  match member.2 with
  | .str value =>
      "\"".toList ++ member.1.toList ++ "\":\"".toList ++ value.toList ++ "\"".toList
  | _ => []

/-- The text of a document of plain texts. -/
def render : Json → List UInt8
  | .obj members =>
      let shown := ",".toList.intercalate (members.map renderMember)
      ("\x7b".toList ++ shown ++ "\x7d".toList).map fun c => UInt8.ofNat c.toNat
  | _ => []

/-- What the run comes to: the journal, its state, the lease, the node and the action that is
offered first. -/
def offers : Fallible (List Segment × State × RoleLease × NodeDefinition × List AllowedAction) := do
  let journal ← commitCalls platform "p" 0 [] calls
  let s ← reduceSegments platform "p" journal
  let lease ← validLeaseAt s "dev" 0
  let node ← need (s.nodeDefinition "build") "the node is unknown"
  let actions ← listActionsForNodeAtWithReady platform budgets s lease "dev" node true 0
  .ok (journal, s, lease, node, actions)

/-- The payload of the first action. -/
def payloadOf (actions : List AllowedAction) : ActionRefPayload :=
  (actions.head?.map fun action => action.ref.payload platform).getD {}

/-- The codec reads the document of the payload back from its text. -/
def codec (payload : ActionRefPayload) : ActionCodec where
  text := render
  parse text := if text = render payload.document then some payload.document else none
  mac secret text := secret ++ text.take 32

/-- Are the names of the payload told apart from those of the state? -/
def plainly (s : State) (payload : ActionRefPayload) : Bool :=
  tells payload.names s.bindingNames && !s.bindingNames.contains ""
    && !payload.names.contains bindingCollision

/-- What is asked about the run: are the hashes of the journal different, is the role declared, is
an action offered, and is its payload signed as it is, with names that are told apart? -/
def verdict : List Segment × State × RoleLease × NodeDefinition × List AllowedAction → Bool
  | (journal, s, _, node, actions) =>
      decide (journal.map Segment.segmentHash).Nodup && graphHasRole s "dev"
        && decide (node.id = "build") && !actions.isEmpty
        && decide ((render (payloadOf actions).document).length ≤ maxInlineActionRefPayloadBytes)
        && plainly s (payloadOf actions)

/-- The run goes on: the session binds the role again for longer. The journal and the state after
it, and what the compact form of the payload is resolved to before and after. -/
def renews (journal : List Segment) (s : State) (payload : ActionRefPayload) :
    Fallible (List Segment × State × ActionRefPayload × ActionRefPayload) := do
  let journal' ← commitCalls platform "p" 0 journal [bindFor 900 "again"]
  let s' ← reduceSegments platform "p" journal'
  let before ← resolveCompactActionRef platform s (compactActionRef platform payload)
  let after ← resolveCompactActionRef platform s' (compactActionRef platform payload)
  .ok (journal', s', before, after)

/-- What is asked about the run: are the payloads the same, other than what was signed, and are the
head and the lease other ones? -/
def changed (s s' : State) (payload before after : ActionRefPayload) : Bool :=
  decide (before = after) && decide (before ≠ payload) && decide (s'.headHash ≠ s.headHash)
    && decide ((s'.leases.get "dev").expiresAt ≠ (s.leases.get "dev").expiresAt)

/-- They are. -/
theorem renews_run :
  (offers >>= fun answer => renews answer.1 answer.2.1 (payloadOf answer.2.2.2.2) >>= fun more =>
    .ok (verdict answer
      && changed answer.2.1 more.2.1 (payloadOf answer.2.2.2.2) more.2.2.1 more.2.2.2)) = .ok true
  := by decide +kernel

/-- What the run is about. -/
theorem offers_ok
    {journal : List Segment} {s : State} {lease : RoleLease} {node : NodeDefinition}
    {actions : List AllowedAction} (h : offers = .ok (journal, s, lease, node, actions))
    (passed : verdict (journal, s, lease, node, actions) = true) :
  (Reachable platform "p" (fun _ call => call.Faithful) (World.initial journal 0) ∧
      CollisionFree journal ∧ reduceSegments platform "p" journal = .ok s) ∧
    ∃ action, actions.head? = some action ∧ Offered platform budgets s "dev" 0 action
  := by
  simp only [offers, bind_eq_ok, need_eq_ok, Except.ok.injEq, Prod.mk.injEq] at h
  obtain ⟨journal, committed, s, loaded, lease, valid, node, declared, actions, listed, rfl, rfl,
    rfl, rfl, rfl⟩ := h
  simp only [verdict, Bool.and_eq_true, decide_eq_true_eq] at passed
  obtain ⟨⟨⟨⟨⟨free, role⟩, own⟩, some_⟩, -⟩, -⟩ := passed
  have start : Reachable platform "p" (fun _ call => call.Faithful) (World.initial [] 0) :=
    ⟨[], 0, .empty, .refl⟩
  refine ⟨⟨reachable_of_commitCalls start ?_ committed, free, loaded⟩, ?_⟩
  · simp [calls, bindFor, Call.Faithful]
  · rw [← own] at declared
    cases actions with
    | nil => simp at some_
    | cons action rest =>
        exact ⟨action, rfl, .node _ _ true _ valid role declared listed List.mem_cons_self⟩

end SampleReference

open SampleReference in
/-- The start of a task is offered and signed, and its compact form is resolved. -/
theorem offered_reference_resolves_start :
  ∃ (s : State) (action : AllowedAction), Offered platform budgets s "dev" 0 action ∧
    (let payload := action.ref.payload platform
    (codec payload).verifyActionRef ((codec payload).signActionRef platform payload []) []
        = .ok payload ∧
      resolveCompactActionRef platform s (compactActionRef platform payload)
        = .ok (payload.keyed platform))
  := by
  have run := renews_run
  simp only [bind_eq_ok, Except.ok.injEq, Bool.and_eq_true] at run
  obtain ⟨⟨journal, s, lease, node, actions⟩, found, more, -, passed, -⟩ := run
  obtain ⟨⟨reachable, free, loaded⟩, action, first, listed⟩ := offers_ok found passed
  have payload : payloadOf actions = action.ref.payload platform := by
    simp [payloadOf, first]
  simp only [verdict, payload, plainly, Bool.and_eq_true, decide_eq_true_eq, Bool.not_eq_true',
    List.contains_eq_mem, decide_eq_false_iff_not] at passed
  obtain ⟨⟨-, short⟩, ⟨told, named⟩, plain⟩ := passed
  have whole : (codec (action.ref.payload platform)).signedPayload platform
      (action.ref.payload platform) = action.ref.payload platform := if_neg (not_lt.mpr short)
  have apart := keysApart_of_tells told named
  obtain ⟨⟨verified, -⟩, ⟨-, resolved⟩, -⟩ := offered_reference_resolves
    (codec (action.ref.payload platform)) [] reachable free loaded listed
    (by rw [whole]; exact if_pos rfl) apart apart plain
  rw [whole] at verified
  exact ⟨s, action, listed, verified, resolved⟩

open SampleReference in
/-- A compact form is not resolved to the payload it was made of, and it is still resolved in a
later state with another head and another lease of the role. -/
theorem compact_reference_outlives_head :
  ∃ (journal more : List Segment) (s s' : State) (action : AllowedAction) (r : ActionRefPayload),
    Reachable platform "p" (fun _ call => call.Faithful) (World.initial journal 0) ∧
    Reachable platform "p" (fun _ call => call.Faithful) (World.initial (journal ++ more) 0) ∧
    reduceSegments platform "p" journal = .ok s ∧
    reduceSegments platform "p" (journal ++ more) = .ok s' ∧
    Offered platform budgets s "dev" 0 action ∧
    resolveCompactActionRef platform s (compactActionRef platform (action.ref.payload platform))
      = .ok r ∧
    r ≠ action.ref.payload platform ∧
    s'.headHash ≠ s.headHash ∧ s'.leases.lookup "dev" ≠ s.leases.lookup "dev" ∧
    resolveCompactActionRef platform s' (compactActionRef platform (action.ref.payload platform))
      = .ok r
  := by
  have run := renews_run
  simp only [bind_eq_ok, Except.ok.injEq, Bool.and_eq_true] at run
  obtain ⟨⟨journal, s, lease, node, actions⟩, found, ⟨journal', s', before, after⟩, renewed, passed,
    other⟩ := run
  obtain ⟨⟨reachable, free, loaded⟩, action, first, listed⟩ := offers_ok found passed
  have payload : payloadOf actions = action.ref.payload platform := by
    simp [payloadOf, first]
  simp only [renews, payload, bind_eq_ok, Except.ok.injEq, Prod.mk.injEq] at renewed
  obtain ⟨journal', committed, s', loaded', before, resolved, after, resolved', rfl, rfl, rfl,
    rfl⟩ := renewed
  simp only [changed, payload, Bool.and_eq_true, decide_eq_true_eq] at other
  obtain ⟨⟨⟨rfl, differs⟩, head⟩, expiry⟩ := other
  have faithful : ∀ (_ : State), ∀ call ∈ [bindFor 900 "again"], call.Faithful := by
    intro _ call mem
    obtain rfl := List.mem_singleton.mp mem
    exact True.intro
  have later := reachable_of_commitCalls reachable faithful committed
  obtain ⟨segment, rfl⟩ : ∃ segment, journal' = journal ++ [segment] := by
    simp only [commitCalls, bind_eq_ok, Except.ok.injEq] at committed
    obtain ⟨_, -, _, -, _, -, _, -, _, -, _, -, segment, -, same⟩ := committed
    exact ⟨segment, same.symm⟩
  refine ⟨journal, [segment], s, s', action, before, reachable, later, loaded, loaded', listed,
    resolved, differs, head, fun same => expiry ?_, resolved'⟩
  simp only [Table.get, same]

end Dagrail
