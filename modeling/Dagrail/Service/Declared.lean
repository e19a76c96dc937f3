import Dagrail.Service.Ownership
import Dagrail.Service.RoleLeases

/-!
# Declared names

In every run whose imported histories read from the journal as the importer read them, the graph
declares every node that has a runtime and every role that has an active lease.
-/

namespace Dagrail

/-! ### Nodes -/

/-- The graph declares every node that has a runtime. -/
def State.NodesDeclared (s : State) : Prop :=
  ∀ nodeId, s.nodes.has nodeId = true → ∃ g, s.graph = some g ∧ g.hasNode nodeId = true

/-- Only the nodes of a list are written for the list. -/
theorem mem_of_has_foldl_insert
    {f : NodeDefinition → NodeRuntime} {nodes : List NodeDefinition} {t : Table NodeRuntime}
    {k : String} (known : (nodes.foldl (fun t node => t.insert node.id (f node)) t).has k = true) :
  t.has k = true ∨ ∃ node ∈ nodes, node.id = k
  := by
  induction nodes generalizing t with
  | nil => exact .inl known
  | cons node rest ih =>
      rw [List.foldl_cons] at known
      rcases ih known with known | ⟨node', mem, own⟩
      · rw [Table.has_insert, Bool.or_eq_true, decide_eq_true_eq] at known
        rcases known with own | known
        · exact .inr ⟨node, List.mem_cons_self, own.symm⟩
        · exact .inl known
      · exact .inr ⟨node', List.mem_cons_of_mem _ mem, own⟩

/-- A node that is written for a graph is declared by the graph. -/
theorem hasNode_of_has_foldl_insert
    {f : NodeDefinition → NodeRuntime} {g : GraphDefinition} {k : String}
    (known : (g.spec.nodes.foldl (fun t node => t.insert node.id (f node))
      (∅ : Table NodeRuntime)).has k = true) :
  g.hasNode k = true
  := by
  rcases mem_of_has_foldl_insert known with none_ | ⟨node, mem, own⟩
  · simp at none_
  · simp only [GraphDefinition.hasNode, List.any_eq_true, decide_eq_true_eq]
    exact ⟨node, mem, own⟩

section Nodes

variable {p : Platform} {projectId : String} {s s' : State} {n : Nat} {at_ : Stamp} {event : Event}

/-- A runtime of a declared node is written. -/
theorem State.NodesDeclared.insert
    (declared : s.NodesDeclared) {nodeId : String} (runtime : NodeRuntime)
    (known : ∃ g, s.graph = some g ∧ g.hasNode nodeId = true) :
  State.NodesDeclared { s with nodes := s.nodes.insert nodeId runtime }
  := by
  intro k found
  rw [Table.has_insert, Bool.or_eq_true, decide_eq_true_eq] at found
  rcases found with rfl | found
  · exact known
  · exact declared k found

/-- A lawful event keeps the nodes declared. -/
theorem State.applyEvent_nodesDeclared
    (declared : s.NodesDeclared) (live : LiveAttempts s) (lawful : event.Lawful s)
    (h : s.applyEvent p n at_ event = .ok s') :
  s'.NodesDeclared
  := by
  have frame := applyEvent_frame h
  cases event with
  | graphImported graph revision digest =>
      obtain rfl := Except.ok.inj h
      exact fun k known => ⟨graph, rfl, hasNode_of_has_foldl_insert known⟩
  | graphRevised graph revision previous superseded impact =>
      obtain rfl := Except.ok.inj h
      intro k known
      unfold reviseGraph at known
      rw [has_foldl_supersedeNode] at known
      rw [reviseGraph_eq]
      exact ⟨graph, rfl, hasNode_of_has_foldl_insert known⟩
  | attemptStarted attempt | attemptLeased attempt =>
      obtain rfl := Except.ok.inj h
      have kept := declared.insert { status := .active } lawful.2.2.1
      exact kept
  | attemptFinished id outcome outcomeClass facts updatedAt =>
      obtain rfl := Except.ok.inj h
      obtain ⟨⟨attempt, known, open_⟩, -⟩ := lawful
      simp only [finishAttempt, Table.get_of_lookup known]
      exact declared.insert _ (live.declared id attempt known open_)
  | attemptCheckpointed | attemptStatusChanged =>
      obtain rfl := Except.ok.inj h
      exact declared
  | nodeAutoCompleted nodeId outcome | nodeAutoSkipped nodeId reason =>
      obtain ⟨⟨runtime, known, -⟩, rfl⟩ := settleNode_ok h
      exact declared.insert _ (declared nodeId (Table.has_iff.mpr ⟨runtime, known⟩))
  | _ =>
      obtain ⟨nodes, -, -⟩ := frame.runs rfl
      obtain ⟨graph, -⟩ := frame.graph rfl
      intro k known
      rw [nodes] at known
      rw [graph]
      exact declared k known

/-- In every state a run with faithful imports leads to, nodes are declared. -/
theorem Reachable.nodesDeclared
    {w : World} (reachable : Reachable p projectId (fun _ call => call.Faithful) w)
    (free : CollisionFree w.journal) (loaded : reduceSegments p projectId w.journal = .ok s) :
  s.NodesDeclared
  := by
  have none_ : reduceSegments p projectId [] = .ok (State.new projectId) := rfl
  refine moments_invariant State.NodesDeclared (fun _ _ declared => declared) ?_ ?_ none_
    List.nil_prefix (List.prefix_refl w.journal) loaded
  · intro segment event s s' moment declared
    obtain ⟨lawful, live⟩ := reachable.lawful free moment
    obtain ⟨-, -, -, -, -, -, -, -, -, applied⟩ := moment
    exact State.applyEvent_nodesDeclared declared live lawful applied
  · intro nodeId known
    simp [State.new] at known

end Nodes

/-! ### Roles -/

/-- The graph declares every role that has an active lease. -/
def State.RolesDeclared (s : State) : Prop :=
  ∀ roleId lease, s.leases.lookup roleId = some lease → lease.active = true →
    graphHasRole s roleId = true

/-- A role of the graph is declared. -/
theorem graphHasRole_of_hasRole
    {s : State} {g : GraphDefinition} {roleId : String} (graph : s.graph = some g) :
  graphHasRole s roleId = g.hasRole roleId
  := by
  simp only [graphHasRole, graph, GraphDefinition.hasRole]

/-- Whether a role is declared depends on the graph. -/
theorem graphHasRole_congr
    {s t : State} (roleId : String) (same : t.graph = s.graph) :
  graphHasRole t roleId = graphHasRole s roleId
  := by
  unfold graphHasRole
  rw [same]

namespace PatchState

variable {s : State} {w w' : PatchState} {roleId : String}

/-- A role is one of the graph when one of the roles has its id. -/
theorem hasRole_iff
    {g : GraphDefinition} :
  g.hasRole roleId = true ↔ roleId ∈ g.spec.roles.map RoleDefinition.id
  := by
  simp [GraphDefinition.hasRole]

/-- An operation keeps a role that has an active lease. -/
theorem apply_hasRole
    {op : PatchOperation} (leased : (s.leases.lookup roleId).any RoleLease.active = true)
    (declared : w.graph.hasRole roleId = true) (accepted : apply s w op = .ok w') :
  w'.graph.hasRole roleId = true
  := by
  cases op with
  | addRole role =>
      simp only [apply, addRole, bind_eq_ok, Except.ok.injEq] at accepted
      obtain ⟨role, -, _, -, rfl⟩ := accepted
      rw [hasRole_iff] at declared ⊢
      simp only [GraphDefinition.withRoles, List.map_append, List.mem_append]
      exact .inl declared
  | updateRole role =>
      simp only [apply, updateRole, bind_eq_ok, Except.ok.injEq] at accepted
      obtain ⟨role, -, _, -, rfl⟩ := accepted
      rw [hasRole_iff] at declared ⊢
      simp only [GraphDefinition.withRoles]
      rw [map_updateFirst]
      · exact declared
      · intro old same
        exact (of_decide_eq_true same).symm
  | removeRole removed =>
      simp only [apply, removeRole, bind_eq_ok, check_eq_ok, Except.ok.injEq,
        Bool.not_eq_true'] at accepted
      obtain ⟨_, -, _, -, _, idle, rfl⟩ := accepted
      -- a role that is removed has no active lease
      have other : roleId ≠ removed := by
        rintro rfl
        rw [leased] at idle
        cases idle
      simp only [GraphDefinition.hasRole, GraphDefinition.withRoles, List.any_eq_true,
        decide_eq_true_eq] at declared ⊢
      obtain ⟨role, mem, own⟩ := declared
      refine ⟨role, (List.mem_eraseP_of_neg ?_).mpr mem, own⟩
      rw [own]
      simpa using other
  | addLane | updateLane | addGroup | updateGroup =>
      simp only [apply, addLane, updateLane, addGroup, updateGroup, bind_eq_ok,
        Except.ok.injEq] at accepted
      obtain ⟨_, -, _, -, rfl⟩ := accepted
      exact declared
  | removeLane | removeGroup | moveNodeToGroup =>
      simp only [apply, removeLane, removeGroup, moveNodeToGroup, bind_eq_ok, Except.ok.injEq]
        at accepted
      obtain ⟨_, -, _, -, _, -, rfl⟩ := accepted
      exact declared
  | addNode =>
      simp only [apply, addNode, bind_eq_ok, Except.ok.injEq] at accepted
      obtain ⟨_, -, _, -, rfl⟩ := accepted
      exact declared
  | updateNode =>
      simp only [apply, updateNode, bind_eq_ok, Except.ok.injEq] at accepted
      obtain ⟨_, -, _, -, _, -, rfl⟩ := accepted
      exact declared
  | removeNode =>
      simp only [apply, removeNode, bind_eq_ok, Except.ok.injEq] at accepted
      obtain ⟨_, -, _, -, rfl⟩ := accepted
      exact declared
  | addEdge =>
      simp only [apply, addEdge, bind_eq_ok, Except.ok.injEq] at accepted
      obtain ⟨_, -, _, -, _, -, rfl⟩ := accepted
      exact declared
  | removeEdge =>
      simp only [apply, removeEdge, bind_eq_ok, Except.ok.injEq] at accepted
      obtain ⟨_, -, _, -, rfl⟩ := accepted
      exact declared
  | supersedeNode =>
      simp only [apply, supersedeNode, bind_eq_ok, Except.ok.injEq] at accepted
      obtain ⟨_, -, _, -, _, -, _, -, rfl⟩ := accepted
      exact declared
  | unsupported => cases accepted

end PatchState

/-! ### Events -/

/-- What an event has to respect for roles to stay declared: it gives leases of declared roles, and
a graph that replaces another keeps the roles that have active leases. -/
def Event.DeclaresRoles (s : State) : Event → Prop
  | .roleBound lease => graphHasRole s lease.roleId = true
  | .roleTransferred transfer => graphHasRole s transfer.next.roleId = true
  | .graphImported .. => s.graph = none
  | .graphRevised graph _ _ _ _ => ∀ roleId,
      (s.leases.lookup roleId).any RoleLease.active = true → graph.hasRole roleId = true
  | _ => True

section Events

variable {p : Platform} {projectId : String} {s s' t : State} {n : Nat} {at_ : Stamp}
  {event : Event} {events : List Event}

/-- An event that gives no lease and leaves the graph is free to happen. -/
theorem Event.declaresRoles_of_free
    (leases : event.writesLeases = false) (graph : event.replacesGraph = false) :
  event.DeclaresRoles s
  := by
  cases event <;> trivial

/-- What an event that leaves the graph respects is seen from the graph. -/
theorem Event.DeclaresRoles.congr
    (declares : event.DeclaresRoles s) (plain : event.replacesGraph = false)
    (same : t.graph = s.graph) :
  event.DeclaresRoles t
  := by
  cases event with
  | roleBound lease => exact (graphHasRole_congr _ same).trans declares
  | roleTransferred transfer => exact (graphHasRole_congr _ same).trans declares
  | graphImported | graphRevised => cases plain
  | _ => trivial

/-- A lease of a declared role is filed. -/
theorem State.RolesDeclared.insert
    (declared : s.RolesDeclared) {roleId : String} (lease : RoleLease)
    (known : lease.active = true → graphHasRole s roleId = true) :
  State.RolesDeclared { s with leases := s.leases.insert roleId lease }
  := by
  intro id other found active
  change graphHasRole s id = true
  rw [Table.lookup_insert] at found
  split at found
  · rename_i here
    obtain rfl := Option.some.inj found
    rw [here]
    exact known active
  · exact declared id other found active

/-- An event that respects the roles keeps them declared. -/
theorem State.applyEvent_rolesDeclared
    (declared : s.RolesDeclared) (declares : event.DeclaresRoles s)
    (h : s.applyEvent p n at_ event = .ok s') :
  s'.RolesDeclared
  := by
  have frame := applyEvent_frame h
  cases event with
  | roleBound lease =>
      obtain rfl := Except.ok.inj h
      exact declared.insert lease fun _ => declares
  | roleTransferred transfer =>
      obtain rfl := Except.ok.inj h
      exact declared.insert transfer.next fun _ => declares
  | roleReleased roleId at' =>
      obtain rfl := Except.ok.inj h
      exact declared.insert _ fun active => absurd active (by simp)
  | graphImported graph revision digest =>
      obtain rfl := Except.ok.inj h
      intro roleId lease found active
      have before := declared roleId lease found active
      unfold graphHasRole at before
      rw [show s.graph = none from declares] at before
      cases before
  | graphRevised graph revision previous superseded impact =>
      obtain rfl := Except.ok.inj h
      rw [reviseGraph_eq]
      intro roleId lease found active
      have there : (s.leases.lookup roleId).any RoleLease.active = true := by
        rw [show s.leases.lookup roleId = some lease from found]
        exact active
      rw [graphHasRole_of_hasRole rfl]
      exact declares roleId there
  | _ =>
      intro roleId lease found active
      rw [frame.leases rfl] at found
      rw [graphHasRole_congr _ (frame.graph rfl).1]
      exact declared roleId lease found active

/-- Events that leave the graph and respect the roles keep them declared. -/
theorem State.rolesDeclared_of_events
    (declared : s.RolesDeclared)
    (declares : ∀ event ∈ events, event.replacesGraph = false ∧ event.DeclaresRoles s)
    (h : events.foldlM (State.applyEvent p n at_) s = .ok s') :
  s'.RolesDeclared
  := by
  have kept : s'.graph = s.graph ∧ s'.RolesDeclared := by
    refine foldlM_invariant (fun t => t.graph = s.graph ∧ t.RolesDeclared) ?_ ⟨rfl, declared⟩ h
    rintro t event t' mem ⟨graph, declared⟩ applied
    obtain ⟨plain, ok⟩ := declares event mem
    exact ⟨((State.applyEvent_frame applied).graph plain).1.trans graph,
      State.applyEvent_rolesDeclared declared (ok.congr plain graph) applied⟩
  exact kept.2

/-- One event that respects the roles keeps them declared. -/
theorem State.rolesDeclared_of_event
    (declared : s.RolesDeclared) (declares : event.DeclaresRoles s)
    (h : [event].foldlM (State.applyEvent p n at_) s = .ok s') :
  s'.RolesDeclared
  := by
  simp only [List.foldlM_cons, List.foldlM_nil, bind_eq_ok] at h
  obtain ⟨t, applied, same⟩ := h
  obtain rfl := Except.ok.inj same
  exact State.applyEvent_rolesDeclared declared declares applied

end Events

/-! ### Calls -/

section Calls

variable {p : Platform} {projectId : String} {s s' : State} {n : Nat} {at_ : Stamp} {env : Env}
  {segments : List Segment} {b : Batch}

/-- A binding that is committed is of a declared role. -/
theorem BindInput.commit_declared
    {renewOnly : Bool} {value : BindInput} {ttl : Duration} {requestDigest : String}
    (h : value.commit s env renewOnly ttl requestDigest = .ok b) :
  graphHasRole s value.roleId = true
  := by
  unfold commit at h
  cases renewOnly
  all_goals
    simp only [if_true, Bool.false_eq_true, if_false, bind_eq_ok, check_eq_ok] at h
  · obtain ⟨_, declared, -⟩ := h
    exact declared
  · obtain ⟨_, -, _, declared, -⟩ := h
    exact declared

/-- A role that is bound is declared. -/
theorem bindRole_declared
    {renewOnly : Bool} {value : BindInput}
    (h : bindRole p s segments env renewOnly value = .ok (some b)) :
  graphHasRole s value.roleId = true
  := by
  simp only [bindRole, bind_eq_ok] at h
  obtain ⟨_, -, _, -, _, -, _, -, h⟩ := h
  split at h
  · exact BindInput.commit_declared (some_map_eq_ok.mp h)
  · simp only [bind_eq_ok] at h
    obtain ⟨_, -, h⟩ := h
    cases renewOnly with
    | true => simp at h
    | false =>
        simp only [Bool.false_eq_true, if_false] at h
        split at h
        · simp at h
        · exact BindInput.commit_declared (some_map_eq_ok.mp h)

/-- A binding respects the roles. -/
theorem bindRole_declaresRoles
    {renewOnly : Bool} {value : BindInput}
    (h : bindRole p s segments env renewOnly value = .ok (some b)) :
  ∀ event ∈ b.events, event.DeclaresRoles s
  := by
  obtain ⟨ttl, -, -, -, -, -, events, -, -⟩ := bindRole_ok h
  rw [events, List.forall_mem_singleton]
  exact bindRole_declared h

/-- A transfer respects the roles: the role has an active lease already. -/
theorem transferRole_declaresRoles
    {now : Instant} {value : TransferInput} {actionHead : String} (declared : s.RolesDeclared)
    (h : transferRole p s segments env now value actionHead = .ok (some b)) :
  ∀ event ∈ b.events, event.DeclaresRoles s
  := by
  obtain ⟨ttl, previous, -, -, admitted, events, -, -⟩ := transferRole_ok h
  have replaced := admitted.replaced
  simp only [transferredLease, bind_eq_ok, need_eq_ok, Option.filter_eq_some_iff] at replaced
  obtain ⟨lease, ⟨held, active⟩, -⟩ := replaced
  rw [events, List.forall_mem_singleton]
  exact declared value.roleId lease held active

/-- Events that write no leases respect the roles where they leave the graph. -/
theorem LeaseFree.declaresRoles
    {events : List Event} (free : LeaseFree events) :
  ∀ event ∈ events, event.replacesGraph = false → event.DeclaresRoles s
  := by
  intro event mem plain
  exact Event.declaresRoles_of_free (free event mem) plain

/-- An action respects the roles. -/
theorem ActionCall.apply_declaresRoles
    {call : ActionCall} (declared : s.RolesDeclared) (filed : LeasesFiled s)
    (h : call.apply p s segments env = .ok (some b)) :
  ∀ event ∈ b.events, event.replacesGraph = false → event.DeclaresRoles s
  := by
  obtain ⟨-, executed⟩ := apply_ok h
  cases executed with
  | supersede kind made =>
      obtain ⟨⟨note, commit⟩, -⟩ := applyIncidentSupersedeAction_ok made
      exact commit.leaseFree.declaresRoles
  | controlResolve kind made =>
      obtain ⟨⟨value, commit⟩, -⟩ := applyIncidentControlResolveAction_ok made
      exact commit.leaseFree.declaresRoles
  | transfer kind value made =>
      exact fun event mem _ => transferRole_declaresRoles declared made event mem
  | resource kind lease node authorized target made =>
      obtain ⟨resource, status, receipt, now, -, -, events, -⟩ := applyResourceAction_ok made
      apply LeaseFree.declaresRoles
      rw [events]
      apply LeaseFree.append
      · intro event mem
        rcases List.mem_cons.mp mem with rfl | mem
        · rfl
        · exact closureEvents_leaseFree s resource status now event mem
      · simp [LeaseFree, Event.writesLeases]
  | effect kind lease node authorized target made =>
      obtain ⟨effect, -, -, events, -⟩ := applyEffectAction_ok made
      apply LeaseFree.declaresRoles
      simp [LeaseFree, events, Event.writesLeases]
  | action lease node done authorized target made events command =>
      rcases made.leases with free | ⟨renewed, bound, active, role, session⟩
      · apply LeaseFree.declaresRoles
        rw [events]
        exact free.append (by simp [LeaseFree, Event.writesLeases])
      · rw [bound] at events
        -- a renewal is of the role that has the lease
        obtain ⟨-, valid, -⟩ := ActionRef.authorize_ok authorized
        obtain ⟨checked, live, -⟩ := validLeaseAt_ok valid
        intro event mem _
        rw [events] at mem
        rcases List.mem_append.mp mem with mem | mem
        · obtain rfl := List.mem_singleton.mp mem
          change graphHasRole s renewed.roleId = true
          rw [role, filed _ _ checked live]
          exact declared _ _ checked live
        · obtain rfl := List.mem_singleton.mp mem
          trivial

/-- What the first batch of a call respects besides the graph. -/
theorem Call.declaresRoles
    {call : Call} {saga : Saga} (declared : s.RolesDeclared) (filed : LeasesFiled s)
    (imports : ∀ value, call ≠ .importHistory value)
    (h : call.start p s segments env = .ok (some (b, saga))) :
  ∀ event ∈ b.events, event.replacesGraph = false → event.DeclaresRoles s
  := by
  cases Call.start_ok h with
  | bindRole value b made => exact fun event mem _ => bindRole_declaresRoles made event mem
  | renewRole value b made =>
      exact fun event mem _ => bindRole_declaresRoles (renewRole_ok made) event mem
  | transferRole value b made =>
      exact fun event mem _ => transferRole_declaresRoles declared made event mem
  | releaseRole roleId sessionId key b made =>
      obtain ⟨bound, events, -, -⟩ := releaseRole_ok made
      intro event mem _
      rw [events] at mem
      obtain rfl := List.mem_singleton.mp mem
      trivial
  | apply call b made => exact ActionCall.apply_declaresRoles declared filed made
  | incident incidentId actorRole key change b made =>
      exact (IncidentCall.answer_ok made).1.leaseFree.declaresRoles
  | controlIncident incidentId actorRole value key b made =>
      exact (controlResolveIncident_ok made).1.leaseFree.declaresRoles
  | importGraph value b made =>
      obtain ⟨-, -, events, -, -⟩ := importGraphDefinition_ok made
      apply LeaseFree.declaresRoles
      simp [LeaseFree, events, Event.writesLeases]
  | changeGraph value b made =>
      obtain ⟨graph, impact, superseded, impact', -, events, -, -⟩ := applyGraphChange_ok made
      apply LeaseFree.declaresRoles
      simp [LeaseFree, events, Event.writesLeases]
  | autoSkip b made =>
      obtain ⟨nodeId, -, events, -⟩ := autoSkip_eq_some made
      apply LeaseFree.declaresRoles
      simp [LeaseFree, events, Event.writesLeases]
  | autoComplete b made =>
      obtain ⟨node, outcome, -, -, -, events, -⟩ := autoComplete_ok made
      apply LeaseFree.declaresRoles
      simp [LeaseFree, events, Event.writesLeases]
  | importHistory value b made => exact absurd rfl (imports value)
  | reconcile value b effect made =>
      obtain ⟨-, -, events, -⟩ := reconcileAdmission_ok made
      apply LeaseFree.declaresRoles
      simp [LeaseFree, events, Event.writesLeases]

/-- A patch keeps the roles that have active leases. -/
theorem applyGraphPatch_hasRole
    {patch : GraphPatch} {g : GraphDefinition} {impact : GraphImpact} {superseded : List String}
    {roleId : String} (declared : s.RolesDeclared)
    (leased : (s.leases.lookup roleId).any RoleLease.active = true)
    (patched : applyGraphPatch p s patch = .ok (g, impact, superseded)) :
  g.hasRole roleId = true
  := by
  obtain ⟨w, run, -, rfl, -⟩ := applyGraphPatch_ok patched
  have start : (s.graph.getD .zero).hasRole roleId = true := by
    simp only [Option.any_eq_true] at leased
    obtain ⟨lease, held, active⟩ := leased
    have known := declared roleId lease held active
    cases graph : s.graph with
    | none => simp [graphHasRole, graph] at known
    | some g =>
        rw [graphHasRole_of_hasRole graph] at known
        exact known
  exact foldlM_invariant (fun w : PatchState => w.graph.hasRole roleId = true)
    (fun w op w' _ known accepted => PatchState.apply_hasRole leased known accepted) start run

/-- A plain event leaves the graph. -/
theorem Event.replacesGraph_of_plain
    {event : Event} (plain : event.isPlain = true) :
  event.replacesGraph = false
  := by
  cases event <;> first | rfl | cases plain

/-- The first batch of a call other than an import keeps the roles declared. -/
theorem Call.rolesDeclared_of_ne_import
    {call : Call} {saga : Saga} (declared : s.RolesDeclared) (filed : LeasesFiled s)
    (imports : ∀ value, call ≠ .importHistory value)
    (h : call.start p s segments env = .ok (some (b, saga)))
    (applied : b.events.foldlM (State.applyEvent p n at_) s = .ok s') :
  s'.RolesDeclared
  := by
  have declares := Call.declaresRoles declared filed imports h
  have all : (∀ event ∈ b.events, event.replacesGraph = false) → s'.RolesDeclared := fun plain =>
    State.rolesDeclared_of_events declared
      (fun event mem => ⟨plain event mem, declares event mem (plain event mem)⟩) applied
  have write := Call.write h
  generalize b.events = events at applied write all
  cases write with
  | plain events plain =>
      exact all fun event mem => Event.replacesGraph_of_plain (plain event mem)
  | start ref node attempt now action i _ ready =>
      apply all
      simp only [startLeases, List.cons_append, List.mem_cons, List.mem_append, List.mem_map,
        List.not_mem_nil, or_false]
      rintro event (rfl | rfl | ⟨_, -, rfl⟩ | rfl) <;> rfl
  | closure ref resource status receipt now action closable =>
      apply all
      simp only [List.cons_append, List.mem_cons, List.mem_append, List.not_mem_nil, or_false]
      rintro event (rfl | mem | rfl)
      · rfl
      · rcases mem_closureEvents mem with rfl | rfl | rfl | rfl <;> rfl
      · rfl
  | importGraph graph revision inputDigest first valid =>
      refine State.rolesDeclared_of_event declared ?_ applied
      exact first
  | changeGraph patch graph impact impact' revision previous superseded patched =>
      refine State.rolesDeclared_of_event declared ?_ applied
      exact fun roleId leased => applyGraphPatch_hasRole declared leased patched
  | skip | complete =>
      refine State.rolesDeclared_of_event declared ?_ applied
      trivial
  | importHistory value _ _ _ called => exact absurd called (imports value)

/-- A history that is accepted leaves roles declared. -/
theorem Lifecycle.rolesDeclared_of_sequence
    {commands : List SourceCommand}
    (h : simulateLifecycleEventSequence p s commands = .ok s') :
  s'.RolesDeclared
  := by
  simp only [simulateLifecycleEventSequence, bind_eq_ok] at h
  obtain ⟨⟨c, t⟩, -, _, valid, same⟩ := h
  obtain rfl : t = s' := by simpa using same
  simp only [validateMigratedState, bind_eq_ok, check_eq_ok, List.all_eq_true] at valid
  obtain ⟨_, -, _, -, _, -, _, -, _, leases, -⟩ := valid
  intro roleId lease found active
  have ok := leases ⟨roleId, lease⟩ (AList.mem_lookup_iff.mp found)
  simp only [leaseValid, Bool.and_eq_true] at ok
  exact ok.1.1.1.2

/-- The import of a history that is faithful leaves roles declared. -/
theorem importLifecycleHistory_rolesDeclared
    {value : LifecycleImportInput} (faithful : (Call.importHistory value).Faithful)
    (h : importLifecycleHistory p s segments env value = .ok (some b))
    (applied : b.events.foldlM (State.applyEvent p n at_) s = .ok s') :
  s'.RolesDeclared
  := by
  obtain ⟨_, _, valid, admitted, events, -, -⟩ := importLifecycleHistory_ok h
  have admitted := validateLifecycleMigration_ok admitted
  have filed := Lifecycle.filed_of_pristine admitted.pristine
  obtain ⟨⟨_, simulates⟩, -⟩ := Lifecycle.simulates_of_sequence admitted.simulated
  rw [events, admitted.events, List.foldlM_cons, bind_eq_ok] at applied
  obtain ⟨s₀, taken, replayed⟩ := applied
  obtain ⟨-, rfl⟩ := State.importHistory_ok taken
  obtain ⟨r, replayed', content, -⟩ := simulates.replays n at_ filed (r := { s with
    lifecycleMigrations := s.lifecycleMigrations.insert _ _ }) rfl (faithful _ admitted.commands)
  obtain rfl := Except.ok.inj (replayed.symm.trans replayed')
  have leases : s'.leases = valid.simulated.leases := (congrArg State.leases content :)
  have graph : s'.graph = valid.simulated.graph := (congrArg State.graph content :)
  intro roleId lease found active
  rw [leases] at found
  rw [graphHasRole_congr _ graph]
  exact Lifecycle.rolesDeclared_of_sequence admitted.simulated roleId lease found active

/-- The first batch of a call that is faithful keeps roles declared. -/
theorem Call.rolesDeclared
    {call : Call} {saga : Saga} (declared : s.RolesDeclared) (filed : LeasesFiled s)
    (faithful : call.Faithful) (h : call.start p s segments env = .ok (some (b, saga)))
    (applied : b.events.foldlM (State.applyEvent p n at_) s = .ok s') :
  s'.RolesDeclared
  := by
  by_cases imports : ∃ value, call = .importHistory value
  · obtain ⟨value, rfl⟩ := imports
    cases Call.start_ok h with
    | importHistory value b made => exact importLifecycleHistory_rolesDeclared faithful made applied
  · exact Call.rolesDeclared_of_ne_import declared filed (fun value same => imports ⟨value, same⟩) h
      applied

/-- A pending batch of a call that is faithful keeps roles declared. -/
theorem Job.Computed.rolesDeclared
    {job : Job} {base : List Segment} {batch : Batch} (declared : s.RolesDeclared)
    (filed : LeasesFiled s) (computed : job.Computed p (fun _ call => call.Faithful) s env)
    (pending : job.stage.pending = some (base, batch))
    (applied : batch.events.foldlM (State.applyEvent p n at_) s = .ok s') :
  s'.RolesDeclared
  := by
  unfold Job.Computed at computed
  split at computed
  · rename_i base' batch' stage
    obtain ⟨rfl, rfl⟩ : base' = base ∧ batch' = batch := by
      simpa [stage, Stage.pending] using pending
    exact Call.rolesDeclared declared filed computed.2.1 computed.1 applied
  · rename_i base' batch' stage
    obtain ⟨rfl, rfl⟩ : base' = base ∧ batch' = batch := by
      simpa [stage, Stage.pending] using pending
    obtain ⟨call, -, admission⟩ := computed
    obtain ⟨events, -⟩ := dispatchAdmission_ok admission
    rw [events] at applied
    refine State.rolesDeclared_of_event declared ?_ applied
    trivial
  · rename_i base' batch' stage
    obtain ⟨rfl, rfl⟩ : base' = base ∧ batch' = batch := by
      simpa [stage, Stage.pending] using pending
    obtain ⟨receipt, observation⟩ := computed
    obtain ⟨effect, status, document, known, -, events, -⟩ := observeEffect_ok observation
    refine State.rolesDeclared_of_events declared ?_ applied
    rw [events, List.forall_mem_cons]
    refine ⟨⟨rfl, trivial⟩, fun event mem => ?_⟩
    rcases mem_observationEvents mem with rfl | rfl <;> exact ⟨rfl, trivial⟩
  · rename_i idle _ _
    unfold Stage.pending at pending
    split at pending <;> simp_all

/-- In every state a run with faithful imports leads to, roles with active leases are declared. -/
theorem Reachable.rolesDeclared
    {w : World} (reachable : Reachable p projectId (fun _ call => call.Faithful) w)
    (free : CollisionFree w.journal) (loaded : reduceSegments p projectId w.journal = .ok s) :
  s.RolesDeclared
  := by
  refine Reachable.induction (P := fun w => CollisionFree w.journal → ∀ s,
    reduceSegments p projectId w.journal = .ok s → s.RolesDeclared) ?_ ?_ reachable free s loaded
  · rintro journal now initialised - s loaded
    refine reduceSegments_invariant (Q := fun event => ∃ e, event = .authorityEstablished e)
      ?_ ?_ (fun segment _ declared => declared) ?_ loaded
    · intro segment mem event listed
      cases initialised with
      | empty => simp [World.initial] at mem
      | established e first s fence hashed accepted =>
          obtain rfl : segment = first := by simpa [World.initial] using mem
          rw [fence] at listed
          exact ⟨e, List.mem_singleton.mp listed⟩
    · rintro n at_ s event s' ⟨e, rfl⟩ declared applied
      obtain rfl := Except.ok.inj applied
      exact declared
    · intro roleId lease found
      simp [State.new] at found
  · intro w w' reached step before free s loaded
    cases step with
    | create i job base batch stored segment running pending appended =>
        have free' : CollisionFree w.journal := free.of_prefix (List.prefix_append _ _)
        obtain ⟨s₀, env, s₁, created, loaded₀, applied, rfl, -⟩ :=
          reached.appended free' running pending appended loaded
        have kept := created.grounded.computed.rolesDeclared (before free' s₀ loaded₀)
          (leasesFiled_of_reduceSegments loaded₀) created.pending applied
        exact kept
    | _ => exact before free s loaded

end Calls

end Dagrail
