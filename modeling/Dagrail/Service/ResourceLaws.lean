import Dagrail.Service.ResourceLeases

/-!
# The laws of resources over runs

Every event that writes resources in a reachable journal is sanctioned on the state it is applied
to: those of the calls because of what the calls check, those of an imported history because of what
the second interpreter checks. The latter holds for histories whose payloads read from the journal
as the importer read them.
-/

namespace Dagrail

/-! ### Patches -/

/-- A patch in progress has the capacities of the graph it started from, and has superseded only
nodes without active resources. -/
structure PatchState.Careful (s : State) (w : PatchState) : Prop where
  capacities : w.graph.spec.resourceCapacities = (s.graph.getD .zero).spec.resourceCapacities
  superseded : ∀ nodeId ∈ w.superseded, ∀ attempt, s.latestAttempt nodeId = some attempt →
    activeResourceIDs s attempt.id = []

open PatchState in
/-- Every operation of a patch keeps this. -/
theorem PatchState.Careful.apply
    {s : State} {w w' : PatchState} {operation : PatchOperation} (careful : w.Careful s)
    (h : PatchState.apply s w operation = .ok w') :
  w'.Careful s
  := by
  cases operation with
  | supersedeNode nodeId node =>
      simp only [PatchState.apply, supersedeNode, bind_eq_ok, need_eq_ok, check_eq_ok,
        Except.ok.injEq, Option.all_eq_true] at h
      obtain ⟨node, -, _, -, _, -, _, idle, rfl⟩ := h
      refine ⟨careful.capacities, ?_⟩
      intro nodeId' mem attempt last
      rcases List.mem_append.mp mem with mem | mem
      · exact careful.superseded nodeId' mem attempt last
      · obtain rfl := List.mem_singleton.mp mem
        simpa using idle attempt last
  | unsupported op => simp [PatchState.apply] at h
  | addLane | updateLane | addGroup | updateGroup | addRole | updateRole | addNode | removeNode
  | removeEdge =>
      simp only [PatchState.apply, addLane, updateLane, addGroup, updateGroup, addRole, updateRole,
        addNode, removeNode, removeEdge, bind_eq_ok, Except.ok.injEq] at h
      obtain ⟨_, -, _, -, rfl⟩ := h
      exact ⟨careful.capacities, careful.superseded⟩
  | removeLane | removeGroup | removeRole | updateNode | moveNodeToGroup | addEdge =>
      simp only [PatchState.apply, removeLane, removeGroup, removeRole, updateNode,
        moveNodeToGroup, addEdge, bind_eq_ok, Except.ok.injEq] at h
      obtain ⟨_, -, _, -, _, -, rfl⟩ := h
      exact ⟨careful.capacities, careful.superseded⟩

/-- An attempt without active resource ids has no active resource. -/
theorem State.noActive_of_activeResourceIDs
    {s : State} {attemptId : String} (none_ : activeResourceIDs s attemptId = []) :
  s.NoActive attemptId
  := by
  intro id lease known own active
  have listed : lease.id ∈ activeResourceIDs s attemptId := by
    simp only [activeResourceIDs, sortTexts, List.mem_insertionSort, List.mem_map, List.mem_filter]
    exact ⟨lease, ⟨Table.mem_values_iff.mpr ⟨id, known⟩, by simp [own, active]⟩, rfl⟩
  rw [none_] at listed
  simp at listed

/-- An accepted patch keeps the capacities and supersedes only nodes without active resources. -/
theorem applyGraphPatch_careful
    {p : Platform} {s : State} {patch : GraphPatch} {graph : GraphDefinition}
    {impact : GraphImpact} {superseded : List String}
    (patched : applyGraphPatch p s patch = .ok (graph, impact, superseded)) :
  graph.spec.resourceCapacities = (s.graph.getD .zero).spec.resourceCapacities ∧
    ∀ nodeId ∈ superseded, ∀ attempt, s.latestAttempt nodeId = some attempt →
      s.NoActive attempt.id
  := by
  obtain ⟨w, run, -, rfl, rfl⟩ := applyGraphPatch_ok patched
  have careful : w.Careful s := by
    refine foldlM_invariant (fun w : PatchState => w.Careful s) ?_ ⟨rfl, by simp⟩ run
    intro w operation w' _ careful applied
    exact careful.apply applied
  refine ⟨careful.capacities, ?_⟩
  intro nodeId mem attempt last
  exact State.noActive_of_activeResourceIDs (careful.superseded nodeId mem attempt last)

/-! ### Starts -/

/-- The lease of an event that leases a resource. -/
def Event.lease? : Event → Option ResourceLease
  | .resourceLeased lease => some lease
  | _ => none

/-- Write leases into a table. -/
def leaseAll (t : Table ResourceLease) (leases : List ResourceLease) : Table ResourceLease :=
  leases.foldl (fun t lease => t.insert lease.id lease) t

/-- Plain events and leases write the leases they carry. -/
theorem resources_of_leases
    {p : Platform} {n : Nat} {at_ : Stamp} {events : List Event} {s s' : State}
    (each : ∀ event ∈ events, event.isPlain = true ∨ ∃ lease, event = .resourceLeased lease)
    (h : events.foldlM (State.applyEvent p n at_) s = .ok s') :
  s'.graph = s.graph ∧ s'.resources = leaseAll s.resources (events.filterMap Event.lease?)
  := by
  induction events generalizing s with
  | nil =>
      obtain rfl : s = s' := by simpa using h
      exact ⟨rfl, rfl⟩
  | cons event rest ih =>
      rw [List.foldlM_cons, bind_eq_ok] at h
      obtain ⟨s₁, first, others⟩ := h
      rw [List.forall_mem_cons] at each
      obtain ⟨graph, resources⟩ := ih each.2 others
      have frame := State.applyEvent_frame first
      rcases each.1 with plain | ⟨lease, rfl⟩
      · have keeps : event.replacesGraph = false ∧ event.writesResources = false ∧
            event.lease? = none := by
          cases event <;> first | exact ⟨rfl, rfl, rfl⟩ | simp [Event.isPlain] at plain
        rw [graph, resources, (frame.graph keeps.1).1, frame.resources keeps.2.1,
          List.filterMap_cons_none keeps.2.2]
        exact ⟨rfl, rfl⟩
      · obtain rfl := Except.ok.inj first
        rw [graph, resources]
        exact ⟨rfl, rfl⟩

/-- New leases are the only ones that are added. -/
theorem has_leaseAll
    {t : Table ResourceLease} {leases : List ResourceLease} {id : String}
    (old : t.has id = false) (other : id ∉ leases.map ResourceLease.id) :
  (leaseAll t leases).has id = false
  := by
  induction leases generalizing t with
  | nil => exact old
  | cons lease rest ih =>
      simp only [List.map_cons, List.mem_cons, not_or] at other
      refine ih ?_ other.2
      simp [old, other.1]

/-- New leases of other kinds take nothing of a kind. -/
theorem leasedOf_leaseAll
    {t : Table ResourceLease} {leases : List ResourceLease} {kind : String}
    (new : ∀ lease ∈ leases, t.has lease.id = false)
    (unique : (leases.map ResourceLease.id).Nodup)
    (other : kind ∉ leases.map ResourceLease.kind) :
  leasedOf kind (leaseAll t leases).values = leasedOf kind t.values
  := by
  induction leases generalizing t with
  | nil => rfl
  | cons lease rest ih =>
      simp only [List.map_cons, List.mem_cons, not_or, List.nodup_cons] at other unique
      rw [List.forall_mem_cons] at new
      have nothing : lease.takes kind = 0 := by
        simp [ResourceLease.takes, Ne.symm other.1]
      have step := ih (t := t.insert lease.id lease) ?_ unique.2 other.2
      · rw [leaseAll, List.foldl_cons]
        refine step.trans ?_
        rw [leasedOf_insert_new new.1, nothing, Int.zero_add]
      · intro next mem
        have apart : next.id ≠ lease.id := by
          intro same
          exact unique.1 (same ▸ List.mem_map_of_mem mem)
        simp [apart, new.2 next mem]

/-- The lease that a start takes for a request of its node. -/
def startLease (ref : ActionRef) (node : NodeDefinition) (attemptId : String) (env : Env)
    (now : Instant) (request : ResourceRequest × Nat) : ResourceLease where
  id := env.newID (request.2 + 2)
  kind := request.1.kind
  quantity := request.1.quantity
  nodeId := node.id
  attemptId := attemptId
  roleId := ref.roleId
  status := .active
  closureStatus := .pending
  leasedAt := .utc now

/-- The leases of a start are those for the requests of its node. -/
theorem startLeases_eq
    (ref : ActionRef) (node : NodeDefinition) (attemptId : String) (env : Env) (now : Instant) :
  startLeases ref node attemptId env now =
    (node.resources.zipIdx.map (startLease ref node attemptId env now)).map .resourceLeased
  := by
  simp [startLeases, startLease]

/-- The requests of a node of a valid graph are for kinds of their own and positive. -/
theorem GraphDefinition.Valid.requests
    {g : GraphDefinition} (valid : g.Valid) {node : NodeDefinition} (mem : node ∈ g.spec.nodes) :
  (∀ request ∈ node.resources, 0 < request.quantity) ∧
    (node.resources.map ResourceRequest.kind).Nodup
  := by
  have passed := valid.nodes node mem
  simp only [validateNode, validateResources, bind_eq_ok, check_eq_ok, Bool.and_eq_true,
    List.all_eq_true, decide_eq_true_eq] at passed
  obtain ⟨_, -, _, -, _, -, _, -, _, -, _, -, _, -, _, -, _, -, _, -, _, -, _, ⟨positive, unique⟩, -⟩ :=
    passed
  exact ⟨fun request mem => (positive request mem).2, unique⟩

/-- The last declared capacity of a kind in a valid graph is the first one. -/
theorem GraphDefinition.Valid.last_capacity
    {g : GraphDefinition} (valid : g.Valid) (kind : String) :
  (g.spec.resourceCapacities.reverse.find? fun c => c.kind = kind) =
    g.spec.resourceCapacities.find? fun c => c.kind = kind
  := by
  have capacities := valid.capacities
  simp only [validateCapacities, check_eq_ok, Bool.and_eq_true, decide_eq_true_eq] at capacities
  have unique := capacities.2
  generalize g.spec.resourceCapacities = all at unique
  induction all with
  | nil => rfl
  | cons c rest ih =>
      simp only [List.map_cons, List.nodup_cons, List.mem_map, not_exists, not_and] at unique
      rw [List.reverse_cons, List.find?_append, ih unique.2]
      by_cases here : c.kind = kind
      · have later : (rest.find? fun c => c.kind = kind) = none := by
          rw [List.find?_eq_none]
          intro c' mem same
          exact unique.1 c' mem (by simpa [here] using same)
        simp [here, later]
      · rw [List.find?_cons_of_neg (by simpa using here), List.find?_cons_of_neg (by simpa using here)]
        simp

/-- A ready node has room for each of its requests. -/
theorem room_of_ready
    {s : State} {g : GraphDefinition} {node : NodeDefinition} (valid : g.Valid)
    (graph : s.graph = some g) (mem : node ∈ g.spec.nodes)
    (ready : node.id ∈ (computeFrontier s).ready) :
  ∀ request ∈ node.resources,
    s.leasedQuantity request.kind + request.quantity ≤ Lifecycle.resourceCapacity s request.kind
  := by
  intro request listed
  obtain ⟨node', mem', same, -, -, -, fits⟩ := (mem_ready graph).mp ready
  obtain rfl : node' = node :=
    List.inj_on_of_nodup_map valid.nodesUnique mem' mem same
  simp only [State.resourcesReady, List.all_eq_true, decide_eq_true_eq] at fits
  have fit := fits request listed
  simp only [State.availableResourceCapacity, graph, valid.last_capacity] at fit
  simp only [Lifecycle.resourceCapacity, graph, GraphSpec.capacity]
  cases found : g.spec.resourceCapacities.find? fun c => c.kind = request.kind with
  | none =>
      simp only [found] at fit
      simp only
      omega
  | some c =>
      simp only [found] at fit
      simp only
      omega

/-- The leases of a start are sanctioned. -/
theorem sanctioned_of_start
    {p : Platform} {n : Nat} {at_ : Stamp} {s s₁ : State} {env : Env} {ref : ActionRef}
    {node : NodeDefinition} {attempt : Attempt} {now : Instant} {action : ActionRecord}
    {before after : List Event} {event : Event}
    (valid : ∀ g, s.graph = some g → g.Valid) (fresh : env.Fresh s)
    (declared : s.nodeDefinition node.id = some node)
    (ready : node.id ∈ (computeFrontier s).ready)
    (split : .attemptLeased attempt :: .attemptStatusChanged attempt.id .running (.utc now)
      :: startLeases ref node attempt.id env now ++ [.actionApplied action]
      = before ++ event :: after)
    (reached : before.foldlM (State.applyEvent p n at_) s = .ok s₁) (batch : List Event) :
  event.Sanctioned batch s₁
  := by
  rw [startLeases_eq] at split
  let leases := node.resources.zipIdx.map (startLease ref node attempt.id env now)
  have each : ∀ e ∈ before ++ event :: after,
      e.isPlain = true ∨ ∃ lease, e = .resourceLeased lease := by
    rw [← split]
    intro e mem
    simp only [List.cons_append, List.mem_cons, List.mem_append, List.mem_map, List.not_mem_nil,
      or_false] at mem
    rcases mem with rfl | rfl | ⟨lease, -, rfl⟩ | rfl
    · exact Or.inl rfl
    · exact Or.inl rfl
    · exact Or.inr ⟨lease, rfl⟩
    · exact Or.inl rfl
  rcases each event (by simp) with plain | ⟨lease, rfl⟩
  · cases event <;> trivial
  -- the leases before this one are the first ones of the node
  have carried : leases = before.filterMap Event.lease? ++ lease :: after.filterMap Event.lease? := by
    have all := congrArg (List.filterMap Event.lease?) split
    simp only [List.cons_append, List.filterMap_append, List.filterMap_cons, Event.lease?,
      List.filterMap_nil, List.append_nil] at all
    rw [← all, List.filterMap_map]
    exact (List.filterMap_some).symm
  obtain ⟨graph, resources⟩ :=
    resources_of_leases (fun e mem => each e (List.mem_append_left _ mem)) reached
  obtain ⟨-, g, graph', mem⟩ := State.nodeDefinition_some declared
  obtain ⟨positive, kinds⟩ := (valid g graph').requests mem
  -- ids and kinds of the leases are their own
  have idsUnique : (leases.map ResourceLease.id).Nodup := by
    have eq : leases.map ResourceLease.id =
        (node.resources.zipIdx.map Prod.snd).map fun i => env.newID (i + 2) := by
      rw [List.map_map, List.map_map]
      rfl
    rw [eq]
    refine List.Nodup.map ?_ ?_
    · intro i j same
      have := fresh.distinct same
      omega
    · simp [List.nodup_range']
  have kindsUnique : (leases.map ResourceLease.kind).Nodup := by
    have eq : leases.map ResourceLease.kind =
        (node.resources.zipIdx.map Prod.fst).map ResourceRequest.kind := by
      rw [List.map_map, List.map_map]
      rfl
    rw [eq]
    simpa using kinds
  rw [carried] at idsUnique kindsUnique
  simp only [List.map_append, List.map_cons] at idsUnique kindsUnique
  have idNew := (List.nodup_append.mp idsUnique).2.2
  have kindNew := (List.nodup_append.mp kindsUnique).2.2
  have listed : lease ∈ leases := by simp [carried]
  obtain ⟨⟨request, i⟩, mem', rfl⟩ := List.mem_map.mp listed
  have asked : request ∈ node.resources := List.fst_mem_of_mem_zipIdx mem'
  have unused : ∀ lease ∈ leases, s.resources.has lease.id = false := by
    intro lease mem
    obtain ⟨⟨_, j⟩, -, rfl⟩ := List.mem_map.mp mem
    have free := fresh.unused (j + 2)
    simp only [State.names, Bool.or_eq_false_iff] at free
    exact free.2
  refine ⟨?_, rfl, positive request asked, ?_⟩
  · rw [resources]
    apply has_leaseAll (unused _ listed)
    intro known
    exact idNew _ known _ (by simp) rfl
  · have room := room_of_ready (valid g graph') graph' mem ready request asked
    rw [State.leasedQuantity_eq] at room ⊢
    rw [resources, leasedOf_leaseAll]
    · simp only [Lifecycle.resourceCapacity, graph] at room ⊢
      exact room
    · intro lease mem
      exact unused lease (by rw [carried]; simp [mem])
    · exact (List.nodup_append.mp idsUnique).1
    · intro known
      exact kindNew _ known _ (by simp) rfl

/-! ### Closures -/

/-- A release follows a closure only if it is confirmed. -/
theorem released_mem_closureEvents
    {s : State} {resource : ResourceLease} {status : ClosureStatus} {now : Instant} {id : String}
    {releasedAt : Stamp} (mem : .resourceReleased id releasedAt ∈ closureEvents s resource status now) :
  id = resource.id ∧ status = .confirmed
  := by
  simp only [closureEvents] at mem
  split at mem
  · rename_i confirmed
    refine ⟨?_, confirmed⟩
    rcases List.mem_cons.mp mem with same | mem
    · cases same
      rfl
    · split at mem <;> simp at mem
  · split at mem <;> simp at mem

/-- The events of a closure are sanctioned. -/
theorem sanctioned_of_closure
    {s s₁ : State} {resource : ResourceLease} {status : ClosureStatus} {receipt : Option Json}
    {now : Instant} {action : ActionRecord} {event : Event}
    (mem : event ∈ .resourceClosureObserved resource.id status receipt (.utc now)
      :: closureEvents s resource status now ++ [.actionApplied action]) :
  event.Sanctioned (.resourceClosureObserved resource.id status receipt (.utc now)
    :: closureEvents s resource status now ++ [.actionApplied action]) s₁
  := by
  simp only [List.cons_append, List.mem_cons, List.mem_append, List.not_mem_nil, or_false] at mem
  rcases mem with rfl | mem | rfl
  · trivial
  · rcases mem_closureEvents mem with rfl | rfl | rfl | rfl
    · obtain ⟨-, rfl⟩ := released_mem_closureEvents mem
      exact ⟨receipt, .utc now, by simp⟩
    · trivial
    · trivial
    · trivial
  · trivial

/-! ### Imported histories -/

/-- The closure of a resource has the status. -/
def State.ClosureIs (s : State) (id : String) (status : ClosureStatus) : Prop :=
  ∃ lease, s.resources.lookup id = some lease ∧ lease.closureStatus = status

namespace Lifecycle

variable {p : Platform} {c c' : LifecycleRecordContext} {s t : State} {occurredAt : Stamp}

/-- Leases and attempts stay filed under the events the second interpreter accepts. -/
theorem applyValidatedLifecycleEvent_runsFiled
    {source : LifecycleMigrationEvent} {event : Event} (filed : Filed s) (runs : RunsFiled s)
    (h : applyValidatedLifecycleEvent p c s occurredAt source event = .ok (c', t)) :
  RunsFiled t
  := by
  obtain ⟨r, applied, same⟩ := applyValidatedLifecycleEvent_refines filed 0 .unset h
  have filed' := State.applyEvent_runsFiled runs applied
  have resources : r.resources = t.resources := by
    simpa using congrArg State.resources same
  have attempts : r.attempts = t.attempts := by
    simpa using congrArg State.attempts same
  exact ⟨resources ▸ filed'.resources, attempts ▸ filed'.attempts⟩

/-- A closure becomes confirmed by its observation only. -/
theorem confirmed_of_applied
    {source : LifecycleMigrationEvent} {event : Event} (filed : Filed s) (runs : RunsFiled s)
    (h : applyValidatedLifecycleEvent p c s occurredAt source event = .ok (c', t)) {id : String}
    (confirmed : t.ClosureIs id .confirmed) :
  s.ClosureIs id .confirmed ∨
    ∃ receipt at_, event = .resourceClosureObserved id .confirmed receipt at_
  := by
  obtain ⟨lease, known, confirmed⟩ := confirmed
  obtain ⟨r, applied, same⟩ := applyValidatedLifecycleEvent_refines filed 0 .unset h
  have resources : r.resources = t.resources := by
    simpa using congrArg State.resources same
  have frame := State.applyEvent_frame applied
  simp only [applyValidatedLifecycleEvent] at h
  cases event with
  | resourceLeased new =>
      obtain ⟨⟨-, -, pending, -, -⟩, rfl⟩ := leaseResource_ok h
      left
      rw [Table.lookup_insert] at known
      split at known
      · obtain rfl := Option.some.inj known
        rw [confirmed] at pending
        exact absurd pending (by decide)
      · exact ⟨lease, known, confirmed⟩
  | resourceClosureObserved resourceId status receipt updatedAt =>
      obtain ⟨seen, known', -, rfl⟩ := State.observeClosure_ok (observeClosure_ok h)
      rw [Table.lookup_insert] at known
      split at known
      · rename_i own
        obtain rfl := Option.some.inj known
        rw [own, runs.resources resourceId seen known', ← confirmed]
        exact Or.inr ⟨receipt, updatedAt, rfl⟩
      · exact Or.inl ⟨lease, known, confirmed⟩
  | resourceReleased resourceId releasedAt =>
      obtain ⟨closed, known', -, rfl⟩ := State.releaseResource_ok (releaseResource_ok h).2
      left
      rw [Table.lookup_insert] at known
      split at known
      · rename_i own
        obtain rfl := Option.some.inj known
        rw [own, runs.resources resourceId closed known']
        exact ⟨closed, known', confirmed⟩
      · exact ⟨lease, known, confirmed⟩
  | graphImported | graphRevised => simp at h
  | _ =>
      left
      rw [← resources, frame.resources rfl] at known
      exact ⟨lease, known, confirmed⟩

/-- A closure that is confirmed behind a history was confirmed before, or the history has its
observation. -/
theorem Simulates.confirmed
    {a a' : Table Unit} {s s' : State} {events : List LifecycleMigrationEvent}
    (all : Simulates p a s events a' s') (filed : Filed s) (runs : RunsFiled s)
    (faithful : ∀ event ∈ events, event.stored = event.read) {id : String}
    (confirmed : s'.ClosureIs id .confirmed) :
  s.ClosureIs id .confirmed ∨ ∃ receipt at_,
    .resourceClosureObserved id .confirmed receipt at_ ∈
      events.map LifecycleMigrationEvent.committed
  := by
  induction all with
  | nil => exact Or.inl confirmed
  | cons ledger read applied _ ih =>
      rcases ih (applyValidatedLifecycleEvent_filed filed applied)
        (applyValidatedLifecycleEvent_runsFiled filed runs applied)
        (fun event mem => faithful event (by simp [mem])) confirmed with here | ⟨receipt, at_, later⟩
      · rcases confirmed_of_applied filed runs applied here with before | ⟨receipt, at_, rfl⟩
        · exact Or.inl before
        · have first := committed_of_read (faithful _ (by simp)) read
          exact Or.inr ⟨receipt, at_, by rw [List.map_cons, first]; exact List.mem_cons_self⟩
      · exact Or.inr ⟨receipt, at_, List.mem_cons_of_mem _ later⟩

end Lifecycle

/-- The events of an imported history that reads from the journal as the importer read it are
sanctioned. -/
theorem sanctioned_of_import
    {p : Platform} {n : Nat} {at_ : Stamp} {s s₁ : State} {segments : List Segment}
    {manifest : LifecycleMigrationManifest} {valid : LifecycleValidation}
    {receipt : LifecycleMigrationReceipt} {before after : List Event} {event : Event}
    (admitted : valid.Admitted p s segments manifest)
    (faithful : ∀ event ∈ valid.events, event.stored = event.read)
    (split : .lifecycleHistoryImported receipt
      :: valid.events.map LifecycleMigrationEvent.committed = before ++ event :: after)
    (reached : before.foldlM (State.applyEvent p n at_) s = .ok s₁) :
  event.Sanctioned (before ++ event :: after) s₁
  := by
  cases before with
  | nil =>
      obtain ⟨rfl, -⟩ := List.cons.inj split
      trivial
  | cons first before =>
      obtain ⟨rfl, divided⟩ := List.cons.inj split
      obtain ⟨front, back, together, rfl, rest⟩ := List.map_eq_append_iff.mp divided
      obtain ⟨given, back, rfl, rfl, rfl⟩ := List.map_eq_cons_iff.mp rest
      obtain ⟨⟨_, simulates⟩, -⟩ := Lifecycle.simulates_of_sequence admitted.simulated
      rw [← admitted.events, together] at simulates
      rw [together] at faithful
      have faithful₁ : ∀ event ∈ front, event.stored = event.read :=
        fun event mem => faithful event (by simp [mem])
      have filed := Lifecycle.filed_of_pristine admitted.pristine
      have runs : RunsFiled s := by
        constructor
        · simp [AList.lookup, admitted.pristine.resources]
        · simp [AList.lookup, admitted.pristine.attempts]
      obtain ⟨a, t, first, second⟩ := simulates.split
      -- the state is the one the second interpreter has reached
      rw [List.foldlM_cons, bind_eq_ok] at reached
      obtain ⟨s₀, taken, reached⟩ := reached
      have same₀ : s₀.content = s.content := by
        obtain ⟨-, rfl⟩ := State.importHistory_ok taken
        rfl
      obtain ⟨r, replayed, same, -⟩ :=
        first.replays n at_ filed same₀ faithful₁
      obtain rfl : r = s₁ := Except.ok.inj (replayed.symm.trans reached)
      have resources : r.resources = t.resources := by
        simpa using congrArg State.resources same
      have graph : r.graph = t.graph := by
        simpa using congrArg State.graph same
      cases second with
      | @cons c c' _ _ _ _ _ occurredAt _ value _ ledger read applied next =>
          rw [Lifecycle.committed_of_read (faithful given (by simp)) read]
          simp only [Lifecycle.applyValidatedLifecycleEvent] at applied
          cases value with
          | resourceLeased lease =>
              obtain ⟨⟨fresh, active, -, positive, room⟩, -⟩ := Lifecycle.leaseResource_ok applied
              rw [State.leasedQuantity_eq] at room
              refine ⟨by rw [resources]; exact fresh, active, positive, ?_⟩
              rw [State.leasedQuantity_eq]
              simp only [Lifecycle.resourceCapacity, resources, graph] at room ⊢
              exact room
          | resourceReleased id releasedAt =>
              obtain ⟨⟨lease, known, confirmed⟩, -⟩ := Lifecycle.releaseResource_ok applied
              rcases first.confirmed filed runs faithful₁ ⟨lease, known, confirmed⟩ with
                ⟨lease', known', -⟩ | ⟨receipt, at_, observed⟩
              · simp [AList.lookup, admitted.pristine.resources] at known'
              · exact ⟨receipt, at_, by simp [observed]⟩
          | graphImported | graphRevised => simp at applied
          | _ => trivial

end Dagrail
