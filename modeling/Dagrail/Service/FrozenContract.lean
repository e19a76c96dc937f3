import Dagrail.Service.GraphChange

/-!
# Frozen contracts

A node that is no longer planned has a contract others rely on: its definition and the edges that
lead to it. Every operation of a patch but one leaves the contracts of such nodes alone. The
exception is the removal of a planned node, which takes its outgoing edges with it, whatever they
lead to. A patch therefore keeps all frozen contracts exactly when it removes no node with an edge
to a frozen one.
-/

namespace Dagrail

/-- A node definition without its group. -/
def NodeDefinition.withoutGroup (node : NodeDefinition) : NodeDefinition :=
  { node with groupId := "" }

/-- The node is declared in the graph and no longer planned. -/
def Frozen (s : State) (g : GraphDefinition) (nodeId : String) : Prop :=
  g.hasNode nodeId = true ∧ (s.nodes.get nodeId).status ≠ .planned

/-- The node is still declared as before, up to its group, and has the same incoming edges. -/
def ContractKept (g g' : GraphDefinition) (nodeId : String) : Prop :=
  (∃ node node', g.nodeDefinition nodeId = some node ∧ g'.nodeDefinition nodeId = some node' ∧
      node'.withoutGroup = node.withoutGroup) ∧
    ∀ edge, edge ∈ g'.incoming nodeId ↔ edge ∈ g.incoming nodeId

/-- Every frozen contract of the graph is kept. -/
def FrozenContractsKept (s : State) (g' : GraphDefinition) : Prop :=
  ∀ g, s.graph = some g → ∀ nodeId, Frozen s g nodeId → ContractKept g g' nodeId

/-- The patch removes a node with an edge to a frozen one. -/
def RemovesFrozenSource (s : State) (patch : GraphPatch) : Prop :=
  ∃ g, s.graph = some g ∧ ∃ nodeId, PatchOperation.removeNode nodeId ∈ patch.operations ∧
    ∃ edge ∈ g.spec.edges, edge.source = nodeId ∧ Frozen s g edge.target

/-! ### What one operation leaves alone -/

/-- The declarations of a node in a graph, up to groups. -/
def contracts (g : GraphDefinition) (nodeId : String) : List NodeDefinition :=
  (g.spec.nodes.filter fun node => node.id = nodeId).map NodeDefinition.withoutGroup

/-- A declared node has a declaration. -/
theorem contracts_ne_nil
    {g : GraphDefinition} {nodeId : String} :
  contracts g nodeId ≠ [] ↔ g.hasNode nodeId = true
  := by
  simp [contracts, GraphDefinition.hasNode, List.filter_eq_nil_iff]

namespace PatchState

variable {s : State} {w w' : PatchState}

/-- An operation other than the removal of a node keeps the contracts of a frozen node: its
declarations and its incoming edges. -/
theorem apply_keeps
    {op : PatchOperation} {nodeId : String} (known : s.nodes.has nodeId = true)
    (frozen : Frozen s w.graph nodeId) (notRemoval : ∀ id, op ≠ .removeNode id)
    (accepted : apply s w op = .ok w') :
  contracts w'.graph nodeId = contracts w.graph nodeId ∧
    w'.graph.incoming nodeId = w.graph.incoming nodeId
  := by
  obtain ⟨declared, status⟩ := frozen
  -- appending a node with a new id is not seen at a declared one
  have append : ∀ node : NodeDefinition, w.graph.hasNode node.id = false →
      contracts (w.graph.withNodes (w.graph.spec.nodes ++ [node])) nodeId =
        contracts w.graph nodeId := by
    intro node fresh
    have other : node.id ≠ nodeId := by
      rintro rfl
      simp [fresh] at declared
    simp [contracts, GraphDefinition.withNodes, List.filter_append, other]
  cases op with
  | addLane | updateLane | addGroup | updateGroup | addRole | updateRole =>
      simp only [apply, addLane, updateLane, addGroup, updateGroup, addRole, updateRole,
        bind_eq_ok, Except.ok.injEq] at accepted
      obtain ⟨_, -, _, -, rfl⟩ := accepted
      exact ⟨rfl, rfl⟩
  | removeLane | removeGroup | removeRole =>
      simp only [apply, removeLane, removeGroup, removeRole, bind_eq_ok, Except.ok.injEq]
        at accepted
      obtain ⟨_, -, _, -, _, -, rfl⟩ := accepted
      exact ⟨rfl, rfl⟩
  | moveNodeToGroup id groupId =>
      simp only [apply, moveNodeToGroup, bind_eq_ok, Except.ok.injEq] at accepted
      obtain ⟨_, -, _, -, _, -, rfl⟩ := accepted
      refine ⟨?_, rfl⟩
      apply filter_map_updateFirst
      · intro a _
        rfl
      · intro a _ _
        rfl
  | addNode node =>
      simp only [apply, addNode, bind_eq_ok, check_eq_ok, Except.ok.injEq, Bool.not_eq_true']
        at accepted
      obtain ⟨node, -, _, fresh, rfl⟩ := accepted
      exact ⟨append node fresh, rfl⟩
  | updateNode node =>
      simp only [apply, updateNode, bind_eq_ok, check_eq_ok, Except.ok.injEq, decide_eq_true_eq]
        at accepted
      obtain ⟨node, -, _, -, _, planned, rfl⟩ := accepted
      have other : node.id ≠ nodeId := by
        rintro rfl
        exact status planned
      refine ⟨?_, rfl⟩
      apply filter_map_updateFirst
      · intro a found
        have same : a.id = node.id := by simpa using found
        simp [same]
      · intro a found visible
        have same : a.id = node.id := by simpa using found
        have there : a.id = nodeId := by simpa using visible
        exact absurd (same.symm.trans there) other
  | removeNode id => exact absurd rfl (notRemoval id)
  | addEdge edge =>
      simp only [apply, addEdge, bind_eq_ok, forbid_eq_ok, Except.ok.injEq] at accepted
      obtain ⟨edge, -, _, -, _, open_, rfl⟩ := accepted
      have other : edge.target ≠ nodeId := by
        rintro rfl
        obtain ⟨runtime, found⟩ := Table.has_iff.mp known
        rw [Table.get_of_lookup found] at status
        simp [found, status] at open_
      refine ⟨rfl, ?_⟩
      simp [GraphDefinition.incoming, GraphDefinition.withEdges, List.filter_append, other]
  | removeEdge edgeId =>
      simp only [apply, removeEdge, bind_eq_ok, need_eq_ok, check_eq_ok, Except.ok.injEq,
        decide_eq_true_eq] at accepted
      obtain ⟨edge, found, _, planned, rfl⟩ := accepted
      have other : edge.target ≠ nodeId := by
        rintro rfl
        exact status planned
      refine ⟨rfl, ?_⟩
      apply filter_eraseP_of_find? found
      simp [other]
  | supersedeNode id node =>
      simp only [apply, supersedeNode, bind_eq_ok, check_eq_ok, Except.ok.injEq,
        Bool.not_eq_true'] at accepted
      obtain ⟨node, -, _, -, _, fresh, _, -, rfl⟩ := accepted
      exact ⟨append { node with supersedes := id } fresh, rfl⟩
  | unsupported => simp [apply] at accepted

/-- The removal of a node is about a planned node and takes its edges along. -/
theorem removeNode_ok
    {id : String} (accepted : w.removeNode s id = .ok w') :
  (s.nodes.get id).status = .planned ∧
    w'.graph.spec.nodes = w.graph.spec.nodes.eraseP (fun node => node.id = id) ∧
    w'.graph.spec.edges =
      w.graph.spec.edges.filter fun edge => !(edge.source = id || edge.target = id)
  := by
  simp only [removeNode, bind_eq_ok, check_eq_ok, Except.ok.injEq, decide_eq_true_eq] at accepted
  obtain ⟨_, -, _, planned, rfl⟩ := accepted
  exact ⟨planned, rfl, rfl⟩

/-- The removal of another node keeps the declarations of a frozen node. -/
theorem removeNode_contracts
    {id nodeId : String} (frozen : Frozen s w.graph nodeId)
    (accepted : w.removeNode s id = .ok w') :
  contracts w'.graph nodeId = contracts w.graph nodeId
  := by
  obtain ⟨planned, nodes, -⟩ := removeNode_ok accepted
  have other : id ≠ nodeId := by
    rintro rfl
    exact frozen.2 planned
  unfold contracts
  rw [nodes]
  cases found : w.graph.spec.nodes.find? fun node => node.id = id with
  | none =>
      rw [List.eraseP_of_forall_not]
      intro node mem
      exact List.find?_eq_none.mp found node mem
  | some node =>
      rw [filter_eraseP_of_find? found]
      have same : node.id = id := by simpa using List.find?_some found
      simp [same, other]

/-- The removal of a node that has no edge to a frozen node keeps its incoming edges. -/
theorem removeNode_incoming
    {id nodeId : String} (frozen : Frozen s w.graph nodeId)
    (accepted : w.removeNode s id = .ok w')
    (noEdge : ∀ edge ∈ w.graph.incoming nodeId, edge.source ≠ id) :
  w'.graph.incoming nodeId = w.graph.incoming nodeId
  := by
  obtain ⟨planned, -, edges⟩ := removeNode_ok accepted
  have other : nodeId ≠ id := by
    rintro rfl
    exact frozen.2 planned
  unfold GraphDefinition.incoming
  rw [edges, List.filter_filter]
  apply List.filter_congr
  intro edge mem
  by_cases there : edge.target = nodeId
  · have source := noEdge edge (by simp [GraphDefinition.incoming, mem, there])
    simp [there, source, other]
  · simp [there]

/-- Every operation keeps the declarations of a frozen node. -/
theorem apply_contracts
    {op : PatchOperation} {nodeId : String} (known : s.nodes.has nodeId = true)
    (frozen : Frozen s w.graph nodeId) (accepted : apply s w op = .ok w') :
  contracts w'.graph nodeId = contracts w.graph nodeId
  := by
  by_cases removal : ∃ id, op = .removeNode id
  · obtain ⟨id, rfl⟩ := removal
    exact removeNode_contracts frozen accepted
  · push Not at removal
    exact (apply_keeps known frozen removal accepted).1

/-- A frozen node stays declared through every operation. -/
theorem apply_frozen
    {op : PatchOperation} {nodeId : String} (known : s.nodes.has nodeId = true)
    (frozen : Frozen s w.graph nodeId) (accepted : apply s w op = .ok w') :
  Frozen s w'.graph nodeId
  := by
  refine ⟨?_, frozen.2⟩
  rw [← contracts_ne_nil, apply_contracts known frozen accepted, contracts_ne_nil]
  exact frozen.1

/-! ### What a run of operations leaves alone -/

/-- The declarations of a frozen node survive every run of operations. -/
theorem run_contracts
    {operations : List PatchOperation} {nodeId : String} (known : s.nodes.has nodeId = true)
    (frozen : Frozen s w.graph nodeId)
    (accepted : operations.foldlM (apply s) w = .ok w') :
  contracts w'.graph nodeId = contracts w.graph nodeId
  := by
  refine (foldlM_invariant
    (fun x : PatchState => Frozen s x.graph nodeId ∧
      contracts x.graph nodeId = contracts w.graph nodeId) ?_ ⟨frozen, rfl⟩ accepted).2
  rintro x op x' _ ⟨frozenHere, same⟩ step
  refine ⟨apply_frozen known frozenHere step, ?_⟩
  rw [apply_contracts known frozenHere step, same]

/-- A frozen node stays declared through every run of operations. -/
theorem run_frozen
    {operations : List PatchOperation} {nodeId : String} (known : s.nodes.has nodeId = true)
    (frozen : Frozen s w.graph nodeId)
    (accepted : operations.foldlM (apply s) w = .ok w') :
  Frozen s w'.graph nodeId
  := by
  refine ⟨?_, frozen.2⟩
  rw [← contracts_ne_nil, run_contracts known frozen accepted, contracts_ne_nil]
  exact frozen.1

/-- A run that removes no source of an edge to a frozen node keeps its incoming edges. -/
theorem run_incoming
    {operations : List PatchOperation} {nodeId : String} (known : s.nodes.has nodeId = true)
    (frozen : Frozen s w.graph nodeId)
    (noEdge : ∀ id, PatchOperation.removeNode id ∈ operations →
      ∀ edge ∈ w.graph.incoming nodeId, edge.source ≠ id)
    (accepted : operations.foldlM (apply s) w = .ok w') :
  w'.graph.incoming nodeId = w.graph.incoming nodeId
  := by
  refine (foldlM_invariant
    (fun x : PatchState => Frozen s x.graph nodeId ∧
      x.graph.incoming nodeId = w.graph.incoming nodeId) ?_ ⟨frozen, rfl⟩ accepted).2
  rintro x op x' mem ⟨frozenHere, same⟩ step
  refine ⟨apply_frozen known frozenHere step, ?_⟩
  rw [← same]
  by_cases removal : ∃ id, op = .removeNode id
  · obtain ⟨id, rfl⟩ := removal
    apply removeNode_incoming frozenHere step
    rw [same]
    exact noEdge id mem
  · push Not at removal
    exact (apply_keeps known frozenHere removal step).2

/-- An edge between two given nodes, the second one frozen, does not come back once it is gone. -/
theorem run_noEdge
    {operations : List PatchOperation} {id nodeId : String} (known : s.nodes.has nodeId = true)
    (frozen : Frozen s w.graph nodeId) (gone : ∀ edge ∈ w.graph.incoming nodeId, edge.source ≠ id)
    (accepted : operations.foldlM (apply s) w = .ok w') :
  ∀ edge ∈ w'.graph.incoming nodeId, edge.source ≠ id
  := by
  refine (foldlM_invariant
    (fun x : PatchState => Frozen s x.graph nodeId ∧
      ∀ edge ∈ x.graph.incoming nodeId, edge.source ≠ id) ?_ ⟨frozen, gone⟩ accepted).2
  rintro x op x' mem ⟨frozenHere, goneHere⟩ step
  refine ⟨apply_frozen known frozenHere step, ?_⟩
  by_cases removal : ∃ id, op = .removeNode id
  · obtain ⟨removed, rfl⟩ := removal
    obtain ⟨-, -, edges⟩ := removeNode_ok step
    intro edge there
    apply goneHere
    simp only [GraphDefinition.incoming, List.mem_filter, edges] at there ⊢
    exact ⟨there.1.1, there.2⟩
  · push Not at removal
    rw [(apply_keeps known frozenHere removal step).2]
    exact goneHere

/-- After the removal of a node no edge leads from it to another node. -/
theorem removeNode_noEdge
    {id nodeId : String} (accepted : w.removeNode s id = .ok w') :
  ∀ edge ∈ w'.graph.incoming nodeId, edge.source ≠ id
  := by
  obtain ⟨-, -, edges⟩ := removeNode_ok accepted
  intro edge there
  simp only [GraphDefinition.incoming, List.mem_filter, edges, Bool.not_eq_true',
    Bool.or_eq_false_iff, decide_eq_false_iff_not] at there
  exact there.1.2.1

end PatchState

/-! ### Patches -/

/-- A kept list of declarations is a kept definition. -/
theorem nodeDefinition_of_contracts
    {g g' : GraphDefinition} {nodeId : String} (declared : g.hasNode nodeId = true)
    (same : contracts g' nodeId = contracts g nodeId) :
  ∃ node node', g.nodeDefinition nodeId = some node ∧ g'.nodeDefinition nodeId = some node' ∧
    node'.withoutGroup = node.withoutGroup
  := by
  have first := find?_map_eq same
  obtain ⟨node, found⟩ : ∃ node, g.nodeDefinition nodeId = some node := by
    rw [← Option.isSome_iff_exists]
    simpa [GraphDefinition.nodeDefinition, List.find?_isSome, GraphDefinition.hasNode] using declared
  have mapped : (g'.nodeDefinition nodeId).map NodeDefinition.withoutGroup =
      some node.withoutGroup := by
    rw [GraphDefinition.nodeDefinition, first]
    exact congrArg (Option.map NodeDefinition.withoutGroup) found
  obtain ⟨node', found', eq⟩ := Option.map_eq_some_iff.mp mapped
  exact ⟨node, node', found, found', eq⟩

/-- A declared node of a covered state has a run-time entry. -/
theorem NodesCovered.has
    {s : State} {g : GraphDefinition} {nodeId : String} (covered : NodesCovered s)
    (graph : s.graph = some g) (declared : g.hasNode nodeId = true) :
  s.nodes.has nodeId = true
  := by
  simp only [GraphDefinition.hasNode, List.any_eq_true, decide_eq_true_eq] at declared
  obtain ⟨node, mem, rfl⟩ := declared
  exact covered g graph node mem

/-- A patch accepted in a replayed state keeps every frozen contract exactly when it removes no
node that has an edge to a frozen one. -/
theorem applyGraphPatch_keeps_frozen_iff
    {p : Platform} {s : State} {patch : GraphPatch} {g' : GraphDefinition} {impact : GraphImpact}
    {superseded : List String} (replayable : Replayable p s)
    (accepted : applyGraphPatch p s patch = .ok (g', impact, superseded)) :
  FrozenContractsKept s g' ↔ ¬ RemovesFrozenSource s patch
  := by
  have covered := replayable.nodesCovered
  obtain ⟨w, run, -, rfl, -⟩ := applyGraphPatch_ok accepted
  constructor
  · rintro kept ⟨g, graph, id, removed, edge, mem, rfl, frozen⟩
    have known := covered.has graph frozen.1
    simp only [graph, Option.getD_some] at run
    -- the edge is gone once its source is removed, and no later operation brings it back
    obtain ⟨before, after, split⟩ := List.append_of_mem removed
    rw [split, List.foldlM_append, bind_eq_ok] at run
    obtain ⟨x, runBefore, rest⟩ := run
    rw [List.foldlM_cons, bind_eq_ok] at rest
    obtain ⟨y, removal, runAfter⟩ := rest
    have frozenX := PatchState.run_frozen (w := { graph := g }) known frozen runBefore
    have frozenY := PatchState.apply_frozen known frozenX removal
    have gone := PatchState.run_noEdge known frozenY (PatchState.removeNode_noEdge removal) runAfter
    have there : edge ∈ w.graph.incoming edge.target := by
      rw [(kept g graph edge.target frozen).2]
      simp [GraphDefinition.incoming, mem]
    exact gone edge there rfl
  · intro safe g graph nodeId frozen
    have known := covered.has graph frozen.1
    simp only [graph, Option.getD_some] at run
    constructor
    · exact nodeDefinition_of_contracts frozen.1
        (PatchState.run_contracts (w := { graph := g }) known frozen run)
    · intro edge
      have same : w.graph.incoming nodeId = g.incoming nodeId := by
        apply PatchState.run_incoming (w := { graph := g }) known frozen _ run
        rintro id removed edge there rfl
        simp only [GraphDefinition.incoming, List.mem_filter, decide_eq_true_eq] at there
        apply safe
        refine ⟨g, graph, edge.source, removed, edge, there.1, rfl, ?_⟩
        rw [there.2]
        exact frozen
      rw [same]

/-! ### A removal that breaks a frozen contract -/

namespace TwoSteps

/-- A task of the role `dev`. -/
def task (id : String) : NodeDefinition :=
  { id, kind := .task, role := "dev", outcomes := [{ id := "done", outcomeClass := .success }] }

/-- The edge between the two tasks. -/
def edge : EdgeDefinition :=
  { id := "build-test", source := "build", target := "test", when := { outcome := "done" } }

/-- Two tasks, the second one after the first. -/
def graph : GraphDefinition :=
  { apiVersion := graphAPIVersion
    kind := graphKind
    metadata := { name := "two steps" }
    spec :=
      { roles := [{ id := "dev", capabilities := [.nodeRun, .graphChange] }]
        nodes := [task "build", task "test"]
        edges := [edge] } }

/-- The second task has been superseded by a third one. -/
def revised : GraphDefinition :=
  graph.withNodes (graph.spec.nodes ++ [{ task "check" with supersedes := "test" }])

/-- A journal that imports the graph and supersedes its second task. -/
def journal : List Segment :=
  [{ schemaVersion := 1, sequence := 1, projectId := "p", previousHash := ""
     command := { id := "c1", kind := "graph.import", idempotencyKey := "import" }
     events := [.graphImported graph "r1" ""]
     committedAt := .utc 0, segmentHash := "h1" },
   { schemaVersion := 1, sequence := 2, projectId := "p", previousHash := "h1"
     command := { id := "c2", kind := "graph.change", idempotencyKey := "change" }
     events := [.graphRevised revised "r2" "r1" ["test"] {}]
     committedAt := .utc 1, segmentHash := "h2" }]

/-- The state the journal replays to. -/
def state : State :=
  (reduceSegments Platform.plain "p" journal).toOption.getD (State.new "p")

theorem replayable : Replayable Platform.plain state :=
  ⟨"p", journal, rfl⟩

/-- The graph after the removal of a node. -/
def without (nodeId : String) : GraphDefinition :=
  (revised.withNodes (revised.spec.nodes.eraseP fun node => node.id = nodeId)).withEdges
    (revised.spec.edges.filter fun edge => !(edge.source = nodeId || edge.target = nodeId))

end TwoSteps

open TwoSteps in
/-- The first task is planned and may be removed, and the superseded second one loses its
incoming edge. -/
theorem removal_of_frozen_source_breaks_contract :
  Replayable Platform.plain state ∧ ∃ impact,
    applyGraphPatch Platform.plain state { operations := [.removeNode "build"] } =
      .ok (without "build", impact, []) ∧
    ¬ FrozenContractsKept state (without "build")
  := by
  refine ⟨replayable, _, rfl, ?_⟩
  intro kept
  obtain ⟨-, same⟩ := kept revised rfl "test" ⟨by decide, by decide⟩
  have there : edge ∈ revised.incoming "test" := List.mem_singleton.mpr rfl
  exact absurd ((same _).mpr there) List.not_mem_nil

open TwoSteps in
/-- The removal of the replacement, which has no edges, keeps the contract of the second task. -/
theorem removal_of_replacement_keeps_contract :
  FrozenContractsKept state (without "check")
  := by
  obtain ⟨impact, accepted⟩ : ∃ impact,
      applyGraphPatch Platform.plain state { operations := [.removeNode "check"] } =
        .ok (without "check", impact, []) := ⟨_, rfl⟩
  refine (applyGraphPatch_keeps_frozen_iff replayable accepted).mpr ?_
  rintro ⟨g, found, id, removed, e, mem, source, -⟩
  obtain rfl : revised = g := Option.some.inj found
  obtain rfl : id = "check" := by simpa using removed
  obtain rfl : e = edge := List.mem_singleton.mp mem
  exact absurd source (by decide)

end Dagrail
