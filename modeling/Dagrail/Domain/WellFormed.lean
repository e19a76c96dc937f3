import Dagrail.Foundation.Acyclic
import Dagrail.Domain.Validate

/-!
# Well-formed graphs

What validation establishes: identifiers are unique, references resolve, and the edges, the hierarchy
of nodes and the hierarchy of groups are acyclic. Once the other checks have passed, Kahn's algorithm
refuses exactly the graphs whose edges form a cycle.
-/

namespace Dagrail

/-! ### Relations of a graph -/

namespace GraphSpec

/-- An edge leads from one node to the other. -/
def Leads (spec : GraphSpec) (a b : String) : Prop :=
  ∃ edge ∈ spec.edges, edge.source = a ∧ edge.target = b

/-- The one node has the other as its hierarchy parent. -/
def NodeUnder (spec : GraphSpec) (a b : String) : Prop :=
  b ≠ "" ∧ ∃ node ∈ spec.nodes, node.id = a ∧ node.parent = b

/-- The one group has the other as its parent. -/
def GroupUnder (spec : GraphSpec) (a b : String) : Prop :=
  b ≠ "" ∧ ∃ group ∈ spec.groups, group.id = a ∧ group.parentGroupId = b

/-- A node with the id is declared. -/
def HasNode (spec : GraphSpec) (id : String) : Prop :=
  ∃ node ∈ spec.nodes, node.id = id

/-- A group with the id is declared. -/
def HasGroup (spec : GraphSpec) (id : String) : Prop :=
  ∃ group ∈ spec.groups, group.id = id

/-- A role with the id is declared. -/
def HasRole (spec : GraphSpec) (id : String) : Prop :=
  ∃ role ∈ spec.roles, role.id = id

/-- A lane with the id is built in or declared. -/
def HasLane (spec : GraphSpec) (id : String) : Prop :=
  id ∈ builtinLaneIDs ∨ ∃ lane ∈ spec.lanes, lane.id = id

end GraphSpec

/-- Identifiers are unique, references resolve, and no relation of the graph has a cycle. -/
structure GraphDefinition.WellFormed (g : GraphDefinition) : Prop where
  roleIds : (g.spec.roles.map RoleDefinition.id).Nodup
  providerIds : (g.spec.providers.map ProviderRef.id).Nodup
  laneIds : (g.spec.lanes.map LaneDefinition.id).Nodup
  groupIds : (g.spec.groups.map GroupDefinition.id).Nodup
  nodeIds : (g.spec.nodes.map NodeDefinition.id).Nodup
  edgeIds : (g.spec.edges.map EdgeDefinition.id).Nodup
  sources : ∀ edge ∈ g.spec.edges, g.spec.HasNode edge.source
  targets : ∀ edge ∈ g.spec.edges, g.spec.HasNode edge.target
  nodeRoles : ∀ node ∈ g.spec.nodes, node.role ≠ "" → g.spec.HasRole node.role
  nodeGroups : ∀ node ∈ g.spec.nodes, node.groupId ≠ "" → g.spec.HasGroup node.groupId
  nodeLanes : ∀ node ∈ g.spec.nodes, node.laneId ≠ "" → g.spec.HasLane node.laneId
  nodeParents : ∀ node ∈ g.spec.nodes, node.parent ≠ "" → g.spec.HasNode node.parent
  groupParents : ∀ group ∈ g.spec.groups, group.parentGroupId ≠ "" →
    g.spec.HasGroup group.parentGroupId
  groupLanes : ∀ group ∈ g.spec.groups, group.laneId ≠ "" → g.spec.HasLane group.laneId
  edgesAcyclic : Acyclic g.spec.Leads
  nodesAcyclic : Acyclic g.spec.NodeUnder
  groupsAcyclic : Acyclic g.spec.GroupUnder
  groupDepth : ∀ chain : List String, chain.IsChain g.spec.GroupUnder →
    chain.length ≤ maxGroupDepth

/-! ### The checks before the search for a cycle -/

/-- One edge: its ends are two nodes, and its predicate fits the source. -/
def validateEdge (spec : GraphSpec) (edge : EdgeDefinition) : Fallible Unit := do
  let source ← need (spec.nodes.find? fun node => node.id = edge.source)
    ("edge " ++ edge.id ++ " references an unknown node")
  check ((spec.nodes.map NodeDefinition.id).contains edge.target)
    ("edge " ++ edge.id ++ " references an unknown node")
  check (edge.source ≠ edge.target) ("edge " ++ edge.id ++ " is a self-cycle")
  validatePredicate edge.when source

/-- The nodes without incoming edges, in declaration order. -/
def GraphSpec.roots (spec : GraphSpec) : List String :=
  (spec.nodes.map NodeDefinition.id).filter fun id => (indegrees spec).get id = 0

/-- Kahn's algorithm from the roots in the given order leaves no edge open. -/
def GraphSpec.closesFrom (spec : GraphSpec) (roots : List String) : Bool :=
  (kahn spec.edges (spec.nodes.length + 1) roots (indegrees spec)).values.all fun d => d = 0

/-- All checks of a graph but the search for a cycle. -/
def localChecks (screen : GraphDefinition → Bool) (g : GraphDefinition) : Fallible Unit := do
  check (screen g) "graph authority may contain a secret"
  check (g.apiVersion = graphAPIVersion && g.kind = graphKind)
    ("graph must be " ++ graphAPIVersion ++ " " ++ graphKind)
  check (!blank g.metadata.name) "graph metadata.name is required"
  validateRoles g.spec.roles
  validateCapacities g.spec.resourceCapacities
  validateProviders g.spec.providers
  validateLanes g.spec.lanes
  validateGroups g.spec
  if g.spec.groups = [] then .ok () else validateGroupedGraphFields g
  uniqueKeys NodeDefinition.id
    (fun id => "node IDs must be non-empty and unique: " ++ id) [] g.spec.nodes
  g.spec.nodes.forM (validateNode g.spec)
  validateSummaries g.spec
  validateNodeReferences g.spec
  uniqueKeys EdgeDefinition.id
    (fun id => "edge IDs must be non-empty and unique: " ++ id) [] g.spec.edges
  g.spec.edges.forM (validateEdge g.spec)

/-- Validation ends with the search for a cycle. -/
theorem validateGraph_eq
    (screen : GraphDefinition → Bool) (g : GraphDefinition) :
  validateGraph screen g = (localChecks screen g >>= fun _ =>
    check (g.spec.closesFrom g.spec.roots) "graph contains a cycle")
  := by
  unfold validateGraph localChecks
  split
  all_goals
    simp only [bind_assoc]
    rfl

/-- What passes has passed the local checks, and no cycle was found. -/
theorem validateGraph_ok_iff
    {screen : GraphDefinition → Bool} {g : GraphDefinition} :
  validateGraph screen g = .ok () ↔
    localChecks screen g = .ok () ∧ g.spec.closesFrom g.spec.roots = true
  := by
  rw [validateGraph_eq, bind_eq_ok]
  simp only [check_eq_ok]
  constructor
  · rintro ⟨_, passed, closes⟩
    exact ⟨passed, closes⟩
  · rintro ⟨passed, closes⟩
    exact ⟨(), passed, closes⟩

/-- Keys that passed are not empty. -/
theorem uniqueKeys_named
    {β : Type} {key : β → String} {message : String → String} {seen : List String} {bs : List β}
    (unique : uniqueKeys key message seen bs = .ok ()) :
  ∀ b ∈ bs, key b ≠ ""
  := by
  induction bs generalizing seen with
  | nil => simp
  | cons b bs ih =>
      simp only [uniqueKeys, bind_eq_ok, check_eq_ok, Bool.and_eq_true, decide_eq_true_eq] at unique
      obtain ⟨_, ⟨named, -⟩, rest⟩ := unique
      exact List.forall_mem_cons.mpr ⟨named, ih rest⟩

/-- What the local checks say. -/
structure LocallyValid (spec : GraphSpec) : Prop where
  roles : validateRoles spec.roles = .ok ()
  providers : validateProviders spec.providers = .ok ()
  lanes : validateLanes spec.lanes = .ok ()
  groups : validateGroups spec = .ok ()
  nodeIds : (spec.nodes.map NodeDefinition.id).Nodup
  nodesNamed : ∀ node ∈ spec.nodes, node.id ≠ ""
  nodes : ∀ node ∈ spec.nodes, validateNode spec node = .ok ()
  references : validateNodeReferences spec = .ok ()
  edgeIds : (spec.edges.map EdgeDefinition.id).Nodup
  edges : ∀ edge ∈ spec.edges, validateEdge spec edge = .ok ()

/-- The parts of a graph that passed the local checks have passed theirs. -/
theorem locallyValid_of_localChecks
    {screen : GraphDefinition → Bool} {g : GraphDefinition} (h : localChecks screen g = .ok ()) :
  LocallyValid g.spec
  := by
  unfold localChecks at h
  split at h
  all_goals
    simp only [bind_eq_ok] at h
    obtain ⟨_, -, _, -, _, -, _, roles, _, -, _, providers, _, lanes, _, groups, _, -, _, nodeIds, _,
      nodes, _, -, _, references, _, edgeIds, edges⟩ := h
    exact ⟨roles, providers, lanes, groups, (uniqueKeys_ok nodeIds).1, uniqueKeys_named nodeIds,
      forM_eq_ok.mp nodes, references, (uniqueKeys_ok edgeIds).1, forM_eq_ok.mp edges⟩

/-! ### Parent walks -/

/-- A walk that passes ends within the bound. -/
theorem walkParents_chain
    {parentOf : String → String} {cycle : String → String} {tooDeep : String} {depth fuel : Nat}
    {seen : List String} {current : String}
    (passed : walkParents parentOf cycle tooDeep depth fuel seen current = .ok ())
    (within : seen.length ≤ depth) (enough : depth < fuel + seen.length) (some : current ≠ "")
    {chain : List String}
    (linked : (current :: chain).IsChain fun a b => parentOf a = b ∧ b ≠ "") :
  (current :: chain).length + seen.length ≤ depth
  := by
  induction fuel generalizing seen current chain with
  | zero => omega
  | succ fuel ih =>
      simp only [walkParents, if_neg some, bind_eq_ok, check_eq_ok, decide_eq_true_eq] at passed
      obtain ⟨_, -, _, short, passed⟩ := passed
      cases chain with
      | nil =>
          simp only [List.length_singleton]
          omega
      | cons next chain =>
          obtain ⟨⟨rfl, more⟩, linked⟩ := List.isChain_cons_cons.mp linked
          have := ih passed (by simp only [List.length_cons]; omega)
            (by simp only [List.length_cons]; omega) more linked
          simp only [List.length_cons] at this ⊢
          omega

/-- The first record with an id, when ids are unique. -/
theorem find?_of_nodup
    {β : Type} {key : β → String} {records : List β} (nodup : (records.map key).Nodup) {b : β}
    (mem : b ∈ records) :
  records.find? (fun c => key c = key b) = some b
  := by
  induction records with
  | nil => simp at mem
  | cons c records ih =>
      obtain ⟨new, nodup⟩ := List.nodup_cons.mp (List.map_cons ▸ nodup)
      rcases List.mem_cons.mp mem with rfl | mem
      · simp
      · have other : key c ≠ key b := fun same => new (same ▸ List.mem_map_of_mem mem)
        rw [List.find?_cons_of_neg (by simpa using other)]
        exact ih nodup mem

/-- A relation of parents whose walks pass has short chains. -/
theorem chains_short
    {under : String → String → Prop} {parentOf : String → String} {depth fuel : Nat}
    (parents : ∀ a b, under a b → parentOf a = b ∧ b ≠ "")
    (walks : ∀ a b, under a b → a ≠ "" ∧ ∃ cycle tooDeep,
      walkParents parentOf cycle tooDeep depth fuel [] a = .ok ())
    (some : 1 ≤ depth) (enough : depth < fuel) (chain : List String) (linked : chain.IsChain under) :
  chain.length ≤ depth
  := by
  match chain with
  | [] => exact Nat.zero_le _
  | [_] => exact some
  | a :: b :: rest =>
      obtain ⟨first, -⟩ := List.isChain_cons_cons.mp linked
      obtain ⟨named, _, _, passed⟩ := walks a b first
      exact walkParents_chain passed (Nat.zero_le _) enough named
        (linked.imp fun a b => parents a b)

namespace LocallyValid

variable {spec : GraphSpec}

/-- What the check of the groups says. -/
theorem groups_ok
    (valid : LocallyValid spec) :
  (spec.groups.map GroupDefinition.id).Nodup ∧
    (∀ group ∈ spec.groups, group.laneId ≠ "" → spec.HasLane group.laneId) ∧
    (∀ group ∈ spec.groups, group.parentGroupId ≠ "" → spec.HasGroup group.parentGroupId) ∧
    ∀ group ∈ spec.groups, group.id ≠ "" ∧ ∃ cycle tooDeep,
      walkParents spec.groupParent cycle tooDeep maxGroupDepth (maxGroupDepth + 2) [] group.id
        = .ok ()
  := by
  have passed := valid.groups
  simp only [validateGroups, bind_eq_ok] at passed
  obtain ⟨_, -, _, unique, _, each, _, parents, walks⟩ := passed
  refine ⟨(uniqueKeys_ok unique).1, fun group mem named => ?_, fun group mem named => ?_,
    fun group mem => ⟨uniqueKeys_named unique group mem, _, _, forM_eq_ok.mp walks group mem⟩⟩
  · have := forM_eq_ok.mp each group mem
    simp only [bind_eq_ok, check_eq_ok] at this
    obtain ⟨_, -, _, -, _, -, _, -, _, -, lane⟩ := this
    simpa [GraphSpec.HasLane, GraphSpec.laneIds, named] using lane
  · have := forM_eq_ok.mp parents group mem
    simp only [check_eq_ok, Bool.or_eq_true, Bool.and_eq_true, decide_eq_true_eq, named, false_or,
      List.contains_eq_mem, List.mem_map] at this
    exact this.2

/-- A parent of a group is the one its walk follows. -/
theorem groupParent_of_under
    (valid : LocallyValid spec) {a b : String} (under : spec.GroupUnder a b) :
  spec.groupParent a = b ∧ b ≠ ""
  := by
  obtain ⟨named, group, mem, rfl, rfl⟩ := under
  simp [GraphSpec.groupParent, find?_of_nodup valid.groups_ok.1 mem, named]

/-- A chain of groups is no longer than the bound. -/
theorem groupDepth
    (valid : LocallyValid spec) (chain : List String) (linked : chain.IsChain spec.GroupUnder) :
  chain.length ≤ maxGroupDepth
  := by
  have walks : ∀ a b, spec.GroupUnder a b → a ≠ "" ∧ ∃ cycle tooDeep,
      walkParents spec.groupParent cycle tooDeep maxGroupDepth (maxGroupDepth + 2) [] a = .ok () := by
    rintro a b ⟨-, group, mem, rfl, -⟩
    exact valid.groups_ok.2.2.2 group mem
  exact chains_short (fun _ _ under => valid.groupParent_of_under under) walks (by decide)
    (Nat.lt_add_of_pos_right Nat.two_pos) chain linked

/-- What the check of a node says about its references. -/
theorem node_ok
    (valid : LocallyValid spec) {node : NodeDefinition} (mem : node ∈ spec.nodes) :
  (node.role ≠ "" → spec.HasRole node.role) ∧ (node.groupId ≠ "" → spec.HasGroup node.groupId) ∧
    (node.laneId ≠ "" → spec.HasLane node.laneId)
  := by
  have passed := valid.nodes node mem
  simp only [validateNode, bind_eq_ok, check_eq_ok] at passed
  obtain ⟨_, -, _, role, _, group, _, lane, -⟩ := passed
  refine ⟨fun named => ?_, fun named => ?_, fun named => ?_⟩
  · simpa [GraphSpec.HasRole, named] using role
  · simpa [GraphSpec.HasGroup, named] using group
  · simpa [GraphSpec.HasLane, GraphSpec.laneIds, named] using lane

/-- What the check of the node references says. -/
theorem references_ok
    (valid : LocallyValid spec) {node : NodeDefinition} (mem : node ∈ spec.nodes)
    (named : node.parent ≠ "") :
  spec.HasNode node.parent ∧ ∃ cycle tooDeep, walkParents spec.nodeParent cycle tooDeep
    ((spec.nodes.map NodeDefinition.id).length + 1) ((spec.nodes.map NodeDefinition.id).length + 2)
    [] node.id = .ok ()
  := by
  have passed := valid.references
  simp only [validateNodeReferences, bind_eq_ok] at passed
  obtain ⟨_, each, _, -, walks⟩ := passed
  constructor
  · have := forM_eq_ok.mp each node mem
    simp only [bind_eq_ok, check_eq_ok, Bool.or_eq_true, Bool.and_eq_true, decide_eq_true_eq, named,
      false_or, List.contains_eq_mem, List.mem_map] at this
    obtain ⟨_, ⟨-, parent⟩, -⟩ := this
    exact parent
  · have := forM_eq_ok.mp walks node mem
    rw [if_neg named] at this
    exact ⟨_, _, this⟩

/-- A parent of a node is the one its walk follows. -/
theorem nodeParent_of_under
    (valid : LocallyValid spec) {a b : String} (under : spec.NodeUnder a b) :
  spec.nodeParent a = b ∧ b ≠ ""
  := by
  obtain ⟨named, node, mem, rfl, rfl⟩ := under
  simp [GraphSpec.nodeParent, find?_of_nodup valid.nodeIds mem, named]

/-- The hierarchy of nodes is acyclic. -/
theorem nodesAcyclic
    (valid : LocallyValid spec) :
  Acyclic spec.NodeUnder
  := by
  have walks : ∀ a b, spec.NodeUnder a b → a ≠ "" ∧ ∃ cycle tooDeep,
      walkParents spec.nodeParent cycle tooDeep ((spec.nodes.map NodeDefinition.id).length + 1)
        ((spec.nodes.map NodeDefinition.id).length + 2) [] a = .ok () := by
    rintro a b ⟨parent, node, mem, rfl, rfl⟩
    exact ⟨valid.nodesNamed node mem, (valid.references_ok mem parent).2⟩
  exact Acyclic.of_chains
    (chains_short (fun _ _ under => valid.nodeParent_of_under under) walks (by omega) (by omega))

/-- The ends of an edge are declared nodes. -/
theorem edge_ok
    (valid : LocallyValid spec) {edge : EdgeDefinition} (mem : edge ∈ spec.edges) :
  spec.HasNode edge.source ∧ spec.HasNode edge.target
  := by
  have passed := valid.edges edge mem
  simp only [validateEdge, bind_eq_ok, need_eq_ok, check_eq_ok, List.contains_eq_mem,
    decide_eq_true_eq, List.mem_map] at passed
  obtain ⟨source, found, _, target, -⟩ := passed
  have same := List.find?_some found
  exact ⟨⟨source, List.mem_of_find?_eq_some found, by simpa using same⟩, target⟩

end LocallyValid

/-! ### The search for a cycle -/

/-- The edges of a graph by their ends. -/
def GraphSpec.ends (spec : GraphSpec) : List (String × String) :=
  spec.edges.map fun edge => (edge.source, edge.target)

/-- The loop over the children closes one edge of each. -/
theorem release_get
    (children queue : List String) (t : Table Int) :
  let step := fun (acc : List String × Table Int) child =>
    let left := acc.2.get child - 1
    (if left = 0 then acc.1 ++ [child] else acc.1, acc.2.insert child left)
  (children.foldl step (queue, t)).1 = (Kahn.release children queue t.get).1 ∧
    (children.foldl step (queue, t)).2.get = (Kahn.release children queue t.get).2
  := by
  induction children generalizing queue t with
  | nil => exact ⟨rfl, rfl⟩
  | cons child children ih =>
      have written : Table.get (t.insert child (t.get child - 1))
          = Function.update t.get child (t.get child - 1) := by
        funext k
        rw [Table.get_insert, Function.update_apply]
      have step := ih (if t.get child - 1 = 0 then queue ++ [child] else queue)
        (t.insert child (t.get child - 1))
      simp only [Kahn.release, List.foldl_cons] at step ⊢
      rw [written] at step
      exact step

/-- The algorithm on the graph is the algorithm on the ends of its edges. -/
theorem kahn_get
    (spec : GraphSpec) (fuel : Nat) (queue : List String) (t : Table Int) :
  (kahn spec.edges fuel queue t).get = Kahn.run spec.ends fuel queue t.get
  := by
  induction fuel generalizing queue t with
  | zero => rfl
  | succ fuel ih =>
      cases queue with
      | nil => rfl
      | cons id queue =>
          have children : (spec.edges.filter fun edge => edge.source = id).map EdgeDefinition.target
              = Kahn.children spec.ends id := by
            simp only [Kahn.children, GraphSpec.ends, List.filter_map, List.map_map]
            rfl
          obtain ⟨queued, degrees⟩ := release_get (Kahn.children spec.ends id) queue t
          simp only [kahn, children, Kahn.run]
          rw [ih, queued, degrees]

/-- A table of numbers has only zeros exactly when it reads zero everywhere. -/
theorem values_all_zero
    (t : Table Int) :
  (t.values.all fun d => d = 0) = true ↔ ∀ k, t.get k = 0
  := by
  simp only [List.all_eq_true, Table.mem_values_iff, decide_eq_true_eq]
  constructor
  · intro zero k
    cases found : t.lookup k with
    | none => simp [Table.get, found]
    | some d =>
        rw [Table.get_of_lookup found]
        exact zero d ⟨k, found⟩
  · rintro zero d ⟨k, found⟩
    rw [← Table.get_of_lookup found]
    exact zero k

/-- The number of edges that lead to a node. -/
theorem indegrees_get
    (spec : GraphSpec) (id : String) :
  (indegrees spec).get id =
    if id ∈ spec.nodes.map NodeDefinition.id then (Kahn.open_ spec.ends [] id : Int) else 0
  := by
  have counted : ((spec.edges.filter fun edge => edge.target = id).length : Int)
      = Kahn.open_ spec.ends [] id := by
    rw [← List.countP_eq_length_filter, Kahn.open_, GraphSpec.ends, List.countP_map]
    simp [Function.comp_def]
  have fold : ∀ (nodes : List NodeDefinition) (t : Table Int),
      (nodes.foldl (fun t node => t.insert node.id
        ((spec.edges.filter fun edge => edge.target = node.id).length : Int)) t).get id
        = if id ∈ nodes.map NodeDefinition.id then (Kahn.open_ spec.ends [] id : Int)
          else t.get id := by
    intro nodes
    induction nodes with
    | nil => simp
    | cons node nodes ih =>
        intro t
        rw [List.foldl_cons, ih, Table.get_insert]
        by_cases same : id = node.id
        · subst same
          simp [counted]
        · simp [same]
  rw [indegrees, fold]
  rfl

/-- From the roots in any order, no edge is left open exactly when the edges form no cycle. -/
theorem LocallyValid.closesFrom_iff
    {spec : GraphSpec} (valid : LocallyValid spec) {roots : List String}
    (perm : roots.Perm spec.roots) :
  spec.closesFrom roots = true ↔ Acyclic spec.Leads
  := by
  have inside : ∀ edge ∈ spec.ends,
      edge.1 ∈ spec.nodes.map NodeDefinition.id ∧ edge.2 ∈ spec.nodes.map NodeDefinition.id := by
    intro edge mem
    obtain ⟨declared, known, rfl⟩ := List.mem_map.mp mem
    simpa [GraphSpec.HasNode] using valid.edge_ok known
  have standing : Kahn.Standing spec.ends (spec.nodes.map NodeDefinition.id) roots []
      (indegrees spec).get := by
    refine Kahn.Standing.start valid.nodeIds (fun id mem => ?_) (fun id absent => ?_) perm
    · rw [indegrees_get, if_pos mem]
    · rw [indegrees_get, if_neg absent]
  have enough : (spec.nodes.map NodeDefinition.id).length
      < spec.nodes.length + 1 + ([] : List String).length := by simp
  obtain ⟨done, stopped⟩ := standing.run (fun edge mem => (inside edge mem).2) enough
  have same : (fun a b => (a, b) ∈ spec.ends) = spec.Leads := by
    funext a b
    simp [GraphSpec.ends, GraphSpec.Leads]
  rw [GraphSpec.closesFrom, values_all_zero, kahn_get, stopped.all_closed_iff inside, same]

/-- A graph whose checks passed is well-formed. -/
theorem LocallyValid.wellFormed
    {g : GraphDefinition} (valid : LocallyValid g.spec) (acyclic : Acyclic g.spec.Leads) :
  g.WellFormed
  := by
  have roles := valid.roles
  simp only [validateRoles, bind_eq_ok] at roles
  obtain ⟨_, roleIds, -⟩ := roles
  have providers := valid.providers
  simp only [validateProviders, check_eq_ok, Bool.and_eq_true, decide_eq_true_eq] at providers
  have lanes := valid.lanes
  simp only [validateLanes, bind_eq_ok] at lanes
  obtain ⟨_, -, _, laneIds, -⟩ := lanes
  obtain ⟨groupIds, groupLanes, groupParents, -⟩ := valid.groups_ok
  exact {
    roleIds := (uniqueKeys_ok roleIds).1
    providerIds := providers.2
    laneIds := (uniqueKeys_ok laneIds).1
    groupIds
    nodeIds := valid.nodeIds
    edgeIds := valid.edgeIds
    sources := fun edge mem => (valid.edge_ok mem).1
    targets := fun edge mem => (valid.edge_ok mem).2
    nodeRoles := fun node mem => (valid.node_ok mem).1
    nodeGroups := fun node mem => (valid.node_ok mem).2.1
    nodeLanes := fun node mem => (valid.node_ok mem).2.2
    nodeParents := fun node mem named => (valid.references_ok mem named).1
    groupParents
    groupLanes
    edgesAcyclic := acyclic
    nodesAcyclic := valid.nodesAcyclic
    groupsAcyclic := Acyclic.of_chains valid.groupDepth
    groupDepth := valid.groupDepth }

/-- What passes validation is well-formed. Of the graphs that pass the other checks, the search for a
cycle refuses those whose edges form one, wherever it starts among the roots. -/
theorem validateGraph_exact
    (screen : GraphDefinition → Bool) (g : GraphDefinition) :
  (validateGraph screen g = .ok () → g.WellFormed) ∧
    (localChecks screen g = .ok () →
      (validateGraph screen g = .ok () ↔ Acyclic g.spec.Leads) ∧
      (validateGraph screen g = .error "graph contains a cycle" ↔
        ∃ id, Relation.TransGen g.spec.Leads id id) ∧
      ∀ roots, roots.Perm g.spec.roots → (g.spec.closesFrom roots = true ↔ Acyclic g.spec.Leads))
  := by
  constructor
  · intro passed
    obtain ⟨checked, closes⟩ := validateGraph_ok_iff.mp passed
    have valid := locallyValid_of_localChecks checked
    exact valid.wellFormed ((valid.closesFrom_iff (List.Perm.refl _)).mp closes)
  · intro checked
    have valid := locallyValid_of_localChecks checked
    have closes := valid.closesFrom_iff (List.Perm.refl g.spec.roots)
    have answer : validateGraph screen g = check (g.spec.closesFrom g.spec.roots)
        "graph contains a cycle" := by
      rw [validateGraph_eq, checked]
      rfl
    refine ⟨?_, ?_, fun roots perm => valid.closesFrom_iff perm⟩
    · rw [answer, check_eq_ok, closes]
    · have cyclic : (∃ id, Relation.TransGen g.spec.Leads id id) ↔ ¬ Acyclic g.spec.Leads := by
        simp [Acyclic]
      rw [answer, cyclic, ← closes]
      simp [check]

end Dagrail
