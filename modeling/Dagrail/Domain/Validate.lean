import Dagrail.Foundation.Outcome
import Dagrail.Foundation.Text
import Dagrail.Domain.Graph

/-!
# Graph validation

The checks a graph passes before it becomes authority: identifiers are unique and references
resolve, group and node hierarchies have no cycle, every predicate has exactly one operator, and
the edges form a directed acyclic graph (Kahn's algorithm). The screen for credential-like
material in the encoded graph is the parameter `screen`.
-/

namespace Dagrail

def graphAPIVersion : String := "dagrail.io/v1alpha1"

def graphKind : String := "Graph"

def maxGraphGroups : Nat := 256
def maxGroupIDRunes : Nat := 64
def maxGroupTitleRunes : Nat := 256
def maxGroupDepth : Nat := 8
def maxGroupedRefRunes : Nat := 256
def maxGraphLanes : Nat := 64
def maxLaneIDRunes : Nat := 64
def maxLaneTitleRunes : Nat := 128

/-- The group kinds a graph may use. -/
def builtinGroupKinds : List String :=
  ["work-unit", "milestone", "gate", "external", "governance", "custom"]

/-- The lanes every graph has. -/
def builtinLaneIDs : List String :=
  ["work-units", "milestones-gates", "external-actions", "global-governance", "ungrouped"]

/-- The text of a node kind. -/
def NodeKind.text : NodeKind → String
  | .custom name => name
  | .task => "task"
  | .review => "review"
  | .decision => "decision"
  | .gate => "gate"
  | .effect => "effect"
  | .join => "join"
  | .milestone => "milestone"

/-- A capability name with nothing in it. -/
def Capability.isBlank : Capability → Bool
  | .other text => blank text
  | _ => false

/-- Refuse the first element whose key is empty or occurred before it. -/
def uniqueKeys {α : Type} (key : α → String) (message : String → String) :
    List String → List α → Fallible Unit
  | _, [] => .ok ()
  | seen, a :: as => do
      check (key a ≠ "" && !seen.contains (key a)) (message (key a))
      uniqueKeys key message (key a :: seen) as

/-! ### Predicates -/

/-- How many operators of a predicate are set. -/
def Predicate.branches (p : Predicate) : Nat :=
  (if p.outcome ≠ "" then 1 else 0) + (if p.decision.isSome then 1 else 0)
    + (if p.evidence.isSome then 1 else 0) + (if p.policy.isSome then 1 else 0)
    + (if p.all ≠ [] then 1 else 0) + (if p.any ≠ [] then 1 else 0)

/-- A fact operator needs a key and a value. -/
def checkMatch (label : String) : Option ValueMatch → Fallible Unit
  | none => .ok ()
  | some m =>
      check (m.key ≠ "" && m.value ≠ "") (label ++ " predicate requires non-empty key and value")

mutual

/-- Exactly one operator at each level, nested no deeper than 64, declared outcomes only. -/
def validatePredicateAtDepth (source : NodeDefinition) : Nat → Predicate → Fallible Unit
  | depth, ⟨outcome, decision, evidence, policy, all, any⟩ => do
      check (depth ≤ 64) "predicate nesting exceeds 64 levels"
      check (outcome = "" || source.outcomes.any fun o => o.id = outcome)
        ("outcome " ++ outcome ++ " is not declared by source " ++ source.id)
      checkMatch "decision" decision
      checkMatch "evidence" evidence
      checkMatch "policy" policy
      check ((⟨outcome, decision, evidence, policy, all, any⟩ : Predicate).branches = 1)
        "predicate must contain exactly one closed operator"
      validatePredicates source (depth + 1) all
      validatePredicates source (depth + 1) any

/-- Every predicate of a list, at one depth. -/
def validatePredicates (source : NodeDefinition) : Nat → List Predicate → Fallible Unit
  | _, [] => .ok ()
  | depth, p :: ps => do
      validatePredicateAtDepth source depth p
      validatePredicates source depth ps

end

/-- The predicate of an edge from `source`. -/
def validatePredicate (p : Predicate) (source : NodeDefinition) : Fallible Unit :=
  validatePredicateAtDepth source 0 p

/-! ### Length bounds of a grouped graph -/

/-- A field of a grouped graph with at most `maximum` characters. -/
def bounded (label value : String) (maximum : Nat) : Fallible Unit :=
  check (value.length ≤ maximum)
    (s!"grouped graph {label} exceeds {maximum} characters")

mutual

/-- The texts of a predicate are bounded. -/
def validateGroupedPredicateFields : Predicate → Fallible Unit
  | ⟨outcome, decision, evidence, policy, all, any⟩ => do
      bounded "predicate outcome" outcome maxGroupedRefRunes
      [decision, evidence, policy].forM fun m =>
        match m with
        | none => .ok ()
        | some m => do
            bounded "predicate key" m.key maxGroupedRefRunes
            bounded "predicate value" m.value maxGroupedRefRunes
      validateGroupedPredicates all
      validateGroupedPredicates any

/-- The texts of a list of predicates are bounded. -/
def validateGroupedPredicates : List Predicate → Fallible Unit
  | [] => .ok ()
  | p :: ps => do
      validateGroupedPredicateFields p
      validateGroupedPredicates ps

end

/-- The bounds that hold once a graph declares a group. -/
def validateGroupedGraphFields (g : GraphDefinition) : Fallible Unit := do
  g.spec.roles.forM fun role => bounded "role ID" role.id maxGroupedRefRunes
  g.spec.nodes.forM fun node => do
    [("node ID", node.id), ("node kind", node.kind.text), ("node role", node.role),
      ("node parent", node.parent), ("node supersedes", node.supersedes),
      ("node lane", node.laneId)].forM fun (label, value) => bounded label value maxGroupedRefRunes
    bounded "node title" node.title 1024
    bounded "node objective" node.objective 4096
    node.outcomes.forM fun outcome => bounded "outcome ID" outcome.id maxGroupedRefRunes
    node.resources.forM fun resource => bounded "resource kind" resource.kind maxGroupedRefRunes
    match node.decision with
    | none => .ok ()
    | some d =>
        [("decision key", d.key), ("decision provider ID", d.providerId),
          ("decision policy ID", d.policyId)].forM fun (label, value) =>
            bounded label value maxGroupedRefRunes
  g.spec.edges.forM fun edge => do
    [("edge ID", edge.id), ("edge source", edge.source), ("edge target", edge.target)].forM
      fun (label, value) => bounded label value maxGroupedRefRunes
    validateGroupedPredicateFields edge.when

/-! ### Hierarchies -/

/-- Walk up from `current` through `parentOf`, refusing a repeated element and a chain of more
than `depth` elements. The fuel is never used up before one of the two is seen. -/
def walkParents (parentOf : String → String) (cycle : String → String) (tooDeep : String)
    (depth : Nat) : Nat → List String → String → Fallible Unit
  | 0, _, _ => .ok ()
  | fuel + 1, seen, current =>
      if current = "" then .ok ()
      else do
        check (!seen.contains current) (cycle current)
        check (seen.length + 1 ≤ depth) tooDeep
        walkParents parentOf cycle tooDeep depth fuel (current :: seen) (parentOf current)

/-- Is `groupId` on the parent chain that starts at `current`? -/
def insideGroup (parentOf : String → String) (groupId : String) : Nat → String → Bool
  | 0, _ => false
  | fuel + 1, current =>
      if current = "" then false
      else if current = groupId then true
      else insideGroup parentOf groupId fuel (parentOf current)

/-- The parent of a group, or the empty text. -/
def GraphSpec.groupParent (spec : GraphSpec) (groupId : String) : String :=
  match spec.groups.find? fun group => group.id = groupId with
  | some group => group.parentGroupId
  | none => ""

/-- The hierarchy parent of a node, or the empty text. -/
def GraphSpec.nodeParent (spec : GraphSpec) (nodeId : String) : String :=
  match spec.nodes.find? fun node => node.id = nodeId with
  | some node => node.parent
  | none => ""

/-! ### The parts of a graph -/

/-- Roles have unique non-empty ids and unique non-blank capabilities. -/
def validateRoles (roles : List RoleDefinition) : Fallible Unit := do
  uniqueKeys RoleDefinition.id
    (fun id => "role IDs must be non-empty and unique: " ++ id) [] roles
  roles.forM fun role =>
    check (role.capabilities.all (fun c => !c.isBlank) && decide role.capabilities.Nodup)
      ("role " ++ role.id ++ " capabilities must be non-empty and unique")

/-- Capacities are positive, one for each kind. -/
def validateCapacities (capacities : List ResourceCapacity) : Fallible Unit :=
  check (capacities.all (fun c => c.kind ≠ "" && decide (0 < c.capacity))
      && decide (capacities.map ResourceCapacity.kind).Nodup)
    "resource capacities require a unique kind and positive capacity"

/-- Providers are bound by id, version and schema hash. -/
def validateProviders (providers : List ProviderRef) : Fallible Unit :=
  check (providers.all (fun p => p.id ≠ "" && p.version ≠ "" && p.schemaHash ≠ "")
      && decide (providers.map ProviderRef.id).Nodup)
    "providers require a unique ID, version and schema hash"

/-- Lanes are bounded in number, name, title and order. -/
def validateLanes (lanes : List LaneDefinition) : Fallible Unit := do
  check (lanes.length ≤ maxGraphLanes) (s!"graph lanes exceed {maxGraphLanes}")
  uniqueKeys LaneDefinition.id
    (fun id => "lane IDs must be non-empty and unique: " ++ id) [] lanes
  lanes.forM fun lane => do
    check (lane.id.length ≤ maxLaneIDRunes)
      (s!"lane ID exceeds {maxLaneIDRunes} characters: {lane.id}")
    check (!blank lane.title && lane.title.length ≤ maxLaneTitleRunes)
      (s!"lane {lane.id} title must be non-empty and at most {maxLaneTitleRunes} characters")
    check (decide (-1000 ≤ lane.order ∧ lane.order ≤ 1000))
      ("lane " ++ lane.id ++ " order must be between -1000 and 1000")

/-- The lanes a group or node may name. -/
def GraphSpec.laneIds (spec : GraphSpec) : List String :=
  builtinLaneIDs ++ spec.lanes.map LaneDefinition.id

/-- Groups are bounded, their references resolve and their hierarchy has no cycle. -/
def validateGroups (spec : GraphSpec) : Fallible Unit := do
  check (spec.groups.length ≤ maxGraphGroups) (s!"graph groups exceed {maxGraphGroups}")
  uniqueKeys GroupDefinition.id
    (fun id => "group IDs must be non-empty and unique: " ++ id) [] spec.groups
  spec.groups.forM fun group => do
    check (group.id.length ≤ maxGroupIDRunes)
      (s!"group ID exceeds {maxGroupIDRunes} characters: {group.id}")
    check (!blank group.title) ("group " ++ group.id ++ " title is required")
    check (group.title.length ≤ maxGroupTitleRunes)
      (s!"group {group.id} title exceeds {maxGroupTitleRunes} characters")
    check (group.summaryNodeId.length ≤ maxGroupedRefRunes)
      (s!"group {group.id} summary node reference exceeds {maxGroupedRefRunes} characters")
    check (builtinGroupKinds.contains group.kind)
      ("group " ++ group.id ++ " has invalid kind " ++ group.kind)
    check (group.laneId = "" || spec.laneIds.contains group.laneId)
      ("group " ++ group.id ++ " references unknown lane " ++ group.laneId)
  spec.groups.forM fun group =>
    check (group.parentGroupId = "" || (group.parentGroupId ≠ group.id
        && (spec.groups.map GroupDefinition.id).contains group.parentGroupId))
      ("group " ++ group.id ++ " has invalid parent group " ++ group.parentGroupId)
  spec.groups.forM fun group =>
    walkParents spec.groupParent (fun id => "group hierarchy contains a cycle at " ++ id)
      (s!"group {group.id} exceeds maximum hierarchy depth {maxGroupDepth}") maxGroupDepth
      (maxGroupDepth + 2) [] group.id

/-- The decision contract of a node fits its kind. -/
def validateDecisionContract (node : NodeDefinition) : Fallible Unit :=
  match node.decision with
  | none => .ok ()
  | some d => do
      check (d.key ≠ "") ("node " ++ node.id ++ " decision key is required")
      match d.source with
      | .human | .llm =>
          check (d.providerId = "" && d.policyId = "")
            ("node " ++ node.id ++ " non-provider decision cannot declare provider fields")
      | .provider =>
          check (d.providerId ≠ "" && d.policyId ≠ "")
            ("node " ++ node.id ++ " provider decision requires providerId and policyId")
      | .other _ =>
          .error ("node " ++ node.id ++ " decision source must be human, llm or provider")
      check (node.kind ≠ .decision || d.source ≠ .provider)
        ("decision node " ++ node.id ++ " cannot use a provider decision contract")
      check (node.kind ≠ .gate || d.source = .provider)
        ("gate node " ++ node.id ++ " decision contract must use a provider")

/-- The outcomes of a node have unique ids and known classes. -/
def validateOutcomes (node : NodeDefinition) : Fallible Unit := do
  check (node.outcomes.all (fun o => o.id ≠ "") && decide (node.outcomes.map Outcome.id).Nodup)
    ("node " ++ node.id ++ " outcomes must have unique IDs")
  node.outcomes.forM fun o =>
    match o.outcomeClass with
    | .success | .retryable | .failure | .cancelled => .ok ()
    | .unset | .other _ =>
        .error ("node " ++ node.id ++ " outcome " ++ o.id ++ " has invalid class")

/-- The declared capacity of a resource kind, zero when there is none. -/
def GraphSpec.capacity (spec : GraphSpec) (kind : String) : Int :=
  match spec.resourceCapacities.find? fun c => c.kind = kind with
  | some c => c.capacity
  | none => 0

/-- The resource claims of a node are positive and within capacity, one for each kind. -/
def validateResources (spec : GraphSpec) (node : NodeDefinition) : Fallible Unit := do
  check (node.resources.all (fun r => r.kind ≠ "" && decide (0 < r.quantity))
      && decide (node.resources.map ResourceRequest.kind).Nodup)
    ("node " ++ node.id ++ " resource requests require a unique kind and positive quantity")
  node.resources.forM fun r => do
    check (spec.capacity r.kind ≠ 0)
      ("node " ++ node.id ++ " requests undeclared resource " ++ r.kind)
    check (decide (r.quantity ≤ spec.capacity r.kind))
      (s!"node {node.id} requests {r.quantity} {r.kind} but capacity is {spec.capacity r.kind}")

/-- One node: its kind, references, decision contract, outcomes and claims. -/
def validateNode (spec : GraphSpec) (node : NodeDefinition) : Fallible Unit := do
  check (node.kind.isBuiltin || node.kind.text.toList.contains '.')
    ("node " ++ node.id ++ " has unknown kind " ++ node.kind.text)
  check (node.role = "" || (spec.roles.map RoleDefinition.id).contains node.role)
    ("node " ++ node.id ++ " references unknown role " ++ node.role)
  check (node.groupId = "" || (spec.groups.map GroupDefinition.id).contains node.groupId)
    ("node " ++ node.id ++ " references unknown group " ++ node.groupId)
  check (node.laneId = "" || spec.laneIds.contains node.laneId)
    ("node " ++ node.id ++ " references unknown lane " ++ node.laneId)
  check (!([NodeKind.task, .review, .decision, .gate, .effect].contains node.kind)
      || node.role ≠ "")
    ("node " ++ node.id ++ " kind " ++ node.kind.text ++ " requires a role")
  validateDecisionContract node
  check (node.outcomes ≠ []) ("node " ++ node.id ++ " must declare outcomes")
  check (decide (0 ≤ node.retryBudget)) ("node " ++ node.id ++ " retry budget cannot be negative")
  check (!node.kind.isDeterministic || node.resources = [])
    ("deterministic node " ++ node.id ++ " cannot request executor resources")
  check (!node.kind.isDeterministic
      || (node.outcomes.filter fun o => o.outcomeClass = .success).length = 1)
    ("deterministic node " ++ node.id ++ " must declare exactly one success outcome")
  validateOutcomes node
  validateResources spec node

/-- The summary node of a group lies inside the group. -/
def validateSummaries (spec : GraphSpec) : Fallible Unit :=
  spec.groups.forM fun group =>
    if group.summaryNodeId = "" then .ok ()
    else do
      let summary ← need (spec.nodes.find? fun node => node.id = group.summaryNodeId)
        ("group " ++ group.id ++ " references unknown summary node " ++ group.summaryNodeId)
      check (insideGroup spec.groupParent group.id (maxGroupDepth + 1) summary.groupId)
        ("group " ++ group.id ++ " summary node " ++ group.summaryNodeId
          ++ " is outside its group subtree")

/-- Hierarchy parents and supersedes references resolve, and no node has two replacements. -/
def validateNodeReferences (spec : GraphSpec) : Fallible Unit := do
  let ids := spec.nodes.map NodeDefinition.id
  spec.nodes.forM fun node => do
    check (node.parent = "" || (node.parent ≠ node.id && ids.contains node.parent))
      ("node " ++ node.id ++ " has invalid hierarchy parent " ++ node.parent)
    check (node.supersedes = "" || (node.supersedes ≠ node.id && ids.contains node.supersedes))
      ("node " ++ node.id ++ " has invalid supersedes reference " ++ node.supersedes)
  check (decide ((spec.nodes.map NodeDefinition.supersedes).filter (· ≠ "")).Nodup)
    "a node is superseded by two replacements"
  spec.nodes.forM fun node =>
    if node.parent = "" then .ok ()
    else
      walkParents spec.nodeParent (fun id => "node hierarchy contains a cycle at " ++ id) ""
        (ids.length + 1) (ids.length + 2) [] node.id

/-! ### Edges -/

/-- One round of Kahn's algorithm for each node: take the first node without open incoming
edges and close its outgoing ones. The result maps every node to its open incoming edges. -/
def kahn (edges : List EdgeDefinition) : Nat → List String → Table Int → Table Int
  | 0, _, indegree => indegree
  | _ + 1, [], indegree => indegree
  | fuel + 1, id :: queue, indegree =>
      let children := (edges.filter fun edge => edge.source = id).map EdgeDefinition.target
      let (queue, indegree) := children.foldl
        (fun (acc : List String × Table Int) child =>
          let left := acc.2.get child - 1
          (if left = 0 then acc.1 ++ [child] else acc.1, acc.2.insert child left))
        (queue, indegree)
      kahn edges fuel queue indegree

/-- How many edges lead to each node. -/
def indegrees (spec : GraphSpec) : Table Int :=
  spec.nodes.foldl (fun t node =>
    t.insert node.id ((spec.edges.filter fun edge => edge.target = node.id).length : Int)) ∅

/-- Edges have unique ids, resolve, are no loops, have valid predicates and form no cycle. -/
def validateEdges (spec : GraphSpec) : Fallible Unit := do
  uniqueKeys EdgeDefinition.id
    (fun id => "edge IDs must be non-empty and unique: " ++ id) [] spec.edges
  spec.edges.forM fun edge => do
    let source ← need (spec.nodes.find? fun node => node.id = edge.source)
      ("edge " ++ edge.id ++ " references an unknown node")
    check ((spec.nodes.map NodeDefinition.id).contains edge.target)
      ("edge " ++ edge.id ++ " references an unknown node")
    check (edge.source ≠ edge.target) ("edge " ++ edge.id ++ " is a self-cycle")
    validatePredicate edge.when source
  let indegree := indegrees spec
  let roots := (spec.nodes.map NodeDefinition.id).filter fun id => indegree.get id = 0
  check ((kahn spec.edges (spec.nodes.length + 1) roots indegree).values.all fun d => d = 0)
    "graph contains a cycle"

/-- Does the graph have the form authority requires? -/
def validateGraph (screen : GraphDefinition → Bool) (g : GraphDefinition) : Fallible Unit := do
  check (screen g) "graph authority may contain a secret"
  check (g.apiVersion = graphAPIVersion && g.kind = graphKind)
    ("graph must be " ++ graphAPIVersion ++ " " ++ graphKind)
  check (!blank g.metadata.name) "graph metadata.name is required"
  validateRoles g.spec.roles
  validateCapacities g.spec.resourceCapacities
  validateProviders g.spec.providers
  validateLanes g.spec.lanes
  validateGroups g.spec
  if g.spec.groups = [] then .ok () else validateGroupedGraphFields g
  uniqueKeys NodeDefinition.id
    (fun id => "node IDs must be non-empty and unique: " ++ id) [] g.spec.nodes
  g.spec.nodes.forM (validateNode g.spec)
  validateSummaries g.spec
  validateNodeReferences g.spec
  validateEdges g.spec

/-! ### What a valid graph has -/

/-- Keys that passed are unique and were not seen before. -/
theorem uniqueKeys_ok
    {α : Type} {key : α → String} {message : String → String} {seen : List String} {as : List α}
    (unique : uniqueKeys key message seen as = .ok ()) :
  (as.map key).Nodup ∧ ∀ a ∈ as, key a ∉ seen
  := by
  induction as generalizing seen with
  | nil => simp
  | cons a as ih =>
      simp only [uniqueKeys, bind_eq_ok, check_eq_ok, Bool.and_eq_true, Bool.not_eq_true',
        List.contains_eq_mem, decide_eq_false_iff_not] at unique
      obtain ⟨_, ⟨-, new⟩, rest⟩ := unique
      obtain ⟨nodup, fresh⟩ := ih rest
      constructor
      · rw [List.map_cons, List.nodup_cons]
        refine ⟨fun mem => ?_, nodup⟩
        obtain ⟨b, mem, same⟩ := List.mem_map.mp mem
        exact fresh b mem (by simp [same])
      · intro b mem
        rcases List.mem_cons.mp mem with rfl | mem
        · exact new
        · exact fun known => fresh b mem (List.mem_cons_of_mem _ known)

/-- What is known of a valid graph. -/
structure GraphDefinition.Valid (g : GraphDefinition) : Prop where
  capacities : validateCapacities g.spec.resourceCapacities = .ok ()
  nodesUnique : (g.spec.nodes.map NodeDefinition.id).Nodup
  nodes : ∀ node ∈ g.spec.nodes, validateNode g.spec node = .ok ()
  edges : validateEdges g.spec = .ok ()

/-- A graph that passed has capacities, nodes and edges that passed. -/
theorem valid_of_validateGraph
    {screen : GraphDefinition → Bool} {g : GraphDefinition} (h : validateGraph screen g = .ok ()) :
  g.Valid
  := by
  simp only [validateGraph, bind_eq_ok] at h
  obtain ⟨_, -, _, -, _, -, _, -, _, capacities, _, -, _, -, _, -, h⟩ := h
  have rest : ∃ _ : Unit, ∃ _ : uniqueKeys NodeDefinition.id
      (fun id => "node IDs must be non-empty and unique: " ++ id) [] g.spec.nodes = .ok (),
      g.spec.nodes.forM (validateNode g.spec) = .ok () ∧ validateEdges g.spec = .ok () := by
    split at h
    · simp only [bind_eq_ok] at h
      obtain ⟨_, -, _, unique, _, nodes, _, -, _, -, edges⟩ := h
      exact ⟨(), unique, nodes, edges⟩
    · simp only [bind_eq_ok] at h
      obtain ⟨_, -, _, unique, _, nodes, _, -, _, -, edges⟩ := h
      exact ⟨(), unique, nodes, edges⟩
  obtain ⟨_, unique, nodes, edges⟩ := rest
  exact ⟨capacities, (uniqueKeys_ok unique).1, forM_eq_ok.mp nodes, edges⟩

/-- The edges of a valid graph have valid predicates. -/
theorem GraphDefinition.Valid.predicate
    {g : GraphDefinition} (valid : g.Valid) {edge : EdgeDefinition} (mem : edge ∈ g.spec.edges) :
  ∃ source, validatePredicate edge.when source = .ok ()
  := by
  have edges := valid.edges
  simp only [validateEdges, bind_eq_ok] at edges
  obtain ⟨_, -, _, each, -⟩ := edges
  have this := forM_eq_ok.mp each edge mem
  simp only [bind_eq_ok] at this
  obtain ⟨source, -, _, -, _, -, predicate⟩ := this
  exact ⟨source, predicate⟩

end Dagrail
