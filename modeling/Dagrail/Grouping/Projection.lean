import Dagrail.Domain.Frontier
import Dagrail.Domain.Validate

/-!
# Group projection

The display of a graph with collapsed groups (`internal/grouping/projection.go`): which groups and
nodes are visible, in which lanes they are, and how the edges between them are aggregated. The
digests of lists of texts and of a whole projection are parameters.
-/

namespace Dagrail.Grouping

/-- The groups and nodes of a lane. -/
structure Lane where
  id : String
  title : String
  groupRefs : List String
  nodeRefs : List String
deriving DecidableEq

/-- What is displayed of a group. -/
structure GroupSummary where
  id : String
  title : String
  kind : String
  laneId : String
  parentGroupId : String
  summaryNodeId : String
  collapsedByDefault : Bool
  visible : Bool
  expanded : Bool
  breadcrumbs : List String
  childGroupIds : List String
  lifecycleStatus : String
  healthStatus : String
  displayStatus : String
  summaryOutcome : String
  summaryOutcomeClass : OutcomeClass
  nodeCount : Nat
  directNodeCount : Nat
  readyNodeCount : Nat
  activeNodeCount : Nat
  attemptCount : Nat
  activeAttemptCount : Nat
  currentCycle : Int
  openIncidentCount : Nat
  uncertainEffectCount : Nat
  unclosedResourceCount : Nat
  membershipDigest : String
deriving DecidableEq

/-- The edges of the graph between two visible ends, with one kind of predicate. -/
structure AggregateEdge where
  fromRef : String
  toRef : String
  predicateKind : String
  outcomeClass : String
  count : Nat
  edgeIds : List String
  edgeDigest : String
  inspectRef : String
deriving DecidableEq

/-- A projection without its own digest. -/
structure ProjectionBody where
  projectId : String
  graphRevision : String
  journalHead : String
  membershipDigest : String
  groups : List GroupSummary := []
  visibleGroupIds : List String := []
  visibleNodes : List String := []
  lanes : List Lane := []
  aggregateEdges : List AggregateEdge := []
deriving DecidableEq

/-- A projection. -/
structure Projection where
  body : ProjectionBody
  projectionDigest : String
deriving DecidableEq

/-- The digests of canonical documents: of a list of texts and of a projection. -/
structure Digests where
  texts : List String → String
  projection : ProjectionBody → String

/-! ### Groups -/

/-- The graph with the expansion of its groups: the overrides, else what a group declares. -/
structure GroupIndex where
  spec : GraphSpec
  overrides : Table Bool

namespace GroupIndex

variable (index : GroupIndex)

/-- The definition of a group. -/
def definition (groupId : String) : Option GroupDefinition :=
  index.spec.groups.find? fun group => group.id = groupId

/-- Is a group expanded? -/
def expanded (groupId : String) : Bool :=
  match index.definition groupId with
  | none => false
  | some group =>
      match index.overrides.lookup groupId with
      | some value => value
      | none => !group.collapsedByDefault

/-- The groups from one upward, as a walk over the parents visits them. A chain of an accepted graph
is shorter than the fuel. -/
def upward (parentOf : String → String) : Nat → String → List String
  | 0, _ => []
  | fuel + 1, current =>
      if current = "" then [] else current :: upward parentOf fuel (parentOf current)

/-- The chain of a group. -/
def chain (groupId : String) : List String :=
  upward index.spec.groupParent (maxGroupDepth + 2) groupId

/-- The groups above a group. -/
def above (groupId : String) : List String :=
  index.chain (index.spec.groupParent groupId)

/-- A group is visible when every group above it is expanded. -/
def visible (groupId : String) : Bool :=
  (index.above groupId).all index.expanded

/-- The groups right below a group. -/
def children (groupId : String) : List String :=
  sortTexts ((index.spec.groups.filter fun group => group.parentGroupId = groupId).map
    GroupDefinition.id)

/-- The nodes right in a group. -/
def direct (groupId : String) : List String :=
  sortTexts ((index.spec.nodes.filter fun node => node.groupId ≠ "" && node.groupId = groupId).map
    NodeDefinition.id)

/-- The nodes in a group and in the groups below it. -/
def members (groupId : String) : List String :=
  sortTexts ((index.spec.nodes.filter fun node => (index.chain node.groupId).contains groupId).map
    NodeDefinition.id)

end GroupIndex

/-- What stands for a node of a group: the first collapsed group of its chain, or the node. -/
def visibleEndpoint (index : GroupIndex) (groupId : String) : String :=
  if groupId = "" then "node:"
  else
    match (index.chain groupId).find? fun current => !index.expanded current with
    | some current => "group:" ++ current
    | none => "node:"

/-- The names of the groups from the outermost one down. -/
def breadcrumbs (index : GroupIndex) (groupId : String) : List String :=
  (index.chain groupId).reverse

/-- The lane of a group: the first one that its chain names, or the one of the outermost kind. -/
def groupLaneID (index : GroupIndex) (groupId : String) : String :=
  let definitions := (index.chain groupId).map fun current =>
    (index.definition current).getD { id := "", title := "", kind := "" }
  match definitions.find? fun group => group.laneId ≠ "" with
  | some group => group.laneId
  | none =>
      match (definitions.getLast?.map GroupDefinition.kind).getD
        (((index.definition groupId).map GroupDefinition.kind).getD "") with
      | "milestone" | "gate" => "milestones-gates"
      | "external" => "external-actions"
      | "governance" => "global-governance"
      | _ => "work-units"

/-- The lane of a node without a group. -/
def nodeKindLane : NodeKind → String
  | .milestone => "milestones-gates"
  | .gate => "milestones-gates"
  | .join => "milestones-gates"
  | .effect => "external-actions"
  | _ => "ungrouped"

/-! ### Summaries -/

/-- The classes of a frontier by node. -/
structure Readiness where
  ready : String → Bool
  blocked : String → Bool
  unreachable : String → Bool
  resourceBlocked : String → Bool

/-- The classes of a frontier. -/
def readinessOf (frontier : Frontier) : Readiness where
  ready := frontier.ready.contains
  blocked := frontier.blocked.contains
  unreachable := frontier.unreachable.contains
  resourceBlocked := frontier.resourceBlocked.contains

/-- The lifecycle text of a node. -/
def nodeLifecycle (runtime : NodeRuntime) (nodeId : String) (r : Readiness) : String :=
  match runtime.status with
  | .terminal => if runtime.outcome ≠ "" then runtime.outcome else "terminal"
  | .active => "active"
  | .superseded => "superseded"
  | .skipped => "skipped"
  | .planned =>
      if r.ready nodeId then "ready"
      else if r.unreachable nodeId then "unreachable"
      else if r.resourceBlocked nodeId || r.blocked nodeId then "blocked"
      else "planned"
  | .absent => "planned"

/-- The summary of a group. -/
def summarizeGroup (digests : Digests) (state : State) (index : GroupIndex) (r : Readiness)
    (group : GroupDefinition) : GroupSummary :=
  let members := index.members group.id
  let runtimes := members.map state.nodes.get
  let attempts := state.attempts.values.filter fun attempt => members.contains attempt.nodeId
  let hasFailure := runtimes.any fun runtime => runtime.status = .terminal &&
    (runtime.outcomeClass = .failure || runtime.outcomeClass = .cancelled)
  let hasBlocked := members.any fun id => r.blocked id || r.resourceBlocked id || r.unreachable id
  let allClosed := 0 < members.length && runtimes.all fun runtime =>
    runtime.status = .terminal || runtime.status = .superseded || runtime.status = .skipped
  let readyNodeCount := members.countP r.ready
  let activeNodeCount := runtimes.countP fun runtime => runtime.status = .active
  let openIncidentCount := state.incidents.values.countP fun incident =>
    members.contains incident.nodeId && incident.status ≠ .resolved
  let uncertainEffectCount := state.effects.values.countP fun effect =>
    members.contains effect.nodeId && (effect.status = .unknown || effect.status = .failed)
  let unclosedResourceCount := state.resources.values.countP fun resource =>
    members.contains resource.nodeId &&
      (resource.status ≠ .released || resource.closureStatus ≠ .confirmed)
  let summaryRuntime := state.nodes.get group.summaryNodeId
  let lifecycleStatus :=
    if group.summaryNodeId ≠ "" then nodeLifecycle summaryRuntime group.summaryNodeId r
    else if 0 < activeNodeCount then "active"
    else if 0 < readyNodeCount then "ready"
    else if hasFailure || hasBlocked then "blocked"
    else if allClosed then "completed"
    else if runtimes.any fun runtime => runtime.status = .planned then "planned"
    else "empty"
  let healthStatus :=
    if 0 < openIncidentCount || hasFailure then "blocked"
    else if 0 < uncertainEffectCount || 0 < unclosedResourceCount then "attention"
    else "clean"
  { id := group.id
    title := group.title
    kind := group.kind
    laneId := groupLaneID index group.id
    parentGroupId := group.parentGroupId
    summaryNodeId := group.summaryNodeId
    collapsedByDefault := group.collapsedByDefault
    visible := index.visible group.id
    expanded := index.visible group.id && index.expanded group.id
    breadcrumbs := breadcrumbs index group.id
    childGroupIds := index.children group.id
    lifecycleStatus
    healthStatus
    displayStatus := if healthStatus ≠ "clean" then healthStatus else lifecycleStatus
    summaryOutcome := if group.summaryNodeId ≠ "" then summaryRuntime.outcome else ""
    summaryOutcomeClass := if group.summaryNodeId ≠ "" then summaryRuntime.outcomeClass else .unset
    nodeCount := members.length
    directNodeCount := (index.direct group.id).length
    readyNodeCount
    activeNodeCount
    attemptCount := attempts.length
    activeAttemptCount := attempts.countP fun attempt => attempt.status ≠ .terminal
    currentCycle := (attempts.map Attempt.number).foldl max 0
    openIncidentCount
    uncertainEffectCount
    unclosedResourceCount
    membershipDigest := digests.texts members }

/-! ### Lanes -/

/-- The built-in lanes with their titles and orders. -/
def builtinLanes : List LaneDefinition :=
  [{ id := "work-units", title := "Work units", order := 100 },
    { id := "milestones-gates", title := "Milestones & gates", order := 200 },
    { id := "external-actions", title := "External actions", order := 300 },
    { id := "global-governance", title := "Global governance", order := 400 },
    { id := "ungrouped", title := "Ungrouped", order := 1000 }]

/-- Add a declared lane, or let it replace the title and order of the lane with its id. -/
def declareLane (lanes : List LaneDefinition) (declaration : LaneDefinition) :
    List LaneDefinition :=
  if (lanes.map LaneDefinition.id).contains declaration.id then
    lanes.map fun lane => if lane.id = declaration.id then declaration else lane
  else lanes ++ [declaration]

/-- The lanes before the sort. -/
def declaredLanes (spec : GraphSpec) : List LaneDefinition :=
  spec.lanes.foldl declareLane builtinLanes

/-- The lane of a node. -/
def nodeLaneID (index : GroupIndex) (node : NodeDefinition) : String :=
  if node.laneId ≠ "" then node.laneId
  else
    let laneId := if node.groupId ≠ "" then groupLaneID index node.groupId else ""
    if laneId ≠ "" then laneId else nodeKindLane node.kind

/-- The lanes with the visible groups and nodes in them, those with none left out. Every reference
goes to the lane with the id of its own lane. -/
def buildLanes (index : GroupIndex) (visibleGroupIds visibleNodeIds : List String) : List Lane :=
  let ordered := (declaredLanes index.spec).mergeSort fun a b =>
    if a.order = b.order then decide (a.id ≤ b.id) else decide (a.order ≤ b.order)
  let lanes := ordered.map fun lane =>
    { id := lane.id
      title := lane.title
      groupRefs := sortTexts ((visibleGroupIds.filter fun groupId =>
        groupLaneID index groupId = lane.id).map ("group:" ++ ·))
      nodeRefs := sortTexts ((index.spec.nodes.filter fun node =>
        visibleNodeIds.contains node.id && nodeLaneID index node = lane.id).map
          ("node:" ++ ·.id)) : Lane }
  lanes.filter fun lane => 0 < lane.groupRefs.length + lane.nodeRefs.length

/-! ### Aggregate edges -/

/-- The class text of an outcome, empty when there is none. -/
def classText : OutcomeClass → String
  | .unset => ""
  | .success => "success"
  | .retryable => "retryable"
  | .failure => "failure"
  | .cancelled => "cancelled"
  | .other text => text

/-- The class of the last outcome with the id. -/
def outcomeClassOf (outcomes : List Outcome) (id : String) : String :=
  ((outcomes.reverse.find? fun outcome => outcome.id = id).map
    fun outcome => classText outcome.outcomeClass).getD ""

mutual

/-- The kind of a predicate and the classes of the outcomes in it, each once and in order. -/
def predicateDescriptor (outcomes : List Outcome) : Predicate → String × List String
  | ⟨outcome, decision, evidence, policy, all, any⟩ =>
      if outcome ≠ "" then
        let outcomeClass := outcomeClassOf outcomes outcome
        ("outcome", if outcomeClass ≠ "" then [outcomeClass] else [])
      else if decision.isSome then ("decision", [])
      else if evidence.isSome then ("evidence", [])
      else if policy.isSome then ("policy", [])
      else if all.isEmpty then
        if any.isEmpty then ("unknown", [])
        else ("any", (sortTexts (predicateClasses outcomes any)).dedup)
      else ("all", (sortTexts (predicateClasses outcomes all)).dedup)

/-- The classes of several predicates, one after the other. -/
def predicateClasses (outcomes : List Outcome) : List Predicate → List String
  | [] => []
  | p :: ps => (predicateDescriptor outcomes p).2 ++ predicateClasses outcomes ps

end

/-- What distinguishes aggregate edges. -/
structure EdgeKey where
  fromRef : String
  toRef : String
  predicate : String
  outcomeClass : String
deriving DecidableEq

/-- The text that aggregate edges are sorted by. -/
def EdgeKey.text (key : EdgeKey) : String :=
  key.fromRef ++ "\x00" ++ key.toRef ++ "\x00" ++ key.predicate ++ "\x00" ++ key.outcomeClass

/-- The group of a node, empty for an unknown node. -/
def nodeGroup (spec : GraphSpec) (nodeId : String) : String :=
  ((spec.nodes.find? fun node => node.id = nodeId).map NodeDefinition.groupId).getD ""

/-- The end of an edge at a node: what stands for the node, by its reference. -/
def endpointRef (index : GroupIndex) (nodeId : String) : String :=
  let ref := visibleEndpoint index (nodeGroup index.spec nodeId)
  if "node:".toList.isPrefixOf ref.toList then "node:" ++ nodeId else ref

/-- The aggregate edge that an edge belongs to, none when its ends are the same. -/
def edgeKey (index : GroupIndex) (edge : EdgeDefinition) : Option EdgeKey :=
  let fromRef := endpointRef index edge.source
  let toRef := endpointRef index edge.target
  if fromRef = toRef then none
  else
    let outcomes := ((index.spec.nodes.find? fun node => node.id = edge.source).map
      NodeDefinition.outcomes).getD []
    let descriptor := predicateDescriptor outcomes edge.when
    some { fromRef, toRef, predicate := descriptor.1, outcomeClass := "+".intercalate descriptor.2 }

/-- The edges of one aggregate edge. -/
def keyedIds (index : GroupIndex) (key : EdgeKey) : List String :=
  sortTexts ((index.spec.edges.filter fun edge => edgeKey index edge = some key).map
    EdgeDefinition.id)

/-- The text without the prefix of digests. -/
def trimDigest (digest : String) : String :=
  if digestPrefix.toList.isPrefixOf digest.toList then
    String.ofList (digest.toList.drop digestPrefix.toList.length)
  else digest

/-- The aggregate edges, in the order of their texts. -/
def aggregateEdges (digests : Digests) (index : GroupIndex) : List AggregateEdge :=
  let keys := (index.spec.edges.filterMap (edgeKey index)).dedup
  (keys.mergeSort fun a b => decide (a.text ≤ b.text)).map fun key =>
    let ids := keyedIds index key
    let digest := digests.texts ids
    { fromRef := key.fromRef
      toRef := key.toRef
      predicateKind := key.predicate
      outcomeClass := key.outcomeClass
      count := ids.length
      edgeIds := ids
      edgeDigest := digest
      inspectRef := "group-edges:" ++ trimDigest digest }

/-! ### The projection -/

/-- The groups of the graph in the order of their ids. -/
def sortedGroups (spec : GraphSpec) : List GroupDefinition :=
  spec.groups.mergeSort fun a b => decide (a.id ≤ b.id)

/-- The visible groups. -/
def visibleGroupIds (index : GroupIndex) : List String :=
  ((sortedGroups index.spec).map GroupDefinition.id).filter index.visible

/-- The visible nodes. -/
def visibleNodes (index : GroupIndex) : List String :=
  sortTexts ((index.spec.nodes.filter fun node =>
    visibleEndpoint index node.groupId = "node:").map NodeDefinition.id)

/-- The projection of a state. -/
def build (digests : Digests) (state : State) (expandedOverrides : Table Bool) : Projection :=
  let empty : ProjectionBody :=
    { projectId := state.projectId
      graphRevision := state.graphRevision
      journalHead := state.headHash
      membershipDigest := digests.texts [] }
  match state.graph with
  | none => { body := empty, projectionDigest := digests.projection empty }
  | some graph =>
      let index : GroupIndex := { spec := graph.spec, overrides := expandedOverrides }
      let readiness := readinessOf (computeFrontier state)
      let membership := sortTexts (graph.spec.nodes.map fun node =>
        node.id ++ "\x00" ++ node.groupId)
      let body : ProjectionBody :=
        { empty with
          membershipDigest := digests.texts membership
          groups := (sortedGroups graph.spec).map (summarizeGroup digests state index readiness)
          visibleGroupIds := visibleGroupIds index
          visibleNodes := visibleNodes index
          lanes := buildLanes index (visibleGroupIds index) (visibleNodes index)
          aggregateEdges := aggregateEdges digests index }
      { body, projectionDigest := digests.projection body }

end Dagrail.Grouping
