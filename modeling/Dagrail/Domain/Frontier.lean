import Mathlib.Data.List.Sort
import Dagrail.Domain.State

/-!
# Readiness

Which planned nodes may start, which wait, and which can no longer become ready; how much of each
resource kind is free; and which nodes a failed node holds up.
-/

namespace Dagrail

/-- Texts in byte order. -/
def sortTexts (texts : List String) : List String :=
  texts.insertionSort (· ≤ ·)

/-! ### Predicates -/

mutual

/-- Does the closed source node satisfy the predicate? The operators are tried in a fixed order,
and a predicate without one is never satisfied. -/
def predicateSatisfied (source : NodeRuntime) : Predicate → Bool
  | ⟨outcome, decision, evidence, policy, all, any⟩ =>
      if outcome ≠ "" then source.outcome = outcome
      else match decision, evidence, policy with
        | some m, _, _ => source.facts.decision.get m.key = m.value
        | none, some m, _ => source.facts.evidence.get m.key = m.value
        | none, none, some m => source.facts.policy.get m.key = m.value
        | none, none, none =>
            if all ≠ [] then allSatisfied source all
            else if any ≠ [] then anySatisfied source any
            else false

/-- Does the source satisfy every predicate of the list? -/
def allSatisfied (source : NodeRuntime) : List Predicate → Bool
  | [] => true
  | p :: ps => predicateSatisfied source p && allSatisfied source ps

/-- Does the source satisfy some predicate of the list? -/
def anySatisfied (source : NodeRuntime) : List Predicate → Bool
  | [] => false
  | p :: ps => predicateSatisfied source p || anySatisfied source ps

end

/-! ### Resources -/

namespace State

/-- The sum of the active leases of a resource kind. -/
def leasedQuantity (s : State) (kind : String) : Int :=
  (s.resources.values.filter fun lease =>
    decide (lease.status = .active) && lease.kind = kind).foldl
      (fun total lease => total + lease.quantity) 0

/-- What is left of a resource kind: the last declared capacity less the active leases. -/
def availableResourceCapacity (s : State) (kind : String) : Int :=
  match s.graph with
  | none => 0
  | some g =>
      (match g.spec.resourceCapacities.reverse.find? fun c => c.kind = kind with
        | some c => c.capacity
        | none => 0) - s.leasedQuantity kind

/-- Do the claims of the node fit what is left? -/
def resourcesReady (s : State) (node : NodeDefinition) : Bool :=
  node.resources.all fun request =>
    decide (request.quantity ≤ s.availableResourceCapacity request.kind)

/-! ### The frontier -/

/-- Has the node reached a status that opens its outgoing edges? -/
def closed (s : State) (nodeId : String) : Bool :=
  (s.nodes.get nodeId).status = .terminal || (s.nodes.get nodeId).status = .skipped

/-- Is the node in a status that no longer waits for anything? -/
def settled (s : State) (nodeId : String) : Bool :=
  (s.nodes.get nodeId).status = .terminal || (s.nodes.get nodeId).status = .superseded
    || (s.nodes.get nodeId).status = .skipped

/-- Does a closed source of the node fail the predicate of its edge? -/
def unreachable (s : State) (g : GraphDefinition) (nodeId : String) : Bool :=
  (g.incoming nodeId).any fun edge =>
    s.closed edge.source && !predicateSatisfied (s.nodes.get edge.source) edge.when

/-- Are all sources of the node closed? -/
def sourcesClosed (s : State) (g : GraphDefinition) (nodeId : String) : Bool :=
  (g.incoming nodeId).all fun edge => s.closed edge.source

end State

/-- The planned nodes by what they wait for. -/
structure Frontier where
  graphRevision : String
  ready : List String := []
  blocked : List String := []
  unreachable : List String := []
  resourceBlocked : List String := []
deriving DecidableEq

/-- The frontier of a state: each planned node is ready, blocked or unreachable. -/
def computeFrontier (s : State) : Frontier :=
  match s.graph with
  | none => { graphRevision := s.graphRevision }
  | some g =>
      let planned := g.spec.nodes.filter fun node => (s.nodes.get node.id).status = .planned
      let open_ := planned.filter fun node => !s.unreachable g node.id
      let ready := open_.filter fun node => s.sourcesClosed g node.id && s.resourcesReady node
      let short := open_.filter fun node => s.sourcesClosed g node.id && !s.resourcesReady node
      let blocked := open_.filter fun node => !(s.sourcesClosed g node.id && s.resourcesReady node)
      { graphRevision := s.graphRevision
        ready := sortTexts (ready.map NodeDefinition.id)
        blocked := sortTexts (blocked.map NodeDefinition.id)
        unreachable :=
          sortTexts ((planned.filter fun node => s.unreachable g node.id).map NodeDefinition.id)
        resourceBlocked := sortTexts (short.map NodeDefinition.id) }

/-! ### Dependency cuts -/

/-- Depth-first search from the stack over edges into nodes that are not settled. Every edge
pushes at most once, which bounds the fuel. -/
def descendantsLoop (s : State) (g : GraphDefinition) :
    Nat → List String → List String → List String
  | 0, _, seen => seen
  | _ + 1, [], seen => seen
  | fuel + 1, current :: stack, seen =>
      let (stack, seen) := (g.outgoing current).foldl
        (fun (acc : List String × List String) edge =>
          if acc.2.contains edge.target || s.settled edge.target then acc
          else (edge.target :: acc.1, edge.target :: acc.2))
        (stack, seen)
      descendantsLoop s g fuel stack seen

/-- The nodes downstream of a node that are not settled. -/
def descendants (s : State) (g : GraphDefinition) (nodeId : String) : List String :=
  descendantsLoop s g (g.spec.edges.length + 2) [nodeId] []

/-- The nodes held up by a root: those behind an edge whose predicate the root does not satisfy. -/
def dependencyCut (s : State) (rootNodeId : String) : Option (List String) :=
  s.graph.map fun g =>
    let heads := (g.outgoing rootNodeId).filter fun edge =>
      !predicateSatisfied (s.nodes.get rootNodeId) edge.when && !s.settled edge.target
    sortTexts (heads.flatMap fun edge => edge.target :: descendants s g edge.target).dedup

/-- A text is ready in a frontier exactly when it names a planned node whose incoming predicates
hold, whose sources are closed and whose claims fit. -/
theorem mem_ready
    {s : State} {g : GraphDefinition} {nodeId : String} (graph : s.graph = some g) :
  nodeId ∈ (computeFrontier s).ready ↔
    ∃ node ∈ g.spec.nodes, node.id = nodeId ∧ (s.nodes.get nodeId).status = .planned ∧
      s.unreachable g nodeId = false ∧ s.sourcesClosed g nodeId = true ∧
      s.resourcesReady node = true
  := by
  simp only [computeFrontier, graph, sortTexts, List.mem_insertionSort, List.mem_map,
    List.mem_filter, decide_eq_true_eq, Bool.not_eq_true', Bool.and_eq_true]
  constructor
  · rintro ⟨node, ⟨⟨⟨mem, planned⟩, reachable⟩, closed, fits⟩, rfl⟩
    exact ⟨node, mem, rfl, planned, reachable, closed, fits⟩
  · rintro ⟨node, mem, rfl, planned, reachable, closed, fits⟩
    exact ⟨node, ⟨⟨⟨mem, planned⟩, reachable⟩, closed, fits⟩, rfl⟩

/-- A node is unreachable in a frontier exactly when it is a planned node one of whose closed
sources fails the predicate of its edge. -/
theorem mem_unreachable
    {s : State} {g : GraphDefinition} {nodeId : String} (graph : s.graph = some g) :
  nodeId ∈ (computeFrontier s).unreachable ↔
    ∃ node ∈ g.spec.nodes, node.id = nodeId ∧ (s.nodes.get nodeId).status = .planned ∧
      s.unreachable g nodeId = true
  := by
  simp only [computeFrontier, graph, sortTexts, List.mem_insertionSort, List.mem_map,
    List.mem_filter, decide_eq_true_eq]
  constructor
  · rintro ⟨node, ⟨⟨mem, planned⟩, unreachable⟩, rfl⟩
    exact ⟨node, mem, rfl, planned, unreachable⟩
  · rintro ⟨node, mem, rfl, planned, unreachable⟩
    exact ⟨node, ⟨⟨mem, planned⟩, unreachable⟩, rfl⟩

end Dagrail
