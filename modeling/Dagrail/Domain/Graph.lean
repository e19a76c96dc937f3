import Dagrail.Foundation.Json
import Dagrail.Foundation.Table

/-!
# Graph definitions

A graph declares roles with capabilities, groups and lanes for display, resource capacities,
providers, nodes with their outcomes, and edges whose predicates speak about the source node.
-/

namespace Dagrail

/-- The class of a declared outcome. -/
inductive OutcomeClass where
  | unset
  | success
  | retryable
  | failure
  | cancelled
  | other (text : String)
deriving DecidableEq, Inhabited

/-- The kind of a node: a built-in kind or the name of a custom one. -/
inductive NodeKind where
  | custom (name : String)
  | task
  | review
  | decision
  | gate
  | effect
  | join
  | milestone
deriving DecidableEq

/-- The zero kind is the empty custom name. -/
instance : Inhabited NodeKind := ⟨.custom ""⟩

/-- Where a decision comes from. -/
inductive DecisionSource where
  | other (text : String)
  | human
  | llm
  | provider
deriving DecidableEq

/-- The zero source is the empty text. -/
instance : Inhabited DecisionSource := ⟨.other ""⟩

/-- What a role may do. -/
inductive Capability where
  | nodeRun
  | nodeReview
  | nodeDecide
  | nodeGate
  | effectApply
  | effectReconcile
  | graphChange
  | incidentManage
  | incidentControl
  | roleControl
  | resourceClose
  | other (text : String)
deriving DecidableEq

/-- A reference into an external system. -/
structure ExternalRef where
  system : String
  type : String
  id : String
  url : String := ""
  revision : String := ""
  contentDigest : String := ""
deriving DecidableEq

/-- A role and what it may do. -/
structure RoleDefinition where
  id : String
  capabilities : List Capability
deriving DecidableEq

/-- A display group. -/
structure GroupDefinition where
  id : String
  title : String
  kind : String
  parentGroupId : String := ""
  summaryNodeId : String := ""
  collapsedByDefault : Bool := false
  laneId : String := ""
deriving DecidableEq

/-- A display lane. -/
structure LaneDefinition where
  id : String
  title : String
  order : Int := 0
deriving DecidableEq

/-- How much of a resource kind may be leased at one time. -/
structure ResourceCapacity where
  kind : String
  capacity : Int
deriving DecidableEq

/-- A provider the graph relies on. -/
structure ProviderRef where
  id : String
  version : String
  schemaHash : String := ""
deriving DecidableEq

/-- A declared outcome of a node. -/
structure Outcome where
  id : String
  outcomeClass : OutcomeClass
deriving DecidableEq

/-- A resource claim of a node. -/
structure ResourceRequest where
  kind : String
  quantity : Int
deriving DecidableEq

/-- The closed key and source of a semantic choice. -/
structure DecisionContract where
  key : String
  source : DecisionSource
  providerId : String := ""
  policyId : String := ""
deriving DecidableEq

/-- A node of the graph. -/
structure NodeDefinition where
  id : String
  kind : NodeKind
  role : String := ""
  title : String := ""
  objective : String := ""
  parent : String := ""
  groupId : String := ""
  laneId : String := ""
  supersedes : String := ""
  inputs : Option Json := none
  outcomes : List Outcome := []
  retryBudget : Int := 0
  resources : List ResourceRequest := []
  decision : Option DecisionContract := none
  externalRefs : List ExternalRef := []
  metadata : List (String × String) := []
deriving DecidableEq

/-- The zero node, read where a node is absent. -/
instance : Inhabited NodeDefinition := ⟨{ id := "", kind := default }⟩

/-- A required value of a fact. -/
structure ValueMatch where
  key : String
  value : String
deriving DecidableEq

/-- A condition on the source node of an edge. Exactly one operator is set in an accepted
graph; the record, as in the source, has a place for each. -/
structure Predicate where
  outcome : String := ""
  decision : Option ValueMatch := none
  evidence : Option ValueMatch := none
  policy : Option ValueMatch := none
  all : List Predicate := []
  any : List Predicate := []

/-- An edge of the graph. -/
structure EdgeDefinition where
  id : String
  source : String
  target : String
  when : Predicate

/-- Name, references and labels of a graph. -/
structure GraphMetadata where
  name : String
  externalRefs : List ExternalRef := []
  labels : List (String × String) := []

/-- What a graph declares. -/
structure GraphSpec where
  roles : List RoleDefinition := []
  groups : List GroupDefinition := []
  lanes : List LaneDefinition := []
  nodes : List NodeDefinition := []
  edges : List EdgeDefinition := []
  resourceCapacities : List ResourceCapacity := []
  providers : List ProviderRef := []

/-- A graph document. -/
structure GraphDefinition where
  apiVersion : String
  kind : String
  metadata : GraphMetadata
  spec : GraphSpec

/-- The zero graph, which an absent graph decodes to. -/
def GraphDefinition.zero : GraphDefinition :=
  { apiVersion := "", kind := "", metadata := { name := "" }, spec := {} }

namespace NodeKind

/-- The capability a role needs to work on a node of the kind. -/
def requiredCapability : NodeKind → Option Capability
  | .task => some .nodeRun
  | .review => some .nodeReview
  | .decision => some .nodeDecide
  | .gate => some .nodeGate
  | .effect => some .effectApply
  | .join => none
  | .milestone => none
  | .custom name => if name.toList.contains '.' then some .nodeRun else none

/-- Is the kind one of the seven built-in ones? -/
def isBuiltin : NodeKind → Bool
  | .custom _ => false
  | _ => true

/-- Does the kind complete on its own, without an attempt? -/
def isDeterministic : NodeKind → Bool
  | .join => true
  | .milestone => true
  | _ => false

end NodeKind

namespace GraphDefinition

/-- The first node with the id. -/
def nodeDefinition (g : GraphDefinition) (nodeId : String) : Option NodeDefinition :=
  g.spec.nodes.find? fun node => node.id = nodeId

/-- Does the graph declare the role with the capability? -/
def roleHasCapability (g : Option GraphDefinition) (roleId : String) (capability : Capability) :
    Bool :=
  match g with
  | none => false
  | some g =>
      roleId ≠ "" && g.spec.roles.any fun role =>
        role.id = roleId && role.capabilities.contains capability

/-- The edges into a node, in declaration order. -/
def incoming (g : GraphDefinition) (nodeId : String) : List EdgeDefinition :=
  g.spec.edges.filter fun edge => edge.target = nodeId

/-- The edges out of a node, in declaration order. -/
def outgoing (g : GraphDefinition) (nodeId : String) : List EdgeDefinition :=
  g.spec.edges.filter fun edge => edge.source = nodeId

/-- A node found by its id has that id and is declared. -/
theorem nodeDefinition_some
    {g : GraphDefinition} {nodeId : String} {node : NodeDefinition}
    (found : g.nodeDefinition nodeId = some node) :
  node.id = nodeId ∧ node ∈ g.spec.nodes
  := by
  have matched := List.find?_some found
  simp only [decide_eq_true_eq] at matched
  exact ⟨matched, List.mem_of_find?_eq_some found⟩

end GraphDefinition

end Dagrail
