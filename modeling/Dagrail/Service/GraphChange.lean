import Dagrail.Domain.Validate
import Dagrail.Domain.Frontier
import Dagrail.Foundation.FirstMatch
import Dagrail.Service.Frame

/-!
# Graph changes

A patch is a list of operations on the lanes, groups, roles, nodes and edges of the graph. The
operations are applied in order to a copy of the graph; each one is checked against the copy and
against the run-time state, and the result must be a valid graph.

A node that is no longer planned is frozen: its definition, except for its group, and its incoming
edges are meant to stay as they are.
-/

namespace Dagrail

/-- One operation of a patch. -/
inductive PatchOperation where
  | addLane (lane : Option LaneDefinition)
  | updateLane (lane : Option LaneDefinition)
  | removeLane (laneId : String)
  | addGroup (group : Option GroupDefinition)
  | updateGroup (group : Option GroupDefinition)
  | removeGroup (groupId : String)
  | moveNodeToGroup (nodeId groupId : String)
  | addRole (role : Option RoleDefinition)
  | updateRole (role : Option RoleDefinition)
  | removeRole (roleId : String)
  | addNode (node : Option NodeDefinition)
  | updateNode (node : Option NodeDefinition)
  | removeNode (nodeId : String)
  | addEdge (edge : Option EdgeDefinition)
  | removeEdge (edgeId : String)
  | supersedeNode (nodeId : String) (node : Option NodeDefinition)
  | unsupported (op : String)

/-- A patch document. -/
structure GraphPatch where
  apiVersion : String := graphAPIVersion
  kind : String := "GraphPatch"
  operations : List PatchOperation

/-- A patch in progress: the changed graph, what was touched, the superseded nodes and the roots
of the change. -/
structure PatchState where
  graph : GraphDefinition
  impact : GraphImpact := {}
  superseded : List String := []
  changedRoots : List String := []

namespace GraphDefinition

/-- Replace the lanes. -/
def withLanes (g : GraphDefinition) (lanes : List LaneDefinition) : GraphDefinition :=
  { g with spec := { g.spec with lanes } }

/-- Replace the groups. -/
def withGroups (g : GraphDefinition) (groups : List GroupDefinition) : GraphDefinition :=
  { g with spec := { g.spec with groups } }

/-- Replace the roles. -/
def withRoles (g : GraphDefinition) (roles : List RoleDefinition) : GraphDefinition :=
  { g with spec := { g.spec with roles } }

/-- Replace the nodes. -/
def withNodes (g : GraphDefinition) (nodes : List NodeDefinition) : GraphDefinition :=
  { g with spec := { g.spec with nodes } }

/-- Replace the edges. -/
def withEdges (g : GraphDefinition) (edges : List EdgeDefinition) : GraphDefinition :=
  { g with spec := { g.spec with edges } }

/-- Is there a lane with the id? -/
def hasLane (g : GraphDefinition) (id : String) : Bool :=
  g.spec.lanes.any fun lane => lane.id = id

/-- Is there a group with the id? -/
def hasGroup (g : GraphDefinition) (id : String) : Bool :=
  g.spec.groups.any fun group => group.id = id

/-- Is there a role with the id? -/
def hasRole (g : GraphDefinition) (id : String) : Bool :=
  g.spec.roles.any fun role => role.id = id

/-- Is there a node with the id? -/
def hasNode (g : GraphDefinition) (id : String) : Bool :=
  g.spec.nodes.any fun node => node.id = id

/-- Is there an edge with the id? -/
def hasEdge (g : GraphDefinition) (id : String) : Bool :=
  g.spec.edges.any fun edge => edge.id = id

end GraphDefinition

/-- The ids of the active resources of an attempt. -/
def activeResourceIDs (s : State) (attemptId : String) : List String :=
  sortTexts ((s.resources.values.filter fun lease =>
    lease.attemptId = attemptId && lease.status = .active).map ResourceLease.id)

/-- The text of a node status in an error. -/
def NodeStatus.text : NodeStatus → String
  | .absent => ""
  | .planned => "planned"
  | .active => "active"
  | .terminal => "terminal"
  | .skipped => "skipped"
  | .superseded => "superseded"

/-! ### Operations -/

namespace PatchState

/-- Operations on lanes. -/
def addLane (w : PatchState) (lane : Option LaneDefinition) : Fallible PatchState := do
  let lane ← need (lane.filter fun lane => lane.id ≠ "") "addLane requires lane"
  check (!w.graph.hasLane lane.id) ("lane " ++ lane.id ++ " already exists")
  .ok { w with
    graph := w.graph.withLanes (w.graph.spec.lanes ++ [lane])
    impact := { w.impact with addedLanes := w.impact.addedLanes ++ [lane.id] } }

def updateLane (w : PatchState) (lane : Option LaneDefinition) : Fallible PatchState := do
  let lane ← need (lane.filter fun lane => lane.id ≠ "") "updateLane requires lane"
  check (w.graph.hasLane lane.id) ("unknown lane " ++ lane.id)
  .ok { w with
    graph := w.graph.withLanes
      (updateFirst (fun x => x.id = lane.id) (fun _ => lane) w.graph.spec.lanes)
    impact := { w.impact with updatedLanes := w.impact.updatedLanes ++ [lane.id] } }

def removeLane (w : PatchState) (laneId : String) : Fallible PatchState := do
  check (w.graph.hasLane laneId) ("unknown lane " ++ laneId)
  forbid (w.graph.spec.groups.find? fun group => group.laneId = laneId)
    fun group => "lane " ++ laneId ++ " is still referenced by group " ++ group.id
  forbid (w.graph.spec.nodes.find? fun node => node.laneId = laneId)
    fun node => "lane " ++ laneId ++ " is still referenced by node " ++ node.id
  .ok { w with
    graph := w.graph.withLanes (w.graph.spec.lanes.eraseP fun lane => lane.id = laneId)
    impact := { w.impact with removedLanes := w.impact.removedLanes ++ [laneId] } }

/-- Operations on groups. -/
def addGroup (w : PatchState) (group : Option GroupDefinition) : Fallible PatchState := do
  let group ← need (group.filter fun group => group.id ≠ "") "addGroup requires group"
  check (!w.graph.hasGroup group.id) ("group " ++ group.id ++ " already exists")
  .ok { w with
    graph := w.graph.withGroups (w.graph.spec.groups ++ [group])
    impact := { w.impact with addedGroups := w.impact.addedGroups ++ [group.id] } }

def updateGroup (w : PatchState) (group : Option GroupDefinition) : Fallible PatchState := do
  let group ← need (group.filter fun group => group.id ≠ "") "updateGroup requires group"
  check (w.graph.hasGroup group.id) ("unknown group " ++ group.id)
  .ok { w with
    graph := w.graph.withGroups
      (updateFirst (fun x => x.id = group.id) (fun _ => group) w.graph.spec.groups)
    impact := { w.impact with updatedGroups := w.impact.updatedGroups ++ [group.id] } }

def removeGroup (w : PatchState) (groupId : String) : Fallible PatchState := do
  check (w.graph.hasGroup groupId) ("unknown group " ++ groupId)
  forbid (w.graph.spec.groups.find? fun group => group.parentGroupId = groupId)
    fun group => "group " ++ groupId ++ " is still the parent of group " ++ group.id
  forbid (w.graph.spec.nodes.find? fun node => node.groupId = groupId)
    fun node => "group " ++ groupId ++ " is still referenced by node " ++ node.id
  .ok { w with
    graph := w.graph.withGroups (w.graph.spec.groups.eraseP fun group => group.id = groupId)
    impact := { w.impact with removedGroups := w.impact.removedGroups ++ [groupId] } }

def moveNodeToGroup (w : PatchState) (nodeId groupId : String) : Fallible PatchState := do
  let node ← need (w.graph.nodeDefinition nodeId) ("unknown node " ++ nodeId)
  check (groupId = "" || w.graph.hasGroup groupId) ("unknown group " ++ groupId)
  check (node.groupId ≠ groupId)
    ("node " ++ nodeId ++ " already has the requested group membership")
  .ok { w with
    graph := w.graph.withNodes
      (updateFirst (fun x => x.id = nodeId) (fun x => { x with groupId }) w.graph.spec.nodes)
    impact := { w.impact with movedNodes := w.impact.movedNodes ++ [nodeId] } }

/-- Operations on roles. -/
def addRole (w : PatchState) (role : Option RoleDefinition) : Fallible PatchState := do
  let role ← need (role.filter fun role => role.id ≠ "") "addRole requires role"
  check (!w.graph.hasRole role.id) ("role " ++ role.id ++ " already exists")
  .ok { w with
    graph := w.graph.withRoles (w.graph.spec.roles ++ [role])
    impact := { w.impact with addedRoles := w.impact.addedRoles ++ [role.id] } }

def updateRole (w : PatchState) (role : Option RoleDefinition) : Fallible PatchState := do
  let role ← need (role.filter fun role => role.id ≠ "") "updateRole requires role"
  check (w.graph.hasRole role.id) ("unknown role " ++ role.id)
  .ok { w with
    graph := w.graph.withRoles
      (updateFirst (fun x => x.id = role.id) (fun _ => role) w.graph.spec.roles)
    impact := { w.impact with updatedRoles := w.impact.updatedRoles ++ [role.id] } }

def removeRole (s : State) (w : PatchState) (roleId : String) : Fallible PatchState := do
  check (w.graph.hasRole roleId) ("unknown role " ++ roleId)
  forbid (w.graph.spec.nodes.find? fun node => node.role = roleId)
    fun node => "role " ++ roleId ++ " is still referenced by node " ++ node.id
  check (!(s.leases.lookup roleId).any RoleLease.active)
    ("role " ++ roleId ++ " has an active lease")
  .ok { w with
    graph := w.graph.withRoles (w.graph.spec.roles.eraseP fun role => role.id = roleId)
    impact := { w.impact with removedRoles := w.impact.removedRoles ++ [roleId] } }

/-- Operations on nodes. -/
def addNode (w : PatchState) (node : Option NodeDefinition) : Fallible PatchState := do
  let node ← need (node.filter fun node => node.id ≠ "") "addNode requires node"
  check (!w.graph.hasNode node.id) ("node " ++ node.id ++ " already exists")
  .ok { w with
    graph := w.graph.withNodes (w.graph.spec.nodes ++ [node])
    impact := { w.impact with addedNodes := w.impact.addedNodes ++ [node.id] }
    changedRoots := w.changedRoots ++ [node.id] }

def updateNode (s : State) (w : PatchState) (node : Option NodeDefinition) :
    Fallible PatchState := do
  let node ← need node "updateNode requires node"
  check (w.graph.hasNode node.id) ("unknown node " ++ node.id)
  check ((s.nodes.get node.id).status = .planned)
    ("node " ++ node.id ++ " contract is frozen in status " ++ (s.nodes.get node.id).status.text)
  .ok { w with
    graph := w.graph.withNodes
      (updateFirst (fun x => x.id = node.id) (fun _ => node) w.graph.spec.nodes)
    impact := { w.impact with updatedNodes := w.impact.updatedNodes ++ [node.id] }
    changedRoots := w.changedRoots ++ [node.id] }

/-- A planned node is removed together with every edge it is an end of. The node at the other end
of such an edge is not looked at. -/
def removeNode (s : State) (w : PatchState) (nodeId : String) : Fallible PatchState := do
  check (w.graph.hasNode nodeId) ("unknown node " ++ nodeId)
  check ((s.nodes.get nodeId).status = .planned)
    ("node " ++ nodeId ++ " cannot be removed in status " ++ (s.nodes.get nodeId).status.text)
  let incident := fun edge : EdgeDefinition => edge.source = nodeId || edge.target = nodeId
  let graph := w.graph.withNodes (w.graph.spec.nodes.eraseP fun node => node.id = nodeId)
  .ok { w with
    graph := graph.withEdges (w.graph.spec.edges.filter fun edge => !incident edge)
    impact := { w.impact with
      removedNodes := w.impact.removedNodes ++ [nodeId]
      removedEdges := w.impact.removedEdges
        ++ ((w.graph.spec.edges.filter incident).map EdgeDefinition.id).reverse }
    changedRoots := w.changedRoots ++ [nodeId] }

/-- Operations on edges. -/
def addEdge (s : State) (w : PatchState) (edge : Option EdgeDefinition) :
    Fallible PatchState := do
  let edge ← need (edge.filter fun edge => edge.id ≠ "") "addEdge requires edge"
  check (!w.graph.hasEdge edge.id) ("edge " ++ edge.id ++ " already exists")
  forbid ((s.nodes.lookup edge.target).filter fun runtime => runtime.status ≠ .planned)
    fun runtime => "cannot change incoming contract of node " ++ edge.target ++ " in status "
      ++ runtime.status.text
  .ok { w with
    graph := w.graph.withEdges (w.graph.spec.edges ++ [edge])
    impact := { w.impact with addedEdges := w.impact.addedEdges ++ [edge.id] }
    changedRoots := w.changedRoots ++ [edge.source, edge.target] }

def removeEdge (s : State) (w : PatchState) (edgeId : String) : Fallible PatchState := do
  let edge ← need (w.graph.spec.edges.find? fun edge => edge.id = edgeId)
    ("unknown edge " ++ edgeId)
  check ((s.nodes.get edge.target).status = .planned)
    ("cannot change incoming contract of node " ++ edge.target ++ " in status "
      ++ (s.nodes.get edge.target).status.text)
  .ok { w with
    graph := w.graph.withEdges (w.graph.spec.edges.eraseP fun edge => edge.id = edgeId)
    impact := { w.impact with removedEdges := w.impact.removedEdges ++ [edgeId] }
    changedRoots := w.changedRoots ++ [edge.source, edge.target] }

/-- A node is superseded by a new one. The old node stays in the graph. -/
def supersedeNode (s : State) (w : PatchState) (nodeId : String) (node : Option NodeDefinition) :
    Fallible PatchState := do
  let node ← need (node.filter fun node => nodeId ≠ "" && node.id ≠ "" && node.id ≠ nodeId)
    "supersedeNode requires distinct old and new node IDs"
  check (w.graph.hasNode nodeId) ("unknown node " ++ nodeId)
  check (!w.graph.hasNode node.id) ("replacement node " ++ node.id ++ " already exists")
  check ((s.latestAttempt nodeId).all fun attempt => activeResourceIDs s attempt.id = [])
    ("node " ++ nodeId ++ " has active resources; close or reconcile them before superseding")
  let replacement := { node with supersedes := nodeId }
  .ok { w with
    graph := w.graph.withNodes (w.graph.spec.nodes ++ [replacement])
    superseded := w.superseded ++ [nodeId]
    impact := { w.impact with
      addedNodes := w.impact.addedNodes ++ [replacement.id]
      updatedNodes := w.impact.updatedNodes ++ [nodeId] }
    changedRoots := w.changedRoots ++ [nodeId, replacement.id] }

/-- One operation of a patch. -/
def apply (s : State) (w : PatchState) : PatchOperation → Fallible PatchState
  | .addLane lane => w.addLane lane
  | .updateLane lane => w.updateLane lane
  | .removeLane laneId => w.removeLane laneId
  | .addGroup group => w.addGroup group
  | .updateGroup group => w.updateGroup group
  | .removeGroup groupId => w.removeGroup groupId
  | .moveNodeToGroup nodeId groupId => w.moveNodeToGroup nodeId groupId
  | .addRole role => w.addRole role
  | .updateRole role => w.updateRole role
  | .removeRole roleId => w.removeRole s roleId
  | .addNode node => w.addNode node
  | .updateNode node => w.updateNode s node
  | .removeNode nodeId => w.removeNode s nodeId
  | .addEdge edge => w.addEdge s edge
  | .removeEdge edgeId => w.removeEdge s edgeId
  | .supersedeNode nodeId node => w.supersedeNode s nodeId node
  | .unsupported op => .error ("unsupported graph patch operation " ++ op)

end PatchState

/-! ### Patches -/

/-- Breadth-first search from the queue over all edges. Every edge is queued at most once for its
source, which bounds the fuel. -/
def patchCutLoop (g : GraphDefinition) : Nat → List String → List String → List String
  | 0, _, seen => seen
  | _ + 1, [], seen => seen
  | fuel + 1, current :: queue, seen =>
      if seen.contains current then patchCutLoop g fuel queue seen
      else
        patchCutLoop g fuel (queue ++ (g.outgoing current).map EdgeDefinition.target)
          (current :: seen)

/-- The changed roots and everything downstream of them. -/
def patchDependencyCut (g : GraphDefinition) (roots : List String) : List String :=
  sortTexts (patchCutLoop g (roots.length + g.spec.edges.length + 1) roots [])

/-- All lists of an impact sorted. -/
def GraphImpact.sorted (i : GraphImpact) : GraphImpact :=
  { i with
    addedNodes := sortTexts i.addedNodes
    updatedNodes := sortTexts i.updatedNodes
    removedNodes := sortTexts i.removedNodes
    addedEdges := sortTexts i.addedEdges
    removedEdges := sortTexts i.removedEdges
    addedRoles := sortTexts i.addedRoles
    updatedRoles := sortTexts i.updatedRoles
    removedRoles := sortTexts i.removedRoles
    addedGroups := sortTexts i.addedGroups
    updatedGroups := sortTexts i.updatedGroups
    removedGroups := sortTexts i.removedGroups
    addedLanes := sortTexts i.addedLanes
    updatedLanes := sortTexts i.updatedLanes
    removedLanes := sortTexts i.removedLanes
    movedNodes := sortTexts i.movedNodes
    dependencyCut := sortTexts i.dependencyCut }

/-- Apply a patch to the graph of a state: the new graph, what it touches, and the nodes it
supersedes. -/
def applyGraphPatch (p : Platform) (s : State) (patch : GraphPatch) :
    Fallible (GraphDefinition × GraphImpact × List String) := do
  let w ← patch.operations.foldlM (PatchState.apply s) { graph := s.graph.getD .zero }
  validateGraph p.screenGraph w.graph
  let impact := { w.impact with dependencyCut := patchDependencyCut w.graph w.changedRoots }
  .ok (w.graph, impact.sorted, w.superseded)

/-- An accepted patch is an accepted run of its operations that ends in a valid graph. -/
theorem applyGraphPatch_ok
    {p : Platform} {s : State} {patch : GraphPatch} {g : GraphDefinition} {impact : GraphImpact}
    {superseded : List String}
    (accepted : applyGraphPatch p s patch = .ok (g, impact, superseded)) :
  ∃ w : PatchState,
    patch.operations.foldlM (PatchState.apply s) { graph := s.graph.getD .zero } = .ok w ∧
    validateGraph p.screenGraph w.graph = .ok () ∧ w.graph = g ∧ w.superseded = superseded
  := by
  simp only [applyGraphPatch, bind_eq_ok, Except.ok.injEq, Prod.mk.injEq] at accepted
  obtain ⟨w, run, _, valid, rfl, -, rfl⟩ := accepted
  exact ⟨w, run, valid, rfl, rfl⟩

end Dagrail
