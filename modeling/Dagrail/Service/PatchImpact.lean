import Dagrail.Foundation.Changes
import Dagrail.Domain.CutIndex
import Dagrail.Domain.WellFormed
import Dagrail.Service.FrozenContract
import Dagrail.Service.Writes

/-!
# The impact of a patch

The impact of a patch is collected operation by operation. It lists every declaration that differs
between the old graph and the new one, and its cut has the nodes downstream of those whose contracts
have changed. A node that is only moved to another group is not in the cut, and a node that has lost
an edge together with the source of that edge need not be.
-/

namespace Dagrail

namespace PatchState

/-! ### Listing the changes of one operation -/

/-- The changes of a patch in progress are listed, and the nodes with changed contracts are roots. -/
structure Tracked (g : GraphDefinition) (w : PatchState) : Prop where
  lanes : Listed LaneDefinition.id id g.spec.lanes w.graph.spec.lanes w.impact.addedLanes
    w.impact.updatedLanes w.impact.removedLanes
  groups : Listed GroupDefinition.id id g.spec.groups w.graph.spec.groups w.impact.addedGroups
    w.impact.updatedGroups w.impact.removedGroups
  roles : Listed RoleDefinition.id id g.spec.roles w.graph.spec.roles w.impact.addedRoles
    w.impact.updatedRoles w.impact.removedRoles
  nodes : Listed NodeDefinition.id id g.spec.nodes w.graph.spec.nodes w.impact.addedNodes
    (w.impact.updatedNodes ++ w.impact.movedNodes) w.impact.removedNodes
  edges : Listed EdgeDefinition.id id g.spec.edges w.graph.spec.edges w.impact.addedEdges []
    w.impact.removedEdges
  roots : Listed NodeDefinition.id NodeDefinition.withoutGroup g.spec.nodes w.graph.spec.nodes
    w.changedRoots w.changedRoots w.changedRoots
  gained : ∀ edge ∈ w.graph.spec.edges, edge ∉ g.spec.edges → edge.target ∈ w.changedRoots
  lost : ∀ edge ∈ g.spec.edges, edge ∉ w.graph.spec.edges →
    edge.target ∈ w.changedRoots ∨ edge.source ∈ w.impact.removedNodes

/-- A graph with unique identifiers has no changes before the first operation. -/
theorem Tracked.start
    {g : GraphDefinition} (lanes : (g.spec.lanes.map LaneDefinition.id).Nodup)
    (groups : (g.spec.groups.map GroupDefinition.id).Nodup)
    (roles : (g.spec.roles.map RoleDefinition.id).Nodup)
    (nodes : (g.spec.nodes.map NodeDefinition.id).Nodup)
    (edges : (g.spec.edges.map EdgeDefinition.id).Nodup) :
  Tracked g { graph := g }
  := by
  refine ⟨.start lanes, .start groups, .start roles, .start nodes, .start edges, .start nodes, ?_,
    ?_⟩
  · intro edge mem new
    exact absurd mem new
  · intro edge mem gone
    exact absurd mem gone

variable {g : GraphDefinition} {s : State} {w w' : PatchState}

/-- Every operation lists what it changes. -/
theorem Tracked.step
    {op : PatchOperation} (tracked : Tracked g w) (accepted : apply s w op = .ok w') :
  Tracked g w'
  := by
  obtain ⟨lanes, groups, roles, nodes, edges, roots, gained, lost⟩ := tracked
  have more : ∀ {l : List String} (k : String), l ⊆ l ++ [k] := fun {_} _ =>
    List.subset_append_left _ _
  cases op with
  | addLane lane =>
      simp only [apply, addLane, bind_eq_ok, check_eq_ok, Except.ok.injEq, Bool.not_eq_true']
        at accepted
      obtain ⟨lane, -, _, fresh, rfl⟩ := accepted
      exact ⟨lanes.add fresh, groups, roles, nodes, edges, roots, gained, lost⟩
  | updateLane lane =>
      simp only [apply, updateLane, bind_eq_ok, Except.ok.injEq] at accepted
      obtain ⟨lane, -, _, -, rfl⟩ := accepted
      exact ⟨lanes.replace lane, groups, roles, nodes, edges, roots, gained, lost⟩
  | removeLane laneId =>
      simp only [apply, removeLane, bind_eq_ok, Except.ok.injEq] at accepted
      obtain ⟨_, -, _, -, _, -, rfl⟩ := accepted
      exact ⟨lanes.remove laneId, groups, roles, nodes, edges, roots, gained, lost⟩
  | addGroup group =>
      simp only [apply, addGroup, bind_eq_ok, check_eq_ok, Except.ok.injEq, Bool.not_eq_true']
        at accepted
      obtain ⟨group, -, _, fresh, rfl⟩ := accepted
      exact ⟨lanes, groups.add fresh, roles, nodes, edges, roots, gained, lost⟩
  | updateGroup group =>
      simp only [apply, updateGroup, bind_eq_ok, Except.ok.injEq] at accepted
      obtain ⟨group, -, _, -, rfl⟩ := accepted
      exact ⟨lanes, groups.replace group, roles, nodes, edges, roots, gained, lost⟩
  | removeGroup groupId =>
      simp only [apply, removeGroup, bind_eq_ok, Except.ok.injEq] at accepted
      obtain ⟨_, -, _, -, _, -, rfl⟩ := accepted
      exact ⟨lanes, groups.remove groupId, roles, nodes, edges, roots, gained, lost⟩
  | addRole role =>
      simp only [apply, addRole, bind_eq_ok, check_eq_ok, Except.ok.injEq, Bool.not_eq_true']
        at accepted
      obtain ⟨role, -, _, fresh, rfl⟩ := accepted
      exact ⟨lanes, groups, roles.add fresh, nodes, edges, roots, gained, lost⟩
  | updateRole role =>
      simp only [apply, updateRole, bind_eq_ok, Except.ok.injEq] at accepted
      obtain ⟨role, -, _, -, rfl⟩ := accepted
      exact ⟨lanes, groups, roles.replace role, nodes, edges, roots, gained, lost⟩
  | removeRole roleId =>
      simp only [apply, removeRole, bind_eq_ok, Except.ok.injEq] at accepted
      obtain ⟨_, -, _, -, _, -, rfl⟩ := accepted
      exact ⟨lanes, groups, roles.remove roleId, nodes, edges, roots, gained, lost⟩
  | moveNodeToGroup nodeId groupId =>
      simp only [apply, moveNodeToGroup, bind_eq_ok, Except.ok.injEq] at accepted
      obtain ⟨_, -, _, -, _, -, rfl⟩ := accepted
      refine ⟨lanes, groups, roles, ?_, edges, ?_, gained, lost⟩
      · refine (nodes.mono (List.Subset.refl _) ?_ (List.Subset.refl _)).update (fun _ named => named)
          (.inl ?_)
        · rw [← List.append_assoc]
          exact more nodeId
        · simp
      · -- the group of a node is not part of its contract
        exact roots.update (fun _ named => named) (.inr fun _ => rfl)
  | addNode node =>
      simp only [apply, addNode, bind_eq_ok, check_eq_ok, Except.ok.injEq, Bool.not_eq_true']
        at accepted
      obtain ⟨node, -, _, fresh, rfl⟩ := accepted
      refine ⟨lanes, groups, roles, nodes.add fresh, edges, ?_, ?_, ?_⟩
      · exact (roots.add fresh).mono (List.Subset.refl _) (more _) (more _)
      · exact fun edge mem new => more _ (gained edge mem new)
      · exact fun edge mem gone => (lost edge mem gone).imp_left fun root => more _ root
  | updateNode node =>
      simp only [apply, updateNode, bind_eq_ok, Except.ok.injEq] at accepted
      obtain ⟨node, -, _, -, _, -, rfl⟩ := accepted
      refine ⟨lanes, groups, roles, ?_, edges, ?_, ?_, ?_⟩
      · refine (nodes.replace node).mono (List.Subset.refl _) ?_ (List.Subset.refl _)
        intro k mem
        simp only [List.mem_append, List.mem_singleton] at mem ⊢
        tauto
      · exact (roots.replace node).mono (more _) (List.Subset.refl _) (more _)
      · exact fun edge mem new => more _ (gained edge mem new)
      · exact fun edge mem gone => (lost edge mem gone).imp_left fun root => more _ root
  | removeNode nodeId =>
      simp only [apply, removeNode, bind_eq_ok, Except.ok.injEq] at accepted
      obtain ⟨_, -, _, -, rfl⟩ := accepted
      refine ⟨lanes, groups, roles, nodes.remove nodeId, ?_, ?_, ?_, ?_⟩
      · refine (edges.mono (List.Subset.refl _) (List.Subset.refl _)
          (List.subset_append_left _ _)).erase List.filter_sublist ?_
        intro edge mem gone
        apply List.mem_append_right
        rw [List.mem_reverse]
        refine List.mem_map_of_mem (List.mem_filter.mpr ⟨mem, ?_⟩)
        by_contra kept
        exact gone (List.mem_filter.mpr ⟨mem, by simpa using kept⟩)
      · exact (roots.remove nodeId).mono (more _) (more _) (List.Subset.refl _)
      · intro edge mem new
        exact more _ (gained edge (List.mem_filter.mp mem).1 new)
      · intro edge mem gone
        by_cases before : edge ∈ w.graph.spec.edges
        · -- the edge goes with its source or its target
          have incident : edge.source = nodeId ∨ edge.target = nodeId := by
            by_contra kept
            exact gone (List.mem_filter.mpr ⟨before, by simpa using kept⟩)
          rcases incident with source | target
          · exact .inr (List.mem_append_right _ (by simp [source]))
          · exact .inl (List.mem_append_right _ (by simp [target]))
        · exact (lost edge mem before).imp (fun root => more _ root) fun removed => more _ removed
  | addEdge edge =>
      simp only [apply, addEdge, bind_eq_ok, check_eq_ok, Except.ok.injEq, Bool.not_eq_true']
        at accepted
      obtain ⟨edge, -, _, fresh, _, -, rfl⟩ := accepted
      have grown : w.changedRoots ⊆ w.changedRoots ++ [edge.source, edge.target] :=
        List.subset_append_left _ _
      refine ⟨lanes, groups, roles, nodes, edges.add fresh, roots.mono grown grown grown, ?_, ?_⟩
      · intro other mem new
        rcases List.mem_append.mp mem with mem | last
        · exact grown (gained other mem new)
        · obtain rfl := List.mem_singleton.mp last
          exact List.mem_append_right _ (by simp)
      · intro other mem gone
        refine (lost other mem fun kept => gone (List.mem_append_left _ kept)).imp_left ?_
        exact fun root => grown root
  | removeEdge edgeId =>
      simp only [apply, removeEdge, bind_eq_ok, need_eq_ok, Except.ok.injEq] at accepted
      obtain ⟨edge, found, _, -, rfl⟩ := accepted
      have grown : w.changedRoots ⊆ w.changedRoots ++ [edge.source, edge.target] :=
        List.subset_append_left _ _
      refine ⟨lanes, groups, roles, nodes, edges.remove edgeId, roots.mono grown grown grown, ?_,
        ?_⟩
      · intro other mem new
        exact grown (gained other (List.mem_of_mem_eraseP mem) new)
      · intro other mem gone
        by_cases before : other ∈ w.graph.spec.edges
        · -- the first match is the only one
          have named : other.id = edgeId := by
            by_contra differ
            exact gone ((List.mem_eraseP_of_neg (by simpa using differ)).mpr before)
          have same : edge.id = edgeId := by simpa using List.find?_some found
          obtain rfl := List.inj_on_of_nodup_map edges.nodup before (List.mem_of_find?_eq_some found)
            (named.trans same.symm)
          exact .inl (List.mem_append_right _ (by simp))
        · exact (lost other mem before).imp_left fun root => grown root
  | supersedeNode nodeId node =>
      simp only [apply, supersedeNode, bind_eq_ok, check_eq_ok, Except.ok.injEq,
        Bool.not_eq_true'] at accepted
      obtain ⟨node, -, _, -, _, fresh, _, -, rfl⟩ := accepted
      have grown : w.changedRoots ⊆ w.changedRoots ++ [nodeId, node.id] :=
        List.subset_append_left _ _
      refine ⟨lanes, groups, roles, ?_, edges, ?_, ?_, ?_⟩
      · refine (nodes.add (x := { node with supersedes := nodeId }) fresh).mono (List.Subset.refl _)
          ?_ (List.Subset.refl _)
        intro k mem
        simp only [List.mem_append, List.mem_singleton] at mem ⊢
        tauto
      · have rooted := roots.add (x := { node with supersedes := nodeId }) fresh
        refine rooted.mono ?_ grown grown
        intro k mem
        simp only [List.mem_append, List.mem_cons, List.not_mem_nil, or_false] at mem ⊢
        tauto
      · exact fun edge mem new => grown (gained edge mem new)
      · exact fun edge mem gone => (lost edge mem gone).imp_left fun root => grown root
  | unsupported op => simp [apply] at accepted

/-- So does every run of operations. -/
theorem Tracked.run
    {ops : List PatchOperation} (tracked : Tracked g w)
    (accepted : ops.foldlM (apply s) w = .ok w') :
  Tracked g w'
  := by
  induction ops generalizing w with
  | nil =>
      obtain rfl := Except.ok.inj accepted
      exact tracked
  | cons op rest ih =>
      rw [List.foldlM_cons, bind_eq_ok] at accepted
      obtain ⟨x, first, later⟩ := accepted
      exact ih (tracked.step first) later

end PatchState

/-! ### The cut -/

/-- Of the edges out of nodes that have not been seen, some come out of the current one. -/
theorem split_edges
    (g : GraphDefinition) {current : String} {seen : List String} (unseen : current ∉ seen) :
  (g.spec.edges.filter fun edge => !seen.contains edge.source).length
    = (g.outgoing current).length
      + (g.spec.edges.filter fun edge => !(current :: seen).contains edge.source).length
  := by
  rw [List.length_eq_length_filter_add
    (l := g.spec.edges.filter fun edge => !seen.contains edge.source)
    fun edge => edge.source = current, List.filter_filter, List.filter_filter]
  congr 2
  · apply List.filter_congr
    intro edge _
    by_cases same : edge.source = current <;> simp [same, unseen]
  · apply List.filter_congr
    intro edge _
    simp

/-- A search that has enough fuel sees the queue and everything downstream. What is left to queue are
the edges out of nodes that have not been seen. -/
theorem patchCutLoop_closed
    (g : GraphDefinition) {fuel : Nat} {queue seen : List String}
    (closed : ∀ a ∈ seen, ∀ edge ∈ g.spec.edges, edge.source = a →
      edge.target ∈ seen ∨ edge.target ∈ queue)
    (enough : queue.length
      + (g.spec.edges.filter fun edge => !seen.contains edge.source).length < fuel) :
  (∀ a, a ∈ seen ∨ a ∈ queue → a ∈ patchCutLoop g fuel queue seen) ∧
    ∀ edge ∈ g.spec.edges, edge.source ∈ patchCutLoop g fuel queue seen →
      edge.target ∈ patchCutLoop g fuel queue seen
  := by
  induction fuel generalizing queue seen with
  | zero => omega
  | succ fuel ih =>
      cases queue with
      | nil =>
          refine ⟨by simp [patchCutLoop], ?_⟩
          intro edge mem source
          simpa [patchCutLoop] using closed edge.source source edge mem rfl
      | cons current queue =>
          rw [patchCutLoop]
          split
          · rename_i known
            rw [List.contains_iff_mem] at known
            have next := @ih queue seen ?_ ?_
            · refine ⟨?_, next.2⟩
              rintro a (old | queued)
              · exact next.1 a (.inl old)
              · rcases List.mem_cons.mp queued with rfl | queued
                · exact next.1 a (.inl known)
                · exact next.1 a (.inr queued)
            · intro a mem edge edgeMem source
              rcases closed a mem edge edgeMem source with old | queued
              · exact .inl old
              · rcases List.mem_cons.mp queued with same | queued
                · exact .inl (same ▸ known)
                · exact .inr queued
            · simp only [List.length_cons] at enough
              omega
          · rename_i unknown
            have next := @ih (queue ++ (g.outgoing current).map EdgeDefinition.target)
              (current :: seen) ?_ ?_
            · refine ⟨?_, next.2⟩
              rintro a (old | queued)
              · exact next.1 a (.inl (List.mem_cons_of_mem _ old))
              · rcases List.mem_cons.mp queued with rfl | queued
                · exact next.1 a (.inl (by simp))
                · exact next.1 a (.inr (List.mem_append_left _ queued))
            · intro a mem edge edgeMem source
              rcases List.mem_cons.mp mem with rfl | mem
              · right
                apply List.mem_append_right
                exact List.mem_map_of_mem (List.mem_filter.mpr ⟨edgeMem, by simpa using source⟩)
              · rcases closed a mem edge edgeMem source with old | queued
                · exact .inl (List.mem_cons_of_mem _ old)
                · rcases List.mem_cons.mp queued with same | queued
                  · exact .inl (by simp [same])
                  · exact .inr (List.mem_append_left _ queued)
            · -- the edges out of the current node are queued now
              have split := split_edges g (by simpa using unknown)
              simp only [List.length_cons, List.length_append, List.length_map] at enough ⊢
              omega

/-- The cut has the roots and everything downstream of them. -/
theorem mem_patchDependencyCut
    (g : GraphDefinition) {roots : List String} {root id : String} (mem : root ∈ roots)
    (downstream : Relation.ReflTransGen g.spec.Leads root id) :
  id ∈ patchDependencyCut g roots
  := by
  have search := @patchCutLoop_closed g (roots.length + g.spec.edges.length + 1) roots []
    (by simp) (by simp)
  rw [patchDependencyCut, mem_sortTexts]
  induction downstream with
  | refl => exact search.1 root (.inr mem)
  | tail _ leads ih =>
      obtain ⟨edge, known, rfl, rfl⟩ := leads
      exact search.2 edge known ih

/-! ### The impact is complete -/

/-- The impact lists all changes from one graph to another, and its cut has what is downstream of a
node that is new, gone or different apart from its group, of a node that gains an edge, and of one
that loses an edge whose source is not removed. -/
structure ImpactComplete (g g' : GraphDefinition) (impact : GraphImpact) : Prop where
  lanes : Listed LaneDefinition.id id g.spec.lanes g'.spec.lanes impact.addedLanes
    impact.updatedLanes impact.removedLanes
  groups : Listed GroupDefinition.id id g.spec.groups g'.spec.groups impact.addedGroups
    impact.updatedGroups impact.removedGroups
  roles : Listed RoleDefinition.id id g.spec.roles g'.spec.roles impact.addedRoles
    impact.updatedRoles impact.removedRoles
  nodes : Listed NodeDefinition.id id g.spec.nodes g'.spec.nodes impact.addedNodes
    (impact.updatedNodes ++ impact.movedNodes) impact.removedNodes
  edges : Listed EdgeDefinition.id id g.spec.edges g'.spec.edges impact.addedEdges []
    impact.removedEdges
  changedNodes : ∀ nodeId, (g.nodeDefinition nodeId).map NodeDefinition.withoutGroup
      ≠ (g'.nodeDefinition nodeId).map NodeDefinition.withoutGroup →
    ∀ id, Relation.ReflTransGen g'.spec.Leads nodeId id → id ∈ impact.dependencyCut
  gained : ∀ edge ∈ g'.spec.edges, edge ∉ g.spec.edges →
    ∀ id, Relation.ReflTransGen g'.spec.Leads edge.target id → id ∈ impact.dependencyCut
  lost : ∀ edge ∈ g.spec.edges, edge ∉ g'.spec.edges → edge.source ∉ impact.removedNodes →
    ∀ id, Relation.ReflTransGen g'.spec.Leads edge.target id → id ∈ impact.dependencyCut

/-- A node whose declaration is new, gone or different apart from its group is a root. -/
theorem PatchState.Tracked.root
    {g : GraphDefinition} {w : PatchState} (tracked : PatchState.Tracked g w) {nodeId : String}
    (differ : (g.nodeDefinition nodeId).map NodeDefinition.withoutGroup
      ≠ (w.graph.nodeDefinition nodeId).map NodeDefinition.withoutGroup) :
  nodeId ∈ w.changedRoots
  := by
  have absent : ∀ {x : GraphDefinition}, x.nodeDefinition nodeId = none →
      nodeId ∉ x.spec.nodes.map NodeDefinition.id := by
    intro x none_ mem
    obtain ⟨node, mem, named⟩ := List.mem_map.mp mem
    simpa [named] using List.find?_eq_none.mp none_ node mem
  cases old : g.nodeDefinition nodeId with
  | none =>
      cases new : w.graph.nodeDefinition nodeId with
      | none => simp [old, new] at differ
      | some b =>
          obtain ⟨rfl, mem⟩ := GraphDefinition.nodeDefinition_some new
          exact tracked.roots.appeared b mem (absent old)
  | some a =>
      obtain ⟨rfl, memA⟩ := GraphDefinition.nodeDefinition_some old
      cases new : w.graph.nodeDefinition a.id with
      | none => exact tracked.roots.vanished a memA (absent new)
      | some b =>
          obtain ⟨same, memB⟩ := GraphDefinition.nodeDefinition_some new
          have seen : a.withoutGroup ≠ b.withoutGroup := by simpa [old, new] using differ
          rcases tracked.roots.changed a memA b memB same.symm seen with root | ⟨root, -⟩
          · exact root
          · exact root

/-- The graph of a reachable state has unique identifiers. -/
theorem Reachable.tracked
    {p : Platform} {projectId : String} {allow : State → Call → Prop} {w : World} {s : State}
    (reachable : Reachable p projectId allow w)
    (loaded : reduceSegments p projectId w.journal = .ok s) :
  PatchState.Tracked (s.graph.getD .zero) { graph := s.graph.getD .zero }
  := by
  cases graph : s.graph with
  | none => exact .start List.nodup_nil List.nodup_nil List.nodup_nil List.nodup_nil List.nodup_nil
  | some g =>
      have valid := reachable.validGraph (List.prefix_refl _) loaded graph
      have wellFormed := (validateGraph_exact p.screenGraph g).1 valid
      exact .start wellFormed.laneIds wellFormed.groupIds wellFormed.roleIds wellFormed.nodeIds
        wellFormed.edgeIds

/-- The impact of every patch that is accepted on a reachable state is complete. -/
theorem patch_impact_complete
    {p : Platform} {projectId : String} {allow : State → Call → Prop} {w : World} {s : State}
    {patch : GraphPatch} {g' : GraphDefinition} {impact : GraphImpact} {superseded : List String}
    (reachable : Reachable p projectId allow w)
    (loaded : reduceSegments p projectId w.journal = .ok s)
    (accepted : applyGraphPatch p s patch = .ok (g', impact, superseded)) :
  ImpactComplete (s.graph.getD .zero) g' impact
  := by
  have start := reachable.tracked loaded
  simp only [applyGraphPatch, bind_eq_ok, Except.ok.injEq, Prod.mk.injEq] at accepted
  obtain ⟨x, run, _, -, rfl, rfl, -⟩ := accepted
  have tracked := start.run run
  have sorted : ∀ {l : List String}, l ⊆ sortTexts l := fun {_} _ mem => mem_sortTexts.mpr mem
  have moved : x.impact.updatedNodes ++ x.impact.movedNodes
      ⊆ sortTexts x.impact.updatedNodes ++ sortTexts x.impact.movedNodes := by
    intro k mem
    simpa only [List.mem_append, mem_sortTexts] using mem
  have cut : ∀ {root id : String}, root ∈ x.changedRoots →
      Relation.ReflTransGen x.graph.spec.Leads root id →
      id ∈ sortTexts (patchDependencyCut x.graph x.changedRoots) := fun root downstream =>
    mem_sortTexts.mpr (mem_patchDependencyCut x.graph root downstream)
  exact
    { lanes := tracked.lanes.mono sorted sorted sorted
      groups := tracked.groups.mono sorted sorted sorted
      roles := tracked.roles.mono sorted sorted sorted
      nodes := tracked.nodes.mono sorted moved sorted
      edges := tracked.edges.mono sorted (List.Subset.refl _) sorted
      changedNodes := fun nodeId differ id => cut (tracked.root differ)
      gained := fun edge mem new id => cut (tracked.gained edge mem new)
      lost := fun edge mem gone kept id => by
        have root : edge.target ∈ x.changedRoots := by
          rcases tracked.lost edge mem gone with root | removed
          · exact root
          · exact absurd (mem_sortTexts.mpr removed) kept
        exact cut root }

namespace SampleRole

/-- The graph with a group that no node is in. -/
def grouped : GraphDefinition :=
  graph.withGroups [{ id := "work", title := "work", kind := "work-unit" }]

/-- The patch that moves the task to the group. -/
def move : GraphPatch where
  operations := [.moveNodeToGroup "build" "work"]

/-- The import of the graph. -/
def imported : List Call :=
  [.importGraph
    { graph := grouped, idempotencyKey := "import", actorRole := "dev", requestDigest := "" }]

/-- The patch is accepted, its result and its impact are as told, and nothing collides. -/
def moved (answer : GraphDefinition → GraphDefinition → GraphImpact → Bool) : Fallible Bool := do
  let journal ← commitCalls .numbered "p" 0 [] imported
  let s ← reduceSegments .numbered "p" journal
  let (g', impact, _) ← applyGraphPatch .numbered s move
  .ok (answer (s.graph.getD .zero) g' impact)

/-- The patch is accepted on a reachable state. -/
theorem exists_moved
    {answer : GraphDefinition → GraphDefinition → GraphImpact → Bool}
    (run : moved answer = .ok true) :
  ∃ (w : World) (s : State) (g' : GraphDefinition) (impact : GraphImpact)
      (superseded : List String), Reachable .numbered "p" (fun _ _ => True) w ∧
    reduceSegments .numbered "p" w.journal = .ok s ∧
    applyGraphPatch .numbered s move = .ok (g', impact, superseded) ∧
    answer (s.graph.getD .zero) g' impact = true
  := by
  simp only [moved, bind_eq_ok, Except.ok.injEq, Prod.exists] at run
  obtain ⟨journal, committed, s, loaded, g', impact, superseded, accepted, answered⟩ := run
  have start : Reachable .numbered "p" (fun _ _ => True) (World.initial [] 0) :=
    ⟨[], 0, .empty, .refl⟩
  have reachable := reachable_of_commitCalls start (fun _ _ _ => trivial) committed
  exact ⟨World.initial journal 0, s, g', impact, superseded, reachable, loaded, accepted, answered⟩

end SampleRole

open SampleRole in
/-- The impact of a move is complete. -/
theorem patch_impact_complete_move :
  ∃ (s : State) (g' : GraphDefinition) (impact : GraphImpact) (superseded : List String),
    applyGraphPatch .numbered s move = .ok (g', impact, superseded) ∧
    ImpactComplete (s.graph.getD .zero) g' impact
  := by
  have run : moved (fun _ _ _ => true) = .ok true := by decide +kernel
  obtain ⟨w, s, g', impact, superseded, reachable, loaded, accepted, -⟩ := exists_moved run
  exact ⟨s, g', impact, superseded, accepted, patch_impact_complete reachable loaded accepted⟩

open SampleRole in
/-- A node that is moved to another group has a new declaration and is not in the cut. -/
theorem moved_node_not_in_cut :
  ∃ (w : World) (s : State) (g' : GraphDefinition) (impact : GraphImpact)
      (superseded : List String), Reachable .numbered "p" (fun _ _ => True) w ∧
    reduceSegments .numbered "p" w.journal = .ok s ∧
    applyGraphPatch .numbered s move = .ok (g', impact, superseded) ∧
    (s.graph.getD .zero).nodeDefinition "build" ≠ g'.nodeDefinition "build" ∧
    "build" ∉ impact.dependencyCut
  := by
  have run : moved (fun g g' impact =>
      decide (g.nodeDefinition "build" ≠ g'.nodeDefinition "build")
        && decide ("build" ∉ impact.dependencyCut)) = .ok true := by decide +kernel
  obtain ⟨w, s, g', impact, superseded, reachable, loaded, accepted, answer⟩ := exists_moved run
  simp only [Bool.and_eq_true, decide_eq_true_eq] at answer
  exact ⟨w, s, g', impact, superseded, reachable, loaded, accepted, answer⟩

end Dagrail
