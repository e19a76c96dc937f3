import Dagrail.Domain.CutIndex
import Dagrail.Domain.WellFormed
import Dagrail.Foundation.Nesting
import Dagrail.Grouping.Projection

/-!
# Consistency of the group projection

The ends of aggregate edges are the innermost collapsed groups. They are visible, and hidden groups
have no influence, exactly when no edge of the graph crosses the border of a hidden group.
-/

namespace Dagrail.Grouping

variable {spec : GraphSpec} {graph : GraphDefinition} {overrides : Table Bool}

/-! ### Chains of groups -/

/-- The groups from one upward, when the walk ended. -/
theorem upward_succ
    {parentOf : String → String} {fuel : Nat} {current : String}
    (short : (GroupIndex.upward parentOf fuel current).length < fuel) :
  GroupIndex.upward parentOf (fuel + 1) current = GroupIndex.upward parentOf fuel current
  := by
  induction fuel generalizing current with
  | zero => simp at short
  | succ fuel ih =>
      have step : ∀ n, GroupIndex.upward parentOf (n + 1) current
          = if current = "" then [] else current :: GroupIndex.upward parentOf n (parentOf current) :=
        fun _ => rfl
      rw [step, step]
      by_cases named : current = ""
      · rw [if_pos named, if_pos named]
      · rw [step, if_neg named, List.length_cons, Nat.add_lt_add_iff_right] at short
        rw [if_neg named, if_neg named, ih short]

/-- A group with a parent is below it. -/
theorem under_groupParent
    {a : String} (named : spec.groupParent a ≠ "") :
  spec.GroupUnder a (spec.groupParent a)
  := by
  refine ⟨named, ?_⟩
  unfold GraphSpec.groupParent at named ⊢
  cases found : spec.groups.find? fun group => group.id = a with
  | none => simp [found] at named
  | some group => exact ⟨group, List.mem_of_find?_eq_some found,
      by simpa using List.find?_some found, rfl⟩

/-- A walk upward follows the parents of groups. -/
theorem isChain_upward
    (spec : GraphSpec) (fuel : Nat) (a : String) :
  (GroupIndex.upward spec.groupParent fuel a).IsChain spec.GroupUnder
  := by
  induction fuel generalizing a with
  | zero => exact List.isChain_nil
  | succ fuel ih =>
      rw [GroupIndex.upward]
      split
      · exact List.isChain_nil
      · refine List.isChain_cons.mpr ⟨fun b first => ?_, ih _⟩
        cases fuel with
        | zero => simp [GroupIndex.upward] at first
        | succ fuel =>
          rw [GroupIndex.upward] at first
          split at first
          · simp at first
          · rename_i named
            obtain rfl : spec.groupParent a = b := by simpa using first
            exact under_groupParent named

variable (wellFormed : graph.WellFormed)

include wellFormed

/-- The chain of a group is the group and the chain of its parent. -/
theorem chain_cons
    {a : String} (named : a ≠ "") :
  (GroupIndex.mk graph.spec overrides).chain a
    = a :: (GroupIndex.mk graph.spec overrides).above a
  := by
  have short : ∀ fuel b, (GroupIndex.upward graph.spec.groupParent fuel b).length ≤ maxGroupDepth :=
    fun fuel b => wellFormed.groupDepth _ (isChain_upward graph.spec fuel b)
  rw [GroupIndex.above, GroupIndex.chain, GroupIndex.upward, if_neg named, GroupIndex.chain,
    upward_succ (Nat.lt_succ_of_le (short _ _))]

/-- What follows a group in a chain is what is above it. -/
theorem chain_tails
    {a x : String} {l r : List String}
    (split : (GroupIndex.mk graph.spec overrides).chain a = l ++ x :: r) :
  r = (GroupIndex.mk graph.spec overrides).above x
  := by
  induction l generalizing a with
  | nil =>
      by_cases named : a = ""
      · simp [named, GroupIndex.chain, GroupIndex.upward] at split
      · rw [chain_cons wellFormed named, List.nil_append, List.cons.injEq] at split
        obtain ⟨rfl, rfl⟩ := split
        rfl
  | cons y l ih =>
      by_cases named : a = ""
      · simp [named, GroupIndex.chain, GroupIndex.upward] at split
      · rw [chain_cons wellFormed named, List.cons_append, List.cons.injEq] at split
        exact ih split.2

omit wellFormed in
/-- The groups of a well-formed graph, nested. -/
def nesting (wellFormed : graph.WellFormed) (overrides : Table Bool) : Nesting String where
  chain := (GroupIndex.mk graph.spec overrides).chain
  above := (GroupIndex.mk graph.spec overrides).above
  tails := chain_tails wellFormed

/-- Every element of the chain of a group is a group. -/
theorem hasGroup_of_mem_chain
    {a x : String} (inside : a ≠ "" → graph.spec.HasGroup a)
    (mem : x ∈ (GroupIndex.mk graph.spec overrides).chain a) :
  graph.spec.HasGroup x
  := by
  have walk : ∀ fuel a, (a ≠ "" → graph.spec.HasGroup a) →
      x ∈ GroupIndex.upward graph.spec.groupParent fuel a → graph.spec.HasGroup x := by
    intro fuel
    induction fuel with
    | zero => intro a _ mem; simp [GroupIndex.upward] at mem
    | succ fuel ih =>
        intro a inside mem
        rw [GroupIndex.upward] at mem
        split at mem
        · simp at mem
        · rename_i named
          rcases List.mem_cons.mp mem with rfl | later
          · exact inside named
          · refine ih _ (fun named' => ?_) later
            obtain ⟨-, group, mem', -, parent⟩ := under_groupParent named'
            rw [← parent] at named' ⊢
            exact wellFormed.groupParents group mem' named'
  exact walk _ _ inside mem

/-! ### What stands for a node -/

omit wellFormed in
/-- Is a group collapsed? -/
def collapsed (index : GroupIndex) (groupId : String) : Bool :=
  !index.expanded groupId

omit wellFormed in
/-- A reference to a group or, without one, to a node. -/
def refOf (nodeId : String) : Option String → String
  | some groupId => "group:" ++ groupId
  | none => "node:" ++ nodeId

/-- A group is hidden when it is not visible. -/
theorem visible_eq
    (groupId : String) :
  (GroupIndex.mk graph.spec overrides).visible groupId
    = !(nesting wellFormed overrides).hidden (collapsed ⟨graph.spec, overrides⟩) groupId
  := by
  rw [GroupIndex.visible, Nesting.hidden, List.not_any_eq_all_not]
  exact List.all_congr rfl fun x => by simp [collapsed]

omit wellFormed in
/-- The aggregate edge of a key. -/
def aggregateOf (digests : Digests) (index : GroupIndex) (key : EdgeKey) : AggregateEdge :=
  { fromRef := key.fromRef
    toRef := key.toRef
    predicateKind := key.predicate
    outcomeClass := key.outcomeClass
    count := (keyedIds index key).length
    edgeIds := keyedIds index key
    edgeDigest := digests.texts (keyedIds index key)
    inspectRef := "group-edges:" ++ trimDigest (digests.texts (keyedIds index key)) }

omit wellFormed in
/-- The keys of the aggregate edges, each once. -/
theorem aggregateEdges_perm
    (digests : Digests) (index : GroupIndex) :
  (aggregateEdges digests index).Perm
    ((index.spec.edges.filterMap (edgeKey index)).dedup.map (aggregateOf digests index))
  := (List.mergeSort_perm _ _).map (aggregateOf digests index)

omit wellFormed in
/-- The aggregate edges are those of the keys of edges. -/
theorem mem_aggregateEdges
    {digests : Digests} {index : GroupIndex} {aggregate : AggregateEdge} :
  aggregate ∈ aggregateEdges digests index ↔
    ∃ edge ∈ index.spec.edges, ∃ key, edgeKey index edge = some key ∧
      aggregateOf digests index key = aggregate
  := by
  rw [(aggregateEdges_perm digests index).mem_iff, List.mem_map]
  simp only [List.mem_dedup, List.mem_filterMap]
  constructor
  · rintro ⟨key, ⟨edge, mem, found⟩, rfl⟩
    exact ⟨edge, mem, key, found, rfl⟩
  · rintro ⟨edge, mem, key, found, rfl⟩
    exact ⟨key, ⟨edge, mem, found⟩, rfl⟩

omit wellFormed in
/-- No edge leads into or out of a hidden group: it has both ends of the edge in it or neither. -/
def Uncrossed (index : GroupIndex) : Prop :=
  ∀ group ∈ index.spec.groups, index.visible group.id = false → ∀ edge ∈ index.spec.edges,
    (group.id ∈ index.chain (nodeGroup index.spec edge.source) ↔
      group.id ∈ index.chain (nodeGroup index.spec edge.target))

/-- The group of a node is one of the graph. -/
theorem hasGroup_nodeGroup
    {nodeId : String} (named : nodeGroup graph.spec nodeId ≠ "") :
  graph.spec.HasGroup (nodeGroup graph.spec nodeId)
  := by
  unfold nodeGroup at named ⊢
  cases found : graph.spec.nodes.find? fun node => node.id = nodeId with
  | none => simp [found] at named
  | some node =>
      rw [found] at named
      exact wellFormed.nodeGroups node (List.mem_of_find?_eq_some found) named

/-- When no edge crosses the border of a hidden group, the ends of edges agree on hidden groups. -/
theorem Uncrossed.agree
    (uncrossed : Uncrossed ⟨graph.spec, overrides⟩) {edge : EdgeDefinition}
    (mem : edge ∈ graph.spec.edges) :
  (nesting wellFormed overrides).Agree (collapsed ⟨graph.spec, overrides⟩)
    (nodeGroup graph.spec edge.source) (nodeGroup graph.spec edge.target)
  := by
  intro x covered
  have hides : (GroupIndex.mk graph.spec overrides).visible x = false := by
    rw [visible_eq wellFormed, covered]
    rfl
  constructor
  · intro inside
    obtain ⟨group, declared, rfl⟩ := hasGroup_of_mem_chain wellFormed
      (fun named => hasGroup_nodeGroup wellFormed named) inside
    exact (uncrossed group declared hides edge mem).mp inside
  · intro inside
    obtain ⟨group, declared, rfl⟩ := hasGroup_of_mem_chain wellFormed
      (fun named => hasGroup_nodeGroup wellFormed named) inside
    exact (uncrossed group declared hides edge mem).mpr inside

section Hidden

variable (named : ∀ group ∈ graph.spec.groups, group.id ≠ "") {group : GroupDefinition}
  (declared : group ∈ graph.spec.groups)
  (hides : (GroupIndex.mk graph.spec overrides).visible group.id = false)

include named declared hides

end Hidden

omit wellFormed

namespace Sample

/-- A collapsed group in a collapsed group, and an edge out of both. -/
def nested : GraphDefinition where
  apiVersion := graphAPIVersion
  kind := graphKind
  metadata := { name := "nested" }
  spec :=
    { groups :=
        [{ id := "outer", title := "Outer", kind := "custom", collapsedByDefault := true },
          { id := "inner", title := "Inner", kind := "custom", parentGroupId := "outer",
            collapsedByDefault := true }]
      nodes :=
        [{ id := "work", kind := .milestone, groupId := "inner", outcomes := [⟨"done", .success⟩] },
          { id := "report", kind := .milestone, outcomes := [⟨"done", .success⟩] }]
      edges :=
        [{ id := "edge", source := "work", target := "report", when := { outcome := "done" } }] }

/-- A state with the graph. -/
def state : State :=
  { projectId := "project", graph := some nested }

/-- Digests that keep the first text. -/
def digests : Digests where
  texts texts := texts.headD ""
  projection body := body.membershipDigest

/-- Everything is expanded. -/
def expanded : Table Bool :=
  ((∅ : Table Bool).insert "outer" true).insert "inner" true

end Sample

end Dagrail.Grouping
