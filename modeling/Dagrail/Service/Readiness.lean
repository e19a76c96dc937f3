import Dagrail.Domain.CutIndex
import Dagrail.Service.ResourceLaws

/-!
# The frontier with its explanations

The frontier is computed in one pass over the nodes. For each planned node it collects the reasons why
the node is not ready, and files the node as ready, blocked or unreachable. The detailed variant also
keeps the reasons, and adds the dependency cuts of the nodes that failed or were cancelled.
-/

namespace Dagrail

/-- Why a node is not ready. -/
structure ReadinessReason where
  code : String := ""
  edgeId : String := ""
  sourceNodeId : String := ""
  predicatePath : String := ""
  expected : String := ""
  actual : String := ""
  resourceKind : String := ""
  required : Int := 0
  available : Int := 0
deriving DecidableEq

/-- How a planned node was filed, and why. -/
structure ReadinessExplanation where
  nodeId : String
  state : String
  reasons : List ReadinessReason := []
deriving DecidableEq

/-- A frontier with its explanations and dependency cuts. -/
structure DetailedFrontier extends Frontier where
  dependencyCuts : Table (List String) := ∅
  explanations : List ReadinessExplanation := []

/-! ### Reasons -/

/-- A fact of the source against its required value. -/
def explainMatch (facts : Table String) (m : ValueMatch) (path : String) : Bool × ReadinessReason :=
  (facts.get m.key = m.value,
    { code := "predicate_unsatisfied", predicatePath := path ++ m.key, expected := m.value,
      actual := facts.get m.key })

mutual

/-- Does the source satisfy the predicate, and if not, which part of it fails? -/
def explainPredicate (source : NodeRuntime) : Predicate → String → Bool × ReadinessReason
  | ⟨outcome, decision, evidence, policy, all, any⟩, path =>
      if outcome ≠ "" then
        (source.outcome = outcome,
          { code := "predicate_unsatisfied", predicatePath := path ++ ".outcome",
            expected := outcome, actual := source.outcome })
      else match decision, evidence, policy with
        | some m, _, _ => explainMatch source.facts.decision m (path ++ ".decision.")
        | none, some m, _ => explainMatch source.facts.evidence m (path ++ ".evidence.")
        | none, none, some m => explainMatch source.facts.policy m (path ++ ".policy.")
        | none, none, none =>
            if all ≠ [] then explainAll source path 0 all
            else if any ≠ [] then
              if explainAny source path 0 any then (true, {})
              else
                (false, { code := "predicate_any_unsatisfied", predicatePath := path ++ ".any",
                          expected := "at least one branch true", actual := "all branches false" })
            else (false, { code := "predicate_invalid", predicatePath := path })

/-- The first predicate of the list that fails. -/
def explainAll (source : NodeRuntime) (path : String) :
    Nat → List Predicate → Bool × ReadinessReason
  | _, [] => (true, {})
  | index, p :: ps =>
      let (ok, detail) := explainPredicate source p (path ++ s!".all[{index}]")
      if ok then explainAll source path (index + 1) ps else (false, detail)

/-- Does some predicate of the list hold? -/
def explainAny (source : NodeRuntime) (path : String) : Nat → List Predicate → Bool
  | _, [] => false
  | index, p :: ps =>
      (explainPredicate source p (path ++ s!".any[{index}]")).1
        || explainAny source path (index + 1) ps

end

namespace DetailedFrontier

/-- Keep an explanation when details are asked for. -/
def explain (includeDetails : Bool) (f : DetailedFrontier) (e : ReadinessExplanation) :
    DetailedFrontier :=
  if includeDetails then { f with explanations := f.explanations ++ [e] } else f

/-- The explanations in order, and the cuts of the nodes that failed or were cancelled, all from one
index. -/
def addDetails (s : State) (f : DetailedFrontier) : DetailedFrontier :=
  let failed := s.nodes.keys.filter fun nodeId =>
    let runtime := s.nodes.get nodeId
    runtime.status = .terminal
      && (runtime.outcomeClass = .failure || runtime.outcomeClass = .cancelled)
  let (cuts, _) := failed.foldl
    (fun (acc : Table (List String) × DependencyCutIndex) nodeId =>
      let (cut, index) := acc.2.cutContext nodeId
      (if cut = [] then acc.1 else acc.1.insert nodeId cut, index))
    (∅, newDependencyCutIndex s)
  { f with
    explanations := f.explanations.insertionSort fun a b => a.nodeId ≤ b.nodeId
    dependencyCuts := cuts }

end DetailedFrontier

mutual

/-- An explanation holds exactly when the predicate does. -/
theorem explainPredicate_fst
    (source : NodeRuntime) :
  ∀ (p : Predicate) (path : String), (explainPredicate source p path).1 = predicateSatisfied source p
  | ⟨outcome, decision, evidence, policy, all, any⟩, path => by
      unfold explainPredicate predicateSatisfied
      by_cases named : outcome ≠ ""
      · rw [if_pos named, if_pos named]
      · rw [if_neg named, if_neg named]
        match decision, evidence, policy with
        | some _, _, _ => rfl
        | none, some _, _ => rfl
        | none, none, some _ => rfl
        | none, none, none =>
            simp only
            by_cases some : all ≠ []
            · rw [if_pos some, if_pos some, explainAll_fst source all]
            · rw [if_neg some, if_neg some]
              by_cases some : any ≠ []
              · rw [if_pos some, if_pos some, explainAny_eq source any]
                cases anySatisfied source any <;> rfl
              · rw [if_neg some, if_neg some]

theorem explainAll_fst
    (source : NodeRuntime) :
  ∀ (ps : List Predicate) (path : String) (index : Nat),
    (explainAll source path index ps).1 = allSatisfied source ps
  | [], _, _ => by simp [explainAll, allSatisfied]
  | p :: ps, path, index => by
      have first := explainPredicate_fst source p (path ++ s!".all[{index}]")
      have rest := explainAll_fst source ps path (index + 1)
      simp only [explainAll, allSatisfied, first]
      cases predicateSatisfied source p <;> simp [rest]

theorem explainAny_eq
    (source : NodeRuntime) :
  ∀ (ps : List Predicate) (path : String) (index : Nat),
    explainAny source path index ps = anySatisfied source ps
  | [], _, _ => by simp [explainAny, anySatisfied]
  | p :: ps, path, index => by
      have first := explainPredicate_fst source p (path ++ s!".any[{index}]")
      have rest := explainAny_eq source ps path (index + 1)
      simp only [explainAny, anySatisfied, first, rest]

end

/-! ### What the pass files -/

/-- Is the source of the edge closed with a true predicate? -/
def State.opened (s : State) (edge : EdgeDefinition) : Bool :=
  s.closed edge.source && predicateSatisfied (s.nodes.get edge.source) edge.when

namespace DetailedFrontier

@[simp]
theorem explain_toFrontier
    (includeDetails : Bool) (f : DetailedFrontier) (e : ReadinessExplanation) :
  (f.explain includeDetails e).toFrontier = f.toFrontier
  := by
  unfold explain
  split <;> rfl

@[simp]
theorem addDetails_toFrontier
    (s : State) (f : DetailedFrontier) :
  (f.addDetails s).toFrontier = f.toFrontier
  := rfl

end DetailedFrontier

/-- The source of the edge has closed. -/
def State.SourceClosed (s : State) (edge : EdgeDefinition) : Prop :=
  (s.nodes.get edge.source).status = .terminal ∨ (s.nodes.get edge.source).status = .skipped

/-- The predicate of the edge is true of its source. -/
def State.Satisfied (s : State) (edge : EdgeDefinition) : Prop :=
  predicateSatisfied (s.nodes.get edge.source) edge.when = true

/-- Every edge into the node has a closed source and a true predicate. -/
def State.Enabled (s : State) (g : GraphDefinition) (nodeId : String) : Prop :=
  ∀ edge ∈ g.spec.edges, edge.target = nodeId → s.SourceClosed edge ∧ s.Satisfied edge

/-- The active leases leave room for every claim of the node. -/
def State.Fits (s : State) (g : GraphDefinition) (node : NodeDefinition) : Prop :=
  ∀ request ∈ node.resources,
    s.leasedQuantity request.kind + request.quantity ≤ g.spec.capacity request.kind

/-- The lists divide the planned nodes by what they wait for. -/
structure Frontier.Classifies (s : State) (g : GraphDefinition) (f : Frontier) : Prop where
  planned : (f.ready ++ f.blocked ++ f.unreachable).Perm
    ((g.spec.nodes.filter fun node => (s.nodes.get node.id).status = .planned).map
      NodeDefinition.id)
  nodup : (f.ready ++ f.blocked ++ f.unreachable).Nodup
  ready : ∀ node ∈ g.spec.nodes, (s.nodes.get node.id).status = .planned →
    (node.id ∈ f.ready ↔ s.Enabled g node.id ∧ s.Fits g node)
  unreachable : ∀ node ∈ g.spec.nodes, (s.nodes.get node.id).status = .planned →
    (node.id ∈ f.unreachable ↔
      ∃ edge ∈ g.spec.edges, edge.target = node.id ∧ s.SourceClosed edge ∧ ¬ s.Satisfied edge)
  resourceBlocked : ∀ nodeId, nodeId ∈ f.resourceBlocked ↔ nodeId ∈ f.blocked ∧ s.Enabled g nodeId

section

variable {s : State} {g : GraphDefinition}

theorem closed_iff
    {edge : EdgeDefinition} :
  s.closed edge.source = true ↔ s.SourceClosed edge
  := by
  simp [State.closed, State.SourceClosed]

/-- The sources are closed and no predicate is false exactly when the node is enabled. -/
theorem enabled_iff
    {nodeId : String} :
  s.unreachable g nodeId = false ∧ s.sourcesClosed g nodeId = true ↔ s.Enabled g nodeId
  := by
  simp only [State.unreachable, State.sourcesClosed, GraphDefinition.incoming, List.any_eq_false,
    List.all_eq_true, List.mem_filter, decide_eq_true_eq, Bool.and_eq_true, Bool.not_eq_true',
    closed_iff, State.Enabled, State.Satisfied]
  constructor
  · rintro ⟨satisfied, closed⟩ edge mem target
    have here := closed edge ⟨mem, target⟩
    refine ⟨here, ?_⟩
    by_contra unsatisfied
    exact satisfied edge ⟨mem, target⟩ ⟨here, by simpa using unsatisfied⟩
  · intro enabled
    constructor
    · rintro edge ⟨mem, target⟩ ⟨-, unsatisfied⟩
      simp [(enabled edge mem target).2] at unsatisfied
    · rintro edge ⟨mem, target⟩
      exact (enabled edge mem target).1

/-- A node is unreachable when a closed source fails the predicate of its edge. -/
theorem unreachable_iff
    {nodeId : String} :
  s.unreachable g nodeId = true ↔
    ∃ edge ∈ g.spec.edges, edge.target = nodeId ∧ s.SourceClosed edge ∧ ¬ s.Satisfied edge
  := by
  simp only [State.unreachable, GraphDefinition.incoming, List.any_eq_true, List.mem_filter,
    decide_eq_true_eq, Bool.and_eq_true, Bool.not_eq_true', closed_iff, State.Satisfied, and_assoc,
    Bool.not_eq_true]

/-- In a valid graph, what is left of a kind is the declared capacity less the active leases. -/
theorem fits_iff
    (valid : g.Valid) (graph : s.graph = some g) {node : NodeDefinition} :
  s.resourcesReady node = true ↔ s.Fits g node
  := by
  have left : ∀ kind, s.availableResourceCapacity kind
      = g.spec.capacity kind - s.leasedQuantity kind := by
    intro kind
    simp only [State.availableResourceCapacity, graph, valid.last_capacity]
    rfl
  simp only [State.resourcesReady, List.all_eq_true, decide_eq_true_eq, left, State.Fits]
  exact ⟨fun fits request mem => by have := fits request mem; omega,
    fun fits request mem => by have := fits request mem; omega⟩

/-- The frontier classifies the planned nodes. -/
theorem computeFrontier_classifies
    (valid : g.Valid) (graph : s.graph = some g) :
  (computeFrontier s).Classifies s g
  := by
  have planned : ((computeFrontier s).ready ++ (computeFrontier s).blocked
      ++ (computeFrontier s).unreachable).Perm
      ((g.spec.nodes.filter fun node => (s.nodes.get node.id).status = .planned).map
        NodeDefinition.id) := by
    simp only [computeFrontier, graph]
    refine (((sortTexts_perm _).append (sortTexts_perm _)).append (sortTexts_perm _)).trans ?_
    rw [← List.map_append, ← List.map_append]
    refine List.Perm.map _ ?_
    refine ((List.filter_append_perm _ _).append_right _).trans ?_
    exact List.perm_append_comm.trans (List.filter_append_perm _ _)
  have unique : ∀ node ∈ g.spec.nodes, ∀ node' ∈ g.spec.nodes, node'.id = node.id → node' = node :=
    fun node mem node' mem' same => List.inj_on_of_nodup_map valid.nodesUnique mem' mem same
  constructor
  · exact planned
  · rw [planned.nodup_iff]
    exact (valid.nodesUnique.sublist ((List.filter_sublist ..).map _))
  · intro node mem isPlanned
    rw [mem_ready graph, ← enabled_iff, ← fits_iff valid graph]
    constructor
    · rintro ⟨node', mem', same, -, reachable, closed, fits⟩
      obtain rfl := unique node mem node' mem' same
      exact ⟨⟨reachable, closed⟩, fits⟩
    · rintro ⟨⟨reachable, closed⟩, fits⟩
      exact ⟨node, mem, rfl, isPlanned, reachable, closed, fits⟩
  · intro node mem isPlanned
    rw [mem_unreachable graph, ← unreachable_iff]
    constructor
    · rintro ⟨node', -, same, -, unreachable⟩
      exact unreachable
    · exact fun unreachable => ⟨node, mem, rfl, isPlanned, unreachable⟩
  · intro nodeId
    rw [← enabled_iff]
    simp only [computeFrontier, graph, mem_sortTexts, List.mem_map, List.mem_filter,
      Bool.and_eq_true, Bool.not_eq_true', Bool.and_eq_false_iff]
    constructor
    · rintro ⟨node, ⟨⟨known, reachable⟩, closed, short⟩, rfl⟩
      exact ⟨⟨node, ⟨⟨known, reachable⟩, .inr short⟩, rfl⟩, reachable, closed⟩
    · rintro ⟨⟨node, ⟨⟨known, reachable⟩, blocked⟩, rfl⟩, -, closed⟩
      refine ⟨node, ⟨⟨known, reachable⟩, closed, ?_⟩, rfl⟩
      rcases blocked with open_ | short
      · simp [closed] at open_
      · exact short

end

/-- The milestones of the sample graph, all planned. -/
def SampleSkip.planned : State :=
  { State.new "p" with
    graph := some graph
    nodes := ((∅ : Table NodeRuntime).insert "a" { status := .planned }).insert "b"
      { status := .planned } |>.insert "c" { status := .planned } }

end Dagrail
