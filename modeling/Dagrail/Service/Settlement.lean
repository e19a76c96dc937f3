import Dagrail.Service.Readiness

/-!
# What settlement leads to

The controller skips planned nodes that a closed source cuts off, and completes ready nodes without an
executor. Each such step closes one planned node and leaves the others what they were. Two nodes that
can be settled can be settled in either order, so all orders lead to the same run-time sides.
-/

namespace Dagrail

/-- The run-time side of a node that completed on its own. -/
def completedRuntime (outcome : String) : NodeRuntime where
  status := .terminal
  outcome
  outcomeClass := .success

namespace Settlement

variable (g : GraphDefinition)

/-- The source of the edge has closed. -/
def SourceClosed (runtimes : String → NodeRuntime) (edge : EdgeDefinition) : Prop :=
  (runtimes edge.source).status = .terminal ∨ (runtimes edge.source).status = .skipped

/-- The predicate of the edge is true of its source. -/
def Satisfied (runtimes : String → NodeRuntime) (edge : EdgeDefinition) : Prop :=
  predicateSatisfied (runtimes edge.source) edge.when = true

/-- A closed source of the node fails the predicate of its edge. -/
def CutOff (runtimes : String → NodeRuntime) (nodeId : String) : Prop :=
  ∃ edge ∈ g.spec.edges, edge.target = nodeId ∧ SourceClosed runtimes edge ∧
    ¬ Satisfied runtimes edge

/-- Every edge into the node has a closed source and a true predicate. -/
def Enabled (runtimes : String → NodeRuntime) (nodeId : String) : Prop :=
  ∀ edge ∈ g.spec.edges, edge.target = nodeId →
    SourceClosed runtimes edge ∧ Satisfied runtimes edge

/-- The first outcome of the node that is a success. -/
def successOutcome (node : NodeDefinition) : Option Outcome :=
  node.outcomes.find? fun o => o.outcomeClass = .success

/-- A planned node may be settled, with the run-time side it gets. -/
inductive Settles (runtimes : String → NodeRuntime) (node : NodeDefinition) : NodeRuntime → Prop where
  | skip (planned : (runtimes node.id).status = .planned) (cut : CutOff g runtimes node.id) :
      Settles runtimes node skippedRuntime
  | complete (planned : (runtimes node.id).status = .planned)
      (deterministic : node.kind.isDeterministic = true) (enabled : Enabled g runtimes node.id)
      (outcome : Outcome) (first : successOutcome node = some outcome) :
      Settles runtimes node (completedRuntime outcome.id)

/-- One node is settled. -/
def Step (runtimes runtimes' : String → NodeRuntime) : Prop :=
  ∃ node ∈ g.spec.nodes, ∃ r, Settles g runtimes node r ∧
    runtimes' = Function.update runtimes node.id r

/-- No node may be settled. -/
def Final (runtimes : String → NodeRuntime) : Prop :=
  ∀ node ∈ g.spec.nodes, ∀ r, ¬ Settles g runtimes node r

/-- How many nodes are planned. -/
def plannedCount (runtimes : String → NodeRuntime) : Nat :=
  (g.spec.nodes.map NodeDefinition.id).countP fun id => (runtimes id).status = .planned

variable {g} {runtimes runtimes' : String → NodeRuntime} {node : NodeDefinition} {r : NodeRuntime}

/-- A node that may be settled is planned. -/
theorem Settles.planned
    (settles : Settles g runtimes node r) :
  (runtimes node.id).status = .planned
  := by
  cases settles with
  | skip planned => exact planned
  | complete planned => exact planned

/-- A node that is settled is not planned any more. -/
theorem Settles.not_planned
    (settles : Settles g runtimes node r) :
  r.status ≠ .planned
  := by
  cases settles <;> simp [skippedRuntime, completedRuntime]

/-- A node is not both cut off and enabled. -/
theorem CutOff.not_enabled
    {nodeId : String} (cut : CutOff g runtimes nodeId) :
  ¬ Enabled g runtimes nodeId
  := by
  obtain ⟨edge, mem, target, -, unsatisfied⟩ := cut
  exact fun enabled => unsatisfied (enabled edge mem target).2

/-- A node may be settled in one way only. -/
theorem Settles.unique
    {r' : NodeRuntime} (settles : Settles g runtimes node r) (settles' : Settles g runtimes node r') :
  r = r'
  := by
  cases settles with
  | skip _ cut =>
      cases settles' with
      | skip => rfl
      | complete _ _ enabled => exact absurd enabled cut.not_enabled
  | complete _ _ enabled outcome first =>
      cases settles' with
      | skip _ cut => exact absurd enabled cut.not_enabled
      | complete _ _ _ outcome' first' =>
          rw [Option.some.inj (first.symm.trans first')]

/-- A closed source is not a planned node, whose settlement it does not see. -/
theorem update_source
    {edge : EdgeDefinition} (closed : SourceClosed runtimes edge) {other : String}
    (planned : (runtimes other).status = .planned) (r : NodeRuntime) :
  Function.update runtimes other r edge.source = runtimes edge.source
  := by
  refine Function.update_of_ne (fun same => ?_) _ _
  rw [SourceClosed, same, planned] at closed
  simp at closed

/-- A node that may be settled may still be settled after another one. -/
theorem Settles.after
    (settles : Settles g runtimes node r) {other : String} (distinct : node.id ≠ other)
    (planned : (runtimes other).status = .planned) (r' : NodeRuntime) :
  Settles g (Function.update runtimes other r') node r
  := by
  have here : Function.update runtimes other r' node.id = runtimes node.id :=
    Function.update_of_ne distinct _ _
  cases settles with
  | skip planned' cut =>
      obtain ⟨edge, mem, target, closed, unsatisfied⟩ := cut
      have source := update_source closed planned r'
      refine .skip (by rw [here]; exact planned') ⟨edge, mem, target, ?_, ?_⟩
      · rw [SourceClosed, source]
        exact closed
      · rw [Satisfied, source]
        exact unsatisfied
  | complete planned' deterministic enabled outcome first =>
      refine .complete (by rw [here]; exact planned') deterministic ?_ outcome first
      intro edge mem target
      obtain ⟨closed, satisfied⟩ := enabled edge mem target
      have source := update_source closed planned r'
      rw [SourceClosed, Satisfied, source]
      exact ⟨closed, satisfied⟩

variable (nodup : (g.spec.nodes.map NodeDefinition.id).Nodup)

include nodup

/-- Two steps from one place lead to a common place. -/
theorem Step.diamond
    {a b c : String → NodeRuntime} (left : Step g a b) (right : Step g a c) :
  ∃ d, Relation.ReflGen (Step g) b d ∧ Relation.ReflTransGen (Step g) c d
  := by
  obtain ⟨node, mem, r, settles, rfl⟩ := left
  obtain ⟨node', mem', r', settles', rfl⟩ := right
  by_cases same : node.id = node'.id
  · obtain rfl := List.inj_on_of_nodup_map nodup mem mem' same
    obtain rfl := settles.unique settles'
    exact ⟨_, .refl, .refl⟩
  · refine ⟨Function.update (Function.update a node.id r) node'.id r', .single ?_, .single ?_⟩
    · exact ⟨node', mem', r', settles'.after (Ne.symm same) settles.planned r, rfl⟩
    · exact ⟨node, mem, r, settles.after same settles'.planned r',
        Function.update_comm same _ _ _⟩

/-- All orders that settle everything lead to the same run-time sides. -/
theorem final_unique
    {a b c : String → NodeRuntime} (left : Relation.ReflTransGen (Step g) a b)
    (right : Relation.ReflTransGen (Step g) a c) (finalLeft : Final g b) (finalRight : Final g c) :
  b = c
  := by
  obtain ⟨d, leads, leads'⟩ :=
    Relation.church_rosser (fun _ _ _ one two => Step.diamond nodup one two) left right
  have stays : ∀ {x}, Final g x → Relation.ReflTransGen (Step g) x d → x = d := by
    intro x final leads
    cases Relation.ReflTransGen.cases_head leads with
    | inl same => exact same
    | inr step =>
        obtain ⟨_, ⟨node, mem, r, settles, -⟩, -⟩ := step
        exact absurd settles (final node mem r)
  rw [stays finalLeft leads, stays finalRight leads']

/-- A step closes one planned node. -/
theorem plannedCount_update
    (mem : node ∈ g.spec.nodes) (settles : Settles g runtimes node r) :
  plannedCount g (Function.update runtimes node.id r) + 1 = plannedCount g runtimes
  := by
  have known : node.id ∈ g.spec.nodes.map NodeDefinition.id := List.mem_map_of_mem mem
  unfold plannedCount
  generalize g.spec.nodes.map NodeDefinition.id = ids at nodup known
  induction ids with
  | nil => simp at known
  | cons id ids ih =>
      obtain ⟨new, nodup⟩ := List.nodup_cons.mp nodup
      simp only [List.countP_cons]
      by_cases same : id = node.id
      · subst same
        have rest : ids.countP (fun id =>
              decide ((Function.update runtimes node.id r id).status = .planned))
            = ids.countP fun id => decide ((runtimes id).status = .planned) := by
          refine List.countP_congr fun id mem => ?_
          have other : id ≠ node.id := fun same => new (same ▸ mem)
          rw [Function.update_of_ne other]
        simp [rest, settles.planned, settles.not_planned]
      · rcases List.mem_cons.mp known with here | known
        · exact absurd here.symm same
        · have := ih nodup known
          rw [Function.update_of_ne same]
          omega

/-- Settlement ends. -/
theorem exists_final
    (runtimes : String → NodeRuntime) :
  ∃ final, Relation.ReflTransGen (Step g) runtimes final ∧ Final g final
  := by
  induction count : plannedCount g runtimes generalizing runtimes with
  | zero =>
      refine ⟨runtimes, .refl, fun node mem r settles => ?_⟩
      have := plannedCount_update nodup mem settles
      omega
  | succ n ih =>
      by_cases done : Final g runtimes
      · exact ⟨runtimes, .refl, done⟩
      · simp only [Final, not_forall, not_not] at done
        obtain ⟨node, mem, r, settles⟩ := done
        have closes := plannedCount_update nodup mem settles
        obtain ⟨final, leads, ended⟩ := ih (Function.update runtimes node.id r) (by omega)
        exact ⟨final, .head ⟨node, mem, r, settles, rfl⟩ leads, ended⟩

omit nodup in
/-- A node that is not planned stays what it is. -/
theorem steps_settled
    {a b : String → NodeRuntime} (steps : Relation.ReflTransGen (Step g) a b) {id : String}
    (settled : (a id).status ≠ .planned) :
  b id = a id
  := by
  induction steps with
  | refl => rfl
  | tail _ step ih =>
      obtain ⟨node, -, r, settles, rfl⟩ := step
      have other : id ≠ node.id := by
        rintro rfl
        rw [← ih] at settled
        exact settled settles.planned
      rw [Function.update_of_ne other, ih]

omit nodup in
/-- A planned node was planned before. -/
theorem steps_planned
    {a b : String → NodeRuntime} (steps : Relation.ReflTransGen (Step g) a b) {id : String}
    (planned : (b id).status = .planned) :
  (a id).status = .planned
  := by
  by_contra settled
  rw [steps_settled steps settled] at planned
  exact settled planned

/-- What some order settles, every order that settles everything settles in the same way. -/
theorem final_of_settles
    {a b final : String → NodeRuntime} (steps : Relation.ReflTransGen (Step g) a b)
    (mem : node ∈ g.spec.nodes) (settles : Settles g b node r)
    (leads : Relation.ReflTransGen (Step g) a final) (ended : Final g final) :
  final node.id = r
  := by
  obtain ⟨final', leads', ended'⟩ := exists_final nodup (Function.update b node.id r)
  have through : Relation.ReflTransGen (Step g) a final' :=
    (steps.tail ⟨node, mem, r, settles, rfl⟩).trans leads'
  rw [final_unique nodup leads through ended ended', steps_settled leads', Function.update_self]
  rw [Function.update_self]
  exact settles.not_planned

end Settlement

end Dagrail
