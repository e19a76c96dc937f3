import Dagrail.Domain.WellFormed
import Dagrail.Service.Settlement
import Dagrail.Service.Writes

/-!
# Automatic settlement

At the boundary of every command the controller settles what needs no executor: it loads the journal,
skips the first node that is cut off, or completes the first ready node without an executor, and goes on
until there is neither. Its commands carry idempotency keys and go through the screen for
credential-like material as those of clients do. A key that a client has used before, or a node whose
reference does not pass the screen, stops the settlement of the node.
-/

namespace Dagrail

variable (p : Platform) (projectId : String) (screen : Command → Bool)

/-! ### The loop -/

/-- Append a batch of the controller: the journal after it, and whether a segment was created. -/
def appendAutomatic (s : State) (journal : List Segment) (b : Batch) :
    Fallible (List Segment × Bool) := do
  check (screen b.command) "journal command contains prohibited material"
  let (_, created) ← appendOnce p projectId journal b s.headHash
  .ok (journal ++ created.toList, created.isSome)

/-- One round: a skip, or when none was created, a completion. -/
def settleRound (env : Env) (journal : List Segment) : Fallible (List Segment × Bool) := do
  let s ← reduceSegments p projectId journal
  let (journal, settled) ←
    match autoSkip s env with
    | none => .ok (journal, false)
    | some b => appendAutomatic p projectId screen s journal b
  if settled then .ok (journal, true)
  else
    match ← autoComplete s (env.after 2) with
    | none => .ok (journal, false)
    | some b => appendAutomatic p projectId screen s journal b

/-- Rounds until one creates no segment. -/
def settleAutomatic (envs : Nat → Env) : Nat → List Segment → Fallible (List Segment)
  | 0, _ => .error "settlement has not ended"
  | fuel + 1, journal => do
      let (journal, settled) ← settleRound p projectId screen (envs fuel) journal
      if settled then settleAutomatic envs fuel journal else .ok journal

/-! ### The batches of the controller -/

/-- The batch that settles a node in the given way. -/
def settleBatch (env : Env) (revision : String) (node : NodeDefinition) (r : NodeRuntime) : Batch :=
  if r.status = .skipped then
    { command := automaticCommand env "node.auto-skip" ("skip/" ++ revision ++ "/" ++ node.id) node.id
      events := [.nodeAutoSkipped node.id r.outcome (.utc (env.clock 0))]
      committedAt := env.clock 1 }
  else
    { command :=
        automaticCommand env "node.auto-complete" ("auto/" ++ revision ++ "/" ++ node.id) node.id
      events := [.nodeAutoCompleted node.id r.outcome (.utc (env.clock 0))]
      committedAt := env.clock 1 }

/-- The key of the command that settles a node in the given way. -/
def settleKey (revision : String) (node : NodeDefinition) (r : NodeRuntime) : String :=
  if r.status = .skipped then "skip/" ++ revision ++ "/" ++ node.id
  else "auto/" ++ revision ++ "/" ++ node.id

@[simp]
theorem settleBatch_key
    (env : Env) (revision : String) (node : NodeDefinition) (r : NodeRuntime) :
  (settleBatch env revision node r).command.idempotencyKey = settleKey revision node r
  := by
  unfold settleBatch settleKey
  split <;> rfl

/-- A key of the controller is not empty. -/
theorem settleKey_ne_empty
    (revision : String) (node : NodeDefinition) (r : NodeRuntime) :
  settleKey revision node r ≠ ""
  := by
  unfold settleKey
  split
  all_goals
    intro same
    have := congrArg String.toList same
    simp at this

/-- A key of the controller names its node. -/
theorem settleKey_inj
    {revision : String} {node node' : NodeDefinition} {r r' : NodeRuntime}
    (same : settleKey revision node r = settleKey revision node' r') :
  node.id = node'.id
  := by
  unfold settleKey at same
  split at same <;> split at same
  · exact String.toList_inj.mp (by simpa using congrArg String.toList same)
  · have := congrArg String.toList same
    simp at this
  · have := congrArg String.toList same
    simp at this
  · exact String.toList_inj.mp (by simpa using congrArg String.toList same)

/-! ### Settlement of a loaded journal -/

/-- A journal with a valid graph that accepts appends. -/
structure Settleable (journal : List Segment) (s : State) (g : GraphDefinition) : Prop where
  loaded : reduceSegments p projectId journal = .ok s
  unretired : ∀ x ∈ journal, ∀ event ∈ x.events, event.isRetirement = false
  graph : s.graph = some g
  valid : validateGraph p.screenGraph g = .ok ()

variable {p projectId screen}
variable {journal journal' : List Segment} {s : State} {g : GraphDefinition} {node : NodeDefinition}
  {r : NodeRuntime} {env : Env} {b : Batch}

section

variable (valid : g.Valid) (graph : s.graph = some g)

include valid in
/-- A node without an executor has a successful outcome and claims no resources. -/
theorem deterministic_node
    (mem : node ∈ g.spec.nodes) (deterministic : node.kind.isDeterministic = true) :
  (∃ outcome, Settlement.successOutcome node = some outcome) ∧ node.resources = []
  := by
  have passed := valid.nodes node mem
  simp only [validateNode, bind_eq_ok, check_eq_ok] at passed
  obtain ⟨_, -, _, -, _, -, _, -, _, -, _, -, _, -, _, -, _, claims, _, one, -⟩ := passed
  simp only [deterministic, Bool.not_true, Bool.false_or, decide_eq_true_eq] at claims one
  refine ⟨?_, claims⟩
  obtain ⟨outcome, only⟩ := List.length_eq_one_iff.mp one
  have known : outcome ∈ node.outcomes.filter fun o => o.outcomeClass = .success := by simp [only]
  rw [List.mem_filter] at known
  exact Option.isSome_iff_exists.mp (List.find?_isSome.mpr ⟨outcome, known⟩)

include graph in
/-- The unreachable nodes are those that may be skipped. -/
theorem mem_unreachable_iff_skip
    {nodeId : String} :
  nodeId ∈ (computeFrontier s).unreachable ↔
    ∃ node ∈ g.spec.nodes, node.id = nodeId ∧ Settlement.Settles g s.nodes.get node skippedRuntime
  := by
  rw [mem_unreachable graph]
  constructor
  · rintro ⟨node, mem, rfl, planned, cut⟩
    exact ⟨node, mem, rfl, .skip planned (unreachable_iff.mp cut)⟩
  · rintro ⟨node, mem, rfl, settles⟩
    refine ⟨node, mem, rfl, settles.planned, unreachable_iff.mpr ?_⟩
    cases settles with
    | skip _ cut => exact cut

include valid graph in
/-- The ready nodes without an executor are those that may be completed. -/
theorem mem_ready_iff_complete
    (mem : node ∈ g.spec.nodes) (deterministic : node.kind.isDeterministic = true) :
  node.id ∈ (computeFrontier s).ready ↔ ∃ outcome, Settlement.successOutcome node = some outcome ∧
    Settlement.Settles g s.nodes.get node (completedRuntime outcome.id)
  := by
  obtain ⟨⟨outcome, first⟩, claims⟩ := deterministic_node valid mem deterministic
  have classifies := computeFrontier_classifies valid graph
  constructor
  · intro ready
    obtain ⟨node', mem', same, planned, -⟩ := (mem_ready graph).mp ready
    obtain ⟨enabled, -⟩ := (classifies.ready node mem planned).mp ready
    exact ⟨outcome, first, .complete planned deterministic enabled outcome first⟩
  · rintro ⟨outcome', -, settles⟩
    have fits : s.Fits g node := by simp [State.Fits, claims]
    refine (classifies.ready node mem settles.planned).mpr ⟨?_, fits⟩
    generalize side : completedRuntime outcome'.id = r at settles
    cases settles with
    | skip => simp [completedRuntime, skippedRuntime] at side
    | complete _ _ enabled => exact enabled

include graph in
/-- A node found by its id is one of the graph. -/
theorem declared_node
    {nodeId : String} (declared : s.nodeDefinition nodeId = some node) :
  node.id = nodeId ∧ node ∈ g.spec.nodes
  := by
  obtain ⟨same, g', graph', mem⟩ := State.nodeDefinition_some declared
  obtain rfl := Option.some.inj (graph.symm.trans graph')
  exact ⟨same, mem⟩

include graph in
/-- A skip of the controller is one of a node that may be skipped. -/
theorem autoSkip_settles
    (made : autoSkip s env = some b) :
  ∃ node ∈ g.spec.nodes, Settlement.Settles g s.nodes.get node skippedRuntime ∧
    b = settleBatch env s.graphRevision node skippedRuntime
  := by
  simp only [autoSkip, Option.map_eq_some_iff] at made
  obtain ⟨nodeId, first, rfl⟩ := made
  obtain ⟨node, mem, rfl, settles⟩ :=
    (mem_unreachable_iff_skip graph).mp (List.mem_of_mem_head? first)
  exact ⟨node, mem, settles, rfl⟩

include graph in
/-- The controller skips nothing when nothing may be skipped. -/
theorem autoSkip_eq_none
    (none : autoSkip s env = none) (mem : node ∈ g.spec.nodes) :
  ¬ Settlement.Settles g s.nodes.get node skippedRuntime
  := by
  intro settles
  simp only [autoSkip, Option.map_eq_none_iff, List.head?_eq_none_iff] at none
  have := (mem_unreachable_iff_skip graph).mpr ⟨node, mem, rfl, settles⟩
  simp [none] at this

include valid graph in
/-- A completion of the controller is one of a node that may be completed. -/
theorem autoComplete_settles
    (made : autoComplete s env = .ok (some b)) :
  ∃ node ∈ g.spec.nodes, ∃ outcome : Outcome,
    Settlement.Settles g s.nodes.get node (completedRuntime outcome.id) ∧
      b = settleBatch env s.graphRevision node (completedRuntime outcome.id)
  := by
  unfold autoComplete at made
  split at made
  · simp at made
  · rename_i node found
    simp only [bind_eq_ok, need_eq_ok, Except.ok.injEq, Option.some.injEq] at made
    obtain ⟨outcome, first, rfl⟩ := made
    simp only [readyDeterministic, List.findSome?_eq_some_iff, Option.filter_eq_some_iff] at found
    obtain ⟨_, nodeId, _, list, ⟨declared, deterministic⟩, -⟩ := found
    obtain ⟨same, mem⟩ := declared_node graph declared
    have ready : node.id ∈ (computeFrontier s).ready := by simp [same, list]
    obtain ⟨outcome', first', settles⟩ :=
      (mem_ready_iff_complete valid graph mem deterministic).mp ready
    obtain rfl : outcome = outcome' := Option.some.inj (first.symm.trans first')
    exact ⟨node, mem, outcome, settles, rfl⟩

include valid graph in
/-- The controller completes nothing when nothing may be completed. -/
theorem autoComplete_eq_none
    (none : autoComplete s env = .ok none) (mem : node ∈ g.spec.nodes) (outcome : Outcome) :
  ¬ Settlement.Settles g s.nodes.get node (completedRuntime outcome.id)
  := by
  intro settles
  generalize side : completedRuntime outcome.id = r at settles
  cases settles with
  | skip => simp [completedRuntime, skippedRuntime] at side
  | complete planned deterministic enabled outcome' first =>
      have ready := (mem_ready_iff_complete valid graph mem deterministic).mpr
        ⟨outcome', first, .complete planned deterministic enabled outcome' first⟩
      have declared : s.nodeDefinition node.id = some node := by
        simp only [State.nodeDefinition, graph, Option.bind_some]
        exact find?_of_nodup valid.nodesUnique mem
      unfold autoComplete at none
      split at none
      · rename_i absent
        simp only [readyDeterministic, List.findSome?_eq_none_iff] at absent
        have := absent node.id ready
        simp [declared, deterministic] at this
      · simp only [bind_eq_ok, Except.ok.injEq, reduceCtorEq, and_false, exists_false] at none

include valid graph in
/-- The controller finds an outcome for the node it completes. -/
theorem autoComplete_total
    (env : Env) :
  ∃ batch, autoComplete s env = .ok batch
  := by
  unfold autoComplete
  split
  · exact ⟨none, rfl⟩
  · rename_i node found
    simp only [readyDeterministic, List.findSome?_eq_some_iff, Option.filter_eq_some_iff] at found
    obtain ⟨_, nodeId, _, -, ⟨declared, deterministic⟩, -⟩ := found
    obtain ⟨-, mem⟩ := declared_node graph declared
    obtain ⟨⟨outcome, first⟩, -⟩ := deterministic_node valid mem deterministic
    have first : (node.outcomes.find? fun o => o.outcomeClass = .success) = some outcome := first
    exact ⟨_, by rw [first]; rfl⟩

end

/-! ### Rounds -/

/-- The batch that settles a node has the one event that settles it. -/
theorem Settlement.Settles.applyEvent
    (settles : Settlement.Settles g s.nodes.get node r) (env : Env) (revision : String) (n : Nat)
    (at_ : Stamp) :
  ∃ event, (settleBatch env revision node r).events = [event] ∧ event.isFence = false ∧
    event.isRetirement = false ∧
    s.applyEvent p n at_ event = .ok { s with nodes := s.nodes.insert node.id r }
  := by
  have known : (s.nodes.lookup node.id).any (fun r => r.status = .planned) = true := by
    have planned := settles.planned
    unfold Table.get at planned
    cases found : s.nodes.lookup node.id with
    | none =>
        rw [found, Option.getD_none] at planned
        exact absurd planned (by decide)
    | some side => simpa [found] using planned
  cases settles with
  | skip =>
      refine ⟨_, rfl, rfl, rfl, ?_⟩
      simp only [State.applyEvent, State.settleNode, known, check, if_true, ok_bind]
      rfl
  | complete _ _ _ outcome =>
      refine ⟨_, rfl, rfl, rfl, ?_⟩
      simp only [State.applyEvent, State.settleNode, known, check, if_true, ok_bind]
      rfl

/-- The journal after a node was settled. -/
theorem Settleable.append
    (settleable : Settleable p projectId journal s g)
    (settles : Settlement.Settles g s.nodes.get node r) (env : Env) (segment : Segment)
    (written : segment.events = (settleBatch env s.graphRevision node r).events) :
  ∃ s', Settleable p projectId (journal ++ [segment]) s' g ∧
    s'.nodes.get = Function.update s.nodes.get node.id r ∧ s'.graphRevision = s.graphRevision
  := by
  obtain ⟨event, only, fence, retirement, applied⟩ :=
    settles.applyEvent (p := p) env s.graphRevision segment.sequence segment.committedAt
  have events : segment.events = [event] := written.trans only
  have replayed : reduceSegments p projectId (journal ++ [segment])
      = .ok (segment.close { s with nodes := s.nodes.insert node.id r }) := by
    rw [reduceSegments_concat settleable.loaded settleable.unretired (by simpa [events] using fence)]
    simp only [State.applySegment, events, List.foldlM_cons, List.foldlM_nil, applied, ok_bind]
    rfl
  refine ⟨_, ⟨replayed, ?_, settleable.graph, settleable.valid⟩, ?_, rfl⟩
  · intro x mem event' mem'
    rcases List.mem_append.mp mem with before | last
    · exact settleable.unretired x before event' mem'
    · rw [List.mem_singleton.mp last, events, List.mem_singleton] at mem'
      rw [mem']
      exact retirement
  · funext k
    simp only [Segment.close, Table.get_insert, Function.update_apply]

/-- What a batch of the controller comes to. -/
theorem appendAutomatic_eq
    (screen : Command → Bool) (env : Env) (settleable : Settleable p projectId journal s g)
    (settles : Settlement.Settles g s.nodes.get node r) :
  let b := settleBatch env s.graphRevision node r
  appendAutomatic p projectId screen s journal b =
    if screen b.command = false then .error "journal command contains prohibited material"
    else
      match segmentForKey journal (settleKey s.graphRevision node r) with
      | none => .ok (journal ++ [b.segment p projectId (headHashOf journal)
          (headSequenceOf journal + 1)], true)
      | some existing =>
          if existing.command.sameIntent b.command then .ok (journal, false)
          else .error "idempotency key is already bound to another command intent"
  := by
  intro b
  have head : headHashOf journal = s.headHash :=
    (describes_of_reduceSegments settleable.loaded).headHash.symm
  obtain ⟨event, only, -⟩ := settles.applyEvent (p := p) env s.graphRevision 0 default
  have open_ : (journal.any fun segment => segment.events.any Event.isRetirement) = false := by
    simpa using settleable.unretired
  have some : b.events ≠ [] := by simp [b, only]
  have key : b.command.idempotencyKey = settleKey s.graphRevision node r := settleBatch_key ..
  unfold appendAutomatic appendOnce
  cases passes : screen b.command with
  | false => rfl
  | true =>
      simp only [open_, key, check, Bool.not_false, if_true, ok_bind, Bool.true_eq_false, if_false]
      cases segmentForKey journal (settleKey s.graphRevision node r) with
      | none => simp [head, some]
      | some existing => by_cases same : existing.command.sameIntent b.command = true <;> simp [same]

/-- A step of settlement in the journal. -/
structure Settled (screen : Command → Bool) (p : Platform) (projectId : String) (env : Env)
    (journal journal' : List Segment) (s : State) (g : GraphDefinition) : Prop where
  step : ∃ node ∈ g.spec.nodes, ∃ r s' segment, Settlement.Settles g s.nodes.get node r ∧
    segmentForKey journal (settleKey s.graphRevision node r) = none ∧
    screen (settleBatch env s.graphRevision node r).command = true ∧
    journal' = journal ++ [segment] ∧
    segment.command.idempotencyKey = settleKey s.graphRevision node r ∧
    Settleable p projectId journal' s' g ∧
    s'.nodes.get = Function.update s.nodes.get node.id r ∧ s'.graphRevision = s.graphRevision

/-- A batch that is appended settles its node. One that is not leaves the journal. -/
theorem appendAutomatic_ok
    (settleable : Settleable p projectId journal s g) (mem : node ∈ g.spec.nodes)
    (settles : Settlement.Settles g s.nodes.get node r) {created : Bool}
    (h : appendAutomatic p projectId screen s journal (settleBatch env s.graphRevision node r)
      = .ok (journal', created)) :
  (created = true ∧ Settled screen p projectId env journal journal' s g) ∨
    (created = false ∧ journal' = journal)
  := by
  have answer := appendAutomatic_eq screen env settleable settles
  simp only [h] at answer
  split at answer
  · simp at answer
  · rename_i passes
    rw [Bool.not_eq_false] at passes
    split at answer
    · rename_i free
      simp only [Except.ok.injEq, Prod.mk.injEq] at answer
      obtain ⟨rfl, rfl⟩ := answer
      obtain ⟨s', after, nodes, revision⟩ := settleable.append settles env
        ((settleBatch env s.graphRevision node r).segment p projectId (headHashOf journal)
          (headSequenceOf journal + 1)) rfl
      exact .inl ⟨rfl, node, mem, r, s', _, settles, free, passes, rfl, settleBatch_key .., after,
        nodes, revision⟩
    · split at answer
      · simp only [Except.ok.injEq, Prod.mk.injEq] at answer
        exact .inr ⟨answer.2, answer.1⟩
      · simp at answer

/-- A batch with a free key that passes the screen is appended. -/
theorem appendAutomatic_free
    (settleable : Settleable p projectId journal s g)
    (settles : Settlement.Settles g s.nodes.get node r)
    (free : segmentForKey journal (settleKey s.graphRevision node r) = none)
    (passes : screen (settleBatch env s.graphRevision node r).command = true) :
  ∃ journal', appendAutomatic p projectId screen s journal (settleBatch env s.graphRevision node r)
    = .ok (journal', true)
  := by
  have answer := appendAutomatic_eq screen env settleable settles
  simp only [passes, Bool.true_eq_false, if_false, free] at answer
  exact ⟨_, answer⟩

/-- The command of a batch does not depend on the clock. -/
theorem settleBatch_after
    (env : Env) (n : Nat) (revision : String) (node : NodeDefinition) (r : NodeRuntime) :
  (settleBatch (env.after n) revision node r).command = (settleBatch env revision node r).command
  := by
  unfold settleBatch
  split <;> rfl

/-- A step seen with a later clock. -/
theorem Settled.of_after
    {n : Nat} (settled : Settled screen p projectId (env.after n) journal journal' s g) :
  Settled screen p projectId env journal journal' s g
  := by
  obtain ⟨node, mem, r, s', segment, settles, free, passes, rest⟩ := settled.step
  rw [settleBatch_after] at passes
  exact ⟨node, mem, r, s', segment, settles, free, passes, rest⟩

/-- A completion that is appended settles its node. -/
theorem complete_ok
    (settleable : Settleable p projectId journal s g) {created : Bool} {made : Option Batch}
    (batch : autoComplete s (env.after 2) = .ok made)
    (h : (match made with
      | none => (.ok (journal, false) : Fallible (List Segment × Bool))
      | some b => appendAutomatic p projectId screen s journal b) = .ok (journal', created)) :
  (created = true ∧ Settled screen p projectId env journal journal' s g) ∨
    (created = false ∧ journal' = journal)
  := by
  cases made with
  | none =>
      simp only [Except.ok.injEq, Prod.mk.injEq] at h
      exact .inr ⟨h.2.symm, h.1.symm⟩
  | some b =>
      obtain ⟨node, mem, outcome, settles, rfl⟩ :=
        autoComplete_settles (valid_of_validateGraph settleable.valid) settleable.graph batch
      rcases appendAutomatic_ok settleable mem settles h with ⟨created, settled⟩ | kept
      · exact .inl ⟨created, settled.of_after⟩
      · exact .inr kept

/-- A round that creates a segment settles a node. One that does not leaves the journal. -/
theorem settleRound_ok
    (settleable : Settleable p projectId journal s g) {created : Bool}
    (h : settleRound p projectId screen env journal = .ok (journal', created)) :
  (created = true ∧ Settled screen p projectId env journal journal' s g) ∨
    (created = false ∧ journal' = journal)
  := by
  simp only [settleRound, settleable.loaded, ok_bind] at h
  cases skip : autoSkip s env with
  | none =>
      simp only [skip, Bool.false_eq_true, if_false, bind_eq_ok] at h
      obtain ⟨made, batch, h⟩ := h
      exact complete_ok settleable batch h
  | some b =>
      simp only [skip, bind_eq_ok] at h
      obtain ⟨⟨journal₁, settled⟩, skipped, h⟩ := h
      obtain ⟨node, mem, settles, rfl⟩ := autoSkip_settles settleable.graph skip
      rcases appendAutomatic_ok settleable mem settles skipped with ⟨rfl, settled⟩ | ⟨rfl, rfl⟩
      · simp only [if_true, Except.ok.injEq, Prod.mk.injEq] at h
        obtain ⟨rfl, rfl⟩ := h
        exact .inl ⟨rfl, settled⟩
      · simp only [Bool.false_eq_true, if_false, bind_eq_ok] at h
        obtain ⟨made, batch, h⟩ := h
        exact complete_ok settleable batch h

/-- When every key is free and every command passes the screen, a round creates a segment as long as
some node may be settled, and otherwise creates none. -/
theorem settleRound_free
    (env : Env) (settleable : Settleable p projectId journal s g)
    (free : ∀ node ∈ g.spec.nodes, ∀ r, Settlement.Settles g s.nodes.get node r →
      segmentForKey journal (settleKey s.graphRevision node r) = none ∧
        ∀ env, screen (settleBatch env s.graphRevision node r).command = true) :
  (∃ journal', settleRound p projectId screen env journal = .ok (journal', true)) ∨
    (settleRound p projectId screen env journal = .ok (journal, false) ∧
      Settlement.Final g s.nodes.get)
  := by
  have valid := valid_of_validateGraph settleable.valid
  simp only [settleRound, settleable.loaded, ok_bind]
  cases skip : autoSkip s env with
  | some b =>
      obtain ⟨node, mem, settles, rfl⟩ := autoSkip_settles settleable.graph skip
      obtain ⟨unused, passes⟩ := free node mem _ settles
      obtain ⟨journal', appended⟩ := appendAutomatic_free settleable settles unused (passes env)
      left
      exact ⟨journal', by simp [appended, bind, Except.bind]⟩
  | none =>
      obtain ⟨batch, made⟩ := autoComplete_total valid settleable.graph (env.after 2)
      cases batch with
      | some b =>
          obtain ⟨node, mem, outcome, settles, rfl⟩ :=
            autoComplete_settles valid settleable.graph made
          obtain ⟨unused, passes⟩ := free node mem _ settles
          obtain ⟨journal', appended⟩ :=
            appendAutomatic_free settleable settles unused (passes (env.after 2))
          left
          exact ⟨journal', by simp [made, appended, bind, Except.bind]⟩
      | none =>
          right
          refine ⟨by simp [made, bind, Except.bind], fun node mem r settles => ?_⟩
          cases settles with
          | skip planned cut => exact autoSkip_eq_none settleable.graph skip mem (.skip planned cut)
          | complete planned deterministic enabled outcome first =>
              exact autoComplete_eq_none valid settleable.graph made mem outcome
                (.complete planned deterministic enabled outcome first)

/-! ### Runs of the loop -/

/-- Where a settlement that began at a journal stands: every segment added since settles a node under
its own key. -/
structure Progress (p : Platform) (projectId : String) (start : List Segment) (s₀ : State)
    (g : GraphDefinition) (journal : List Segment) (s : State) : Prop where
  settleable : Settleable p projectId journal s g
  steps : Relation.ReflTransGen (Settlement.Step g) s₀.nodes.get s.nodes.get
  revision : s.graphRevision = s₀.graphRevision
  length : journal.length + Settlement.plannedCount g s.nodes.get
    = start.length + Settlement.plannedCount g s₀.nodes.get
  keys : ∀ key, (segmentForKey journal key).isSome = true →
    (segmentForKey start key).isSome = true ∨ ∃ node r,
      (s.nodes.get node.id).status ≠ .planned ∧ key = settleKey s₀.graphRevision node r

variable {start : List Segment} {s₀ : State}

/-- A settlement begins at its journal. -/
theorem Progress.begin
    (settleable : Settleable p projectId journal s g) :
  Progress p projectId journal s g journal s
  := ⟨settleable, .refl, rfl, rfl, fun _ known => .inl known⟩

/-- A step of settlement. -/
theorem Progress.settled
    (progress : Progress p projectId start s₀ g journal s)
    (settled : Settled screen p projectId env journal journal' s g) :
  ∃ s', Progress p projectId start s₀ g journal' s' ∧
    Settlement.plannedCount g s'.nodes.get + 1 = Settlement.plannedCount g s.nodes.get
  := by
  obtain ⟨node, mem, r, s', segment, settles, free, passes, rfl, key, after, nodes, revision⟩ :=
    settled.step
  have nodup := (valid_of_validateGraph progress.settleable.valid).nodesUnique
  have closes := Settlement.plannedCount_update nodup mem settles
  rw [← nodes] at closes
  refine ⟨s', ⟨after, ?_, revision.trans progress.revision, ?_, ?_⟩, closes⟩
  · exact progress.steps.tail ⟨node, mem, r, settles, nodes⟩
  · have := progress.length
    simp only [List.length_append, List.length_singleton]
    omega
  · intro k known
    rw [segmentForKey_concat, Bool.or_eq_true, decide_eq_true_eq] at known
    rcases known with before | ⟨-, rfl⟩
    · rcases progress.keys k before with old | ⟨node', r', closed, same⟩
      · exact .inl old
      · refine .inr ⟨node', r', ?_, same⟩
        rw [nodes]
        by_cases here : node'.id = node.id
        · rw [here, Function.update_self]
          exact settles.not_planned
        · rw [Function.update_of_ne here]
          exact closed
    · refine .inr ⟨node, r, ?_, by rw [key, progress.revision]⟩
      rw [nodes, Function.update_self]
      exact settles.not_planned

/-- No node that some order of steps settles is blocked: its key is free, and its command passes the
screen. -/
def Unblocked (screen : Command → Bool) (journal : List Segment) (s : State) : Prop :=
  ∀ g, s.graph = some g → ∀ runtimes node r,
    Relation.ReflTransGen (Settlement.Step g) s.nodes.get runtimes → node ∈ g.spec.nodes →
    Settlement.Settles g runtimes node r →
      segmentForKey journal (settleKey s.graphRevision node r) = none ∧
        ∀ env, screen (settleBatch env s.graphRevision node r).command = true

/-- During a settlement without blocked nodes, the keys of the nodes that may be settled are free. -/
theorem Progress.free
    (progress : Progress p projectId start s₀ g journal s) (graph : s₀.graph = some g)
    (unblocked : Unblocked screen start s₀) (mem : node ∈ g.spec.nodes)
    (settles : Settlement.Settles g s.nodes.get node r) :
  segmentForKey journal (settleKey s.graphRevision node r) = none ∧
    ∀ env, screen (settleBatch env s.graphRevision node r).command = true
  := by
  obtain ⟨free, passes⟩ := unblocked g graph _ node r progress.steps mem settles
  rw [progress.revision]
  refine ⟨?_, passes⟩
  rw [← Option.not_isSome_iff_eq_none]
  intro known
  rcases progress.keys _ known with old | ⟨node', r', closed, same⟩
  · simp [free] at old
  · rw [← settleKey_inj same] at closed
    exact closed settles.planned

/-- A settlement without blocked nodes settles everything. -/
theorem Progress.run
    (progress : Progress p projectId start s₀ g journal s) (graph : s₀.graph = some g)
    (unblocked : Unblocked screen start s₀) (envs : Nat → Env) {n : Nat}
    (count : Settlement.plannedCount g s.nodes.get = n) :
  ∃ journal' s', settleAutomatic p projectId screen envs (n + 1) journal = .ok journal' ∧
    Progress p projectId start s₀ g journal' s' ∧ Settlement.Final g s'.nodes.get
  := by
  induction n generalizing journal s with
  | zero =>
      rcases settleRound_free (envs 0) progress.settleable
          fun node mem r settles => progress.free graph unblocked mem settles
        with ⟨journal', round⟩ | ⟨round, final⟩
      · rcases settleRound_ok progress.settleable round with ⟨-, settled⟩ | ⟨same, -⟩
        · obtain ⟨s', -, closes⟩ := progress.settled settled
          omega
        · simp at same
      · exact ⟨journal, s, by simp [settleAutomatic, round, bind, Except.bind], progress, final⟩
  | succ n ih =>
      rcases settleRound_free (envs (n + 1)) progress.settleable
          fun node mem r settles => progress.free graph unblocked mem settles
        with ⟨journal₁, round⟩ | ⟨round, final⟩
      · rcases settleRound_ok progress.settleable round with ⟨-, settled⟩ | ⟨same, -⟩
        · obtain ⟨s₁, progress₁, closes⟩ := progress.settled settled
          obtain ⟨journal', s', ran, done⟩ := ih progress₁ (by omega)
          refine ⟨journal', s', ?_, done⟩
          rw [settleAutomatic, round]
          exact ran
        · simp at same
      · exact ⟨journal, s, by simp [settleAutomatic, round, bind, Except.bind], progress, final⟩

/-- What a loop that ends leads to. -/
theorem settleAutomatic_steps
    {envs : Nat → Env} {fuel : Nat} (settleable : Settleable p projectId journal s g)
    (ran : settleAutomatic p projectId screen envs fuel journal = .ok journal') :
  ∃ s', Settleable p projectId journal' s' g ∧
    Relation.ReflTransGen (Settlement.Step g) s.nodes.get s'.nodes.get
  := by
  induction fuel generalizing journal s with
  | zero => simp [settleAutomatic] at ran
  | succ fuel ih =>
      simp only [settleAutomatic, bind_eq_ok] at ran
      obtain ⟨⟨journal₁, created⟩, round, ran⟩ := ran
      rcases settleRound_ok settleable round with ⟨rfl, settled⟩ | ⟨rfl, rfl⟩
      · obtain ⟨s₁, progress, -⟩ := (Progress.begin settleable).settled settled
        obtain ⟨s', after, steps⟩ := ih progress.settleable (by simpa using ran)
        exact ⟨s', after, progress.steps.trans steps⟩
      · obtain rfl : journal₁ = journal' := by simpa using ran
        exact ⟨s, settleable, .refl⟩

/-- A key that is free in a journal was free before. -/
theorem segmentForKey_of_concat
    {segment : Segment} {key : String} (free : segmentForKey (journal ++ [segment]) key = none) :
  segmentForKey journal key = none
  := by
  rw [← Option.not_isSome_iff_eq_none, segmentForKey_concat] at free
  rw [← Option.not_isSome_iff_eq_none]
  exact fun known => free (by simp [known])

/-- A loop that ends has settled a node only with a free key and a command that passes the screen. -/
theorem settleAutomatic_wrote
    {fuel : Nat} {s' : State} (settleable : Settleable p projectId journal s g)
    (ran : settleAutomatic p projectId screen (fun _ => env) fuel journal = .ok journal')
    (loaded : reduceSegments p projectId journal' = .ok s') (mem : node ∈ g.spec.nodes)
    (planned : (s.nodes.get node.id).status = .planned)
    (settled : (s'.nodes.get node.id).status ≠ .planned) :
  segmentForKey journal (settleKey s.graphRevision node (s'.nodes.get node.id)) = none ∧
    screen (settleBatch env s.graphRevision node (s'.nodes.get node.id)).command = true
  := by
  induction fuel generalizing journal s with
  | zero => simp [settleAutomatic] at ran
  | succ fuel ih =>
      simp only [settleAutomatic, bind_eq_ok] at ran
      obtain ⟨⟨journal₁, created⟩, round, ran⟩ := ran
      rcases settleRound_ok settleable round with ⟨rfl, step⟩ | ⟨rfl, rfl⟩
      · have ran : settleAutomatic p projectId screen (fun _ => env) fuel journal₁ = .ok journal' := by
          simpa using ran
        obtain ⟨node', mem', r, s₁, segment, settles, free, passes, rfl, -, after, nodes, revision⟩ :=
          step.step
        by_cases same : node.id = node'.id
        · have nodup := (valid_of_validateGraph settleable.valid).nodesUnique
          obtain rfl := List.inj_on_of_nodup_map nodup mem mem' same
          have here : s₁.nodes.get node.id = r := by rw [nodes, Function.update_self]
          obtain ⟨s₂, after₂, steps⟩ := settleAutomatic_steps after ran
          obtain rfl : s₂ = s' := Except.ok.inj (after₂.loaded.symm.trans loaded)
          have stays := Settlement.steps_settled steps (by rw [here]; exact settles.not_planned)
          rw [stays, here]
          exact ⟨free, passes⟩
        · have planned₁ : (s₁.nodes.get node.id).status = .planned := by
            rw [nodes, Function.update_of_ne same]
            exact planned
          obtain ⟨free₁, passes₁⟩ := ih after ran planned₁
          rw [revision] at free₁ passes₁
          exact ⟨segmentForKey_of_concat free₁, passes₁⟩
      · obtain rfl : journal₁ = journal' := by simpa using ran
        obtain rfl : s = s' := Except.ok.inj (settleable.loaded.symm.trans loaded)
        exact absurd planned settled

/-! ### When settlement does what it is for -/

/-- How many nodes of the state are planned. -/
def State.plannedNodes (s : State) : Nat :=
  match s.graph with
  | none => 0
  | some g => Settlement.plannedCount g s.nodes.get

/-- Settlement from the journal ends after at most one append for each planned node. Then nothing is
unreachable and no node without an executor is ready, and the run-time sides are those that every other
order of skips and completions leads to. -/
def SettlesAll (p : Platform) (projectId : String) (screen : Command → Bool)
    (journal : List Segment) : Prop :=
  ∀ envs s, reduceSegments p projectId journal = .ok s → ∃ fuel journal' s',
    settleAutomatic p projectId screen envs fuel journal = .ok journal' ∧
    journal'.length ≤ journal.length + s.plannedNodes ∧
    reduceSegments p projectId journal' = .ok s' ∧
    (computeFrontier s').unreachable = [] ∧
    (∀ node, s'.nodeDefinition node.id = some node → node.kind.isDeterministic = true →
      node.id ∉ (computeFrontier s').ready) ∧
    ∀ g, s.graph = some g → ∀ runtimes,
      Relation.ReflTransGen (Settlement.Step g) s.nodes.get runtimes →
      Settlement.Final g runtimes → runtimes = s'.nodes.get

/-- A journal of a run accepts appends. -/
theorem Event.Sound.not_retirement
    {event : Event} (sound : event.Sound p) :
  event.isRetirement = false
  := by
  cases sound with
  | record event record => cases event <;> first | rfl | (simp [Event.isRecord, Event.isPlain] at record)
  | _ => rfl

variable {allow : State → Call → Prop} {w : World}

/-- A reachable journal with a graph can be settled. -/
theorem Reachable.settleable
    (reachable : Reachable p projectId allow w)
    (loaded : reduceSegments p projectId w.journal = .ok s) (graph : s.graph = some g) :
  Settleable p projectId w.journal s g
  := ⟨loaded, fun x mem event mem' => (reachable.sound x mem event mem').not_retirement, graph,
    reachable.validGraph (List.prefix_refl _) loaded graph⟩

/-- What is left when everything is settled. -/
theorem Settleable.final
    (settleable : Settleable p projectId journal s g) (final : Settlement.Final g s.nodes.get) :
  (computeFrontier s).unreachable = [] ∧
    ∀ node, s.nodeDefinition node.id = some node → node.kind.isDeterministic = true →
      node.id ∉ (computeFrontier s).ready
  := by
  constructor
  · rw [List.eq_nil_iff_forall_not_mem]
    intro nodeId unreachable
    obtain ⟨node, mem, -, settles⟩ := (mem_unreachable_iff_skip settleable.graph).mp unreachable
    exact final node mem _ settles
  · intro node declared deterministic ready
    have mem := (declared_node settleable.graph declared).2
    obtain ⟨outcome, -, settles⟩ := (mem_ready_iff_complete
      (valid_of_validateGraph settleable.valid) settleable.graph mem deterministic).mp ready
    exact final node mem _ settles

/-- Where settlement does what it is for, no node is blocked. -/
theorem SettlesAll.unblocked
    (all : SettlesAll p projectId screen w.journal) (reachable : Reachable p projectId allow w)
    (loaded : reduceSegments p projectId w.journal = .ok s) :
  Unblocked screen w.journal s
  := by
  intro g graph runtimes node r steps mem settles
  have settleable := reachable.settleable loaded graph
  have nodup := (valid_of_validateGraph settleable.valid).nodesUnique
  obtain ⟨final, leads, ended⟩ := Settlement.exists_final nodup s.nodes.get
  -- a loop in the given surroundings ends in the one final state, where the node is settled so
  have wrote : ∀ env, segmentForKey w.journal (settleKey s.graphRevision node r) = none ∧
      screen (settleBatch env s.graphRevision node r).command = true := by
    intro env
    obtain ⟨fuel, journal', s', ran, -, loaded', -, -, only⟩ := all (fun _ => env) s loaded
    have side : s'.nodes.get node.id = r := by
      rw [← only g graph final leads ended]
      exact Settlement.final_of_settles nodup steps mem settles leads ended
    have planned := Settlement.steps_planned steps settles.planned
    have closed : (s'.nodes.get node.id).status ≠ .planned := by
      rw [side]
      exact settles.not_planned
    have := settleAutomatic_wrote settleable ran loaded' mem planned closed
    rwa [side] at this
  exact ⟨(wrote ⟨fun _ => 0, fun _ => ""⟩).1, fun env => (wrote env).2⟩

end Dagrail
