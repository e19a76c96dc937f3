import Dagrail.Service.FrozenContract
import Dagrail.Service.ResourceRuns

/-!
# Live attempts

An attempt that is not over is the last one of its node, and the node is active. Every call keeps
this up to the appends of imported histories that read from the journal as the importer read them.
-/

namespace Dagrail

/-- Is the attempt known and not over? -/
def State.IsLive (s : State) (attemptId : String) : Prop :=
  ∃ attempt, s.attempts.lookup attemptId = some attempt ∧ attempt.status ≠ .terminal

/-- Attempts are filed under their ids and listed at their nodes, and those that are not over are
the last ones of active nodes of the graph. -/
structure LiveAttempts (s : State) : Prop where
  filed : ∀ id attempt, s.attempts.lookup id = some attempt → attempt.id = id
  listed : ∀ nodeId, ∀ id ∈ s.nodeAttempts.get nodeId, ∃ attempt,
    s.attempts.lookup id = some attempt ∧ attempt.nodeId = nodeId
  active : ∀ id attempt, s.attempts.lookup id = some attempt → attempt.status ≠ .terminal →
    (s.nodes.get attempt.nodeId).status = .active
  last : ∀ id attempt, s.attempts.lookup id = some attempt → attempt.status ≠ .terminal →
    (s.nodeAttempts.get attempt.nodeId).getLast? = some id
  declared : ∀ id attempt, s.attempts.lookup id = some attempt → attempt.status ≠ .terminal →
    ∃ g, s.graph = some g ∧ g.hasNode attempt.nodeId = true

namespace LiveAttempts

variable {s s' : State}

/-- The law speaks about the graph, the nodes and the attempts. -/
theorem congr
    (live : LiveAttempts s) (graph : s'.graph = s.graph) (nodes : s'.nodes = s.nodes)
    (attempts : s'.attempts = s.attempts) (nodeAttempts : s'.nodeAttempts = s.nodeAttempts) :
  LiveAttempts s'
  := by
  constructor
  · rw [attempts]
    exact live.filed
  · rw [attempts, nodeAttempts]
    exact live.listed
  · rw [attempts, nodes]
    exact live.active
  · rw [attempts, nodeAttempts]
    exact live.last
  · rw [attempts, graph]
    exact live.declared

/-- A new project has no attempts. -/
theorem new
    (projectId : String) :
  LiveAttempts (State.new projectId)
  := by
  have none_ : (default : List String) = [] := rfl
  constructor <;> simp [State.new, Table.get, none_]

/-- Two live attempts of one node are the same. -/
theorem unique
    (live : LiveAttempts s) {id id' : String} {attempt attempt' : Attempt}
    (known : s.attempts.lookup id = some attempt) (open_ : attempt.status ≠ .terminal)
    (known' : s.attempts.lookup id' = some attempt') (open' : attempt'.status ≠ .terminal)
    (same : attempt'.nodeId = attempt.nodeId) :
  id' = id
  := by
  have last := live.last id attempt known open_
  have last' := live.last id' attempt' known' open'
  rw [same, last] at last'
  exact (Option.some.inj last').symm

/-- The law stays when a known attempt is written that keeps its node and does not start again. -/
theorem write
    (live : LiveAttempts s) {id : String} {attempt attempt' : Attempt}
    (known : s.attempts.lookup id = some attempt) (own : attempt'.id = id)
    (node : attempt'.nodeId = attempt.nodeId)
    (over_ : attempt'.status ≠ .terminal → attempt.status ≠ .terminal) :
  LiveAttempts { s with attempts := s.attempts.insert id attempt' }
  := by
  -- what is found after the write was there before, at the same node
  have before : ∀ id₁ attempt₁, (s.attempts.insert id attempt').lookup id₁ = some attempt₁ →
      ∃ old, s.attempts.lookup id₁ = some old ∧ old.nodeId = attempt₁.nodeId ∧
        (attempt₁.status ≠ .terminal → old.status ≠ .terminal) := by
    intro id₁ attempt₁ found
    rw [Table.lookup_insert] at found
    split at found
    · subst id₁
      obtain rfl := Option.some.inj found
      exact ⟨attempt, known, node.symm, over_⟩
    · exact ⟨attempt₁, found, rfl, fun h => h⟩
  constructor
  · intro id₁ attempt₁ found
    rw [Table.lookup_insert] at found
    split at found
    · subst id₁
      obtain rfl := Option.some.inj found
      exact own
    · exact live.filed id₁ attempt₁ found
  · intro nodeId id₁ mem
    obtain ⟨old, found, here⟩ := live.listed nodeId id₁ mem
    rw [Table.lookup_insert]
    split
    · subst id₁
      obtain rfl := Option.some.inj (known.symm.trans found)
      exact ⟨attempt', rfl, node.trans here⟩
    · exact ⟨old, found, here⟩
  · intro id₁ attempt₁ found open_
    obtain ⟨old, known₁, same, still⟩ := before id₁ attempt₁ found
    rw [← same]
    exact live.active id₁ old known₁ (still open_)
  · intro id₁ attempt₁ found open_
    obtain ⟨old, known₁, same, still⟩ := before id₁ attempt₁ found
    rw [← same]
    exact live.last id₁ old known₁ (still open_)
  · intro id₁ attempt₁ found open_
    obtain ⟨old, known₁, same, still⟩ := before id₁ attempt₁ found
    rw [← same]
    exact live.declared id₁ old known₁ (still open_)

/-- The law stays when a node without live attempts is written. -/
theorem writeNode
    (live : LiveAttempts s) {nodeId : String} (runtime : NodeRuntime)
    (none_ : ∀ id attempt, s.attempts.lookup id = some attempt → attempt.nodeId = nodeId →
      attempt.status = .terminal) :
  LiveAttempts { s with nodes := s.nodes.insert nodeId runtime }
  := by
  refine ⟨live.filed, live.listed, ?_, live.last, live.declared⟩
  intro id attempt known open_
  have other : attempt.nodeId ≠ nodeId := fun same => open_ (none_ id attempt known same)
  rw [Table.get_insert_of_ne other]
  exact live.active id attempt known open_

/-- What superseding a node writes. -/
theorem supersedeNode_fields
    (s : State) (at_ : Stamp) (nodeId : String) :
  (State.supersedeNode at_ s nodeId).graph = s.graph ∧
  (State.supersedeNode at_ s nodeId).nodeAttempts = s.nodeAttempts ∧
  (State.supersedeNode at_ s nodeId).nodes = (match s.nodes.lookup nodeId with
    | some runtime => s.nodes.insert nodeId { runtime with status := .superseded }
    | none => s.nodes) ∧
  (State.supersedeNode at_ s nodeId).attempts = (match s.latestAttempt nodeId with
    | some attempt =>
        if attempt.status = .terminal then s.attempts
        else s.attempts.insert attempt.id (attempt.superseded at_)
    | none => s.attempts)
  := by
  have last : ∀ nodes, State.latestAttempt { s with nodes } nodeId = s.latestAttempt nodeId :=
    fun _ => rfl
  unfold State.supersedeNode
  cases s.nodes.lookup nodeId with
  | none =>
      dsimp only
      cases found : s.latestAttempt nodeId with
      | none => exact ⟨rfl, rfl, rfl, rfl⟩
      | some attempt =>
          by_cases over_ : attempt.status = .terminal
          · simp only [if_pos over_, and_self]
          · simp only [if_neg over_]
            exact ⟨rfl, rfl, rfl, rfl⟩
  | some runtime =>
      dsimp only
      rw [last]
      cases found : s.latestAttempt nodeId with
      | none => exact ⟨rfl, rfl, rfl, rfl⟩
      | some attempt =>
          by_cases over_ : attempt.status = .terminal
          · simp only [if_pos over_, and_self]
          · simp only [if_neg over_]
            exact ⟨rfl, rfl, rfl, rfl⟩

/-- Closing the last attempt of a node keeps the law, and no attempt of the node is live then. -/
theorem closeLast
    (live : LiveAttempts s) (at_ : Stamp) (nodeId : String) {attempts : Table Attempt}
    (closed : attempts = (match s.latestAttempt nodeId with
      | some attempt =>
          if attempt.status = .terminal then s.attempts
          else s.attempts.insert attempt.id (attempt.superseded at_)
      | none => s.attempts)) :
  LiveAttempts { s with attempts } ∧ ∀ id attempt, attempts.lookup id = some attempt →
    attempt.nodeId = nodeId → attempt.status = .terminal
  := by
  -- a live attempt of the node is the last one
  have only : ∀ id attempt, s.attempts.lookup id = some attempt → attempt.nodeId = nodeId →
      attempt.status ≠ .terminal → s.latestAttempt nodeId = some attempt := by
    intro id attempt known own open_
    have last := live.last id attempt known open_
    rw [own] at last
    simp [State.latestAttempt, last, known]
  split at closed
  · rename_i attempt last
    have last' := last
    simp only [State.latestAttempt, Option.bind_eq_some_iff] at last'
    obtain ⟨id, -, known⟩ := last'
    obtain rfl : attempt.id = id := live.filed id attempt known
    split at closed
    · rename_i over_
      subst closed
      refine ⟨live, fun id' attempt' known' own => ?_⟩
      by_contra open_
      obtain rfl := Option.some.inj (last.symm.trans (only id' attempt' known' own open_))
      exact open_ over_
    · subst closed
      refine ⟨live.write known rfl rfl (fun h => absurd rfl h), fun id' attempt' known' own => ?_⟩
      rw [Table.lookup_insert] at known'
      split at known'
      · obtain rfl := Option.some.inj known'
        rfl
      · rename_i other
        by_contra open_
        obtain rfl := Option.some.inj (last.symm.trans (only id' attempt' known' own open_))
        exact other (live.filed id' attempt known').symm
  · rename_i none_
    subst closed
    refine ⟨live, fun id' attempt' known' own => ?_⟩
    by_contra open_
    rw [only id' attempt' known' own open_] at none_
    simp at none_

/-- Superseding a node keeps the law. -/
theorem supersedeNode
    (live : LiveAttempts s) (at_ : Stamp) (nodeId : String) :
  LiveAttempts (State.supersedeNode at_ s nodeId)
  := by
  obtain ⟨graph, nodeAttempts, nodes, attempts⟩ := supersedeNode_fields s at_ nodeId
  obtain ⟨kept, none_⟩ := live.closeLast at_ nodeId attempts
  cases found : s.nodes.lookup nodeId with
  | none =>
      rw [found] at nodes
      exact kept.congr graph nodes rfl nodeAttempts
  | some runtime =>
      rw [found] at nodes
      exact (kept.writeNode { runtime with status := .superseded } none_).congr graph nodes rfl
        nodeAttempts

/-- What is written for a node of a list is there behind the writes for the list. -/
theorem lookup_foldl_insert
    {f : NodeDefinition → NodeRuntime} {nodes : List NodeDefinition} {t : Table NodeRuntime}
    {k : String} {runtime : NodeRuntime} (same : ∀ node ∈ nodes, node.id = k → f node = runtime)
    (known : t.lookup k = some runtime ∨ ∃ node ∈ nodes, node.id = k) :
  (nodes.foldl (fun t node => t.insert node.id (f node)) t).lookup k = some runtime
  := by
  induction nodes generalizing t with
  | nil => simpa using known
  | cons node rest ih =>
      rw [List.foldl_cons]
      refine ih (fun node mem => same node (List.mem_cons_of_mem _ mem)) ?_
      rw [Table.lookup_insert]
      by_cases here : k = node.id
      · left
        rw [if_pos here, same node List.mem_cons_self here.symm]
      · rw [if_neg here]
        rcases known with known | ⟨node', mem, own⟩
        · exact .inl known
        · rcases List.mem_cons.mp mem with rfl | mem
          · exact absurd own.symm here
          · exact .inr ⟨node', mem, own⟩

/-- A graph that keeps the nodes of the live attempts keeps the law. -/
theorem reviseGraph
    (live : LiveAttempts s) (graph : GraphDefinition) (revision : String) (superseded : List String)
    (at_ : Stamp) (kept : ∀ g, s.graph = some g → ∀ nodeId, Frozen s g nodeId →
      graph.hasNode nodeId = true) :
  LiveAttempts (s.reviseGraph graph revision superseded at_)
  := by
  have stays : ∀ id attempt, s.attempts.lookup id = some attempt → attempt.status ≠ .terminal →
      graph.hasNode attempt.nodeId = true := by
    intro id attempt known open_
    obtain ⟨g, graph, declared⟩ := live.declared id attempt known open_
    refine kept g graph attempt.nodeId ⟨declared, ?_⟩
    rw [live.active id attempt known open_]
    simp
  have revised : LiveAttempts
      { s with graph := some graph, graphRevision := revision
               nodes := State.revisedNodes s.nodes graph } := by
    refine ⟨live.filed, live.listed, ?_, live.last, ?_⟩
    · intro id attempt known open_
      have active := live.active id attempt known open_
      cases found : s.nodes.lookup attempt.nodeId with
      | none =>
          have absent : s.nodes.get attempt.nodeId = default := by simp [Table.get, found]
          rw [absent] at active
          exact absurd active (by decide)
      | some runtime =>
          have declared := stays id attempt known open_
          simp only [GraphDefinition.hasNode, List.any_eq_true, decide_eq_true_eq] at declared
          have kept : (State.revisedNodes s.nodes graph).lookup attempt.nodeId = some runtime := by
            refine lookup_foldl_insert ?_ (.inr declared)
            rintro node - own
            rw [own, found]
            rfl
          rw [Table.get_of_lookup found] at active
          rw [Table.get_of_lookup kept]
          exact active
    · intro id attempt known open_
      exact ⟨graph, rfl, stays id attempt known open_⟩
  unfold State.reviseGraph
  exact List.foldlRecOn superseded (State.supersedeNode at_) revised
    fun s live nodeId _ => live.supersedeNode at_ nodeId

/-- The start of a new attempt of a planned node keeps the law. -/
theorem startAttempt
    (live : LiveAttempts s) {attempt : Attempt} (fresh : s.attempts.has attempt.id = false)
    (planned : (s.nodes.get attempt.nodeId).status = .planned)
    (declared : ∃ g, s.graph = some g ∧ g.hasNode attempt.nodeId = true) :
  LiveAttempts (s.startAttempt attempt)
  := by
  have unknown : s.attempts.lookup attempt.id = none := by
    simpa [Table.has] using fresh
  -- a live attempt of before is one of another node
  have other : ∀ id old, s.attempts.lookup id = some old → old.status ≠ .terminal →
      old.nodeId ≠ attempt.nodeId := by
    intro id old known open_ same
    have active := live.active id old known open_
    rw [same, planned] at active
    simp at active
  constructor
  · exact filed_insert live.filed attempt
  · intro nodeId id mem
    simp only [State.startAttempt] at mem ⊢
    rw [Table.lookup_insert]
    by_cases own : nodeId = attempt.nodeId
    · subst own
      rw [Table.get_insert_self, List.mem_append, List.mem_singleton] at mem
      by_cases new : id = attempt.id
      · exact ⟨attempt, if_pos new, rfl⟩
      · rw [if_neg new]
        exact live.listed _ id (mem.resolve_right new)
    · rw [Table.get_insert_of_ne own] at mem
      obtain ⟨old, known, here⟩ := live.listed nodeId id mem
      have old_ : id ≠ attempt.id := by
        rintro rfl
        simp [unknown] at known
      rw [if_neg old_]
      exact ⟨old, known, here⟩
  · intro id old known open_
    simp only [State.startAttempt, Table.lookup_insert] at known ⊢
    split at known
    · obtain rfl := Option.some.inj known
      rw [Table.get_insert_self]
    · rw [Table.get_insert_of_ne (other id old known open_)]
      exact live.active id old known open_
  · intro id old known open_
    simp only [State.startAttempt, Table.lookup_insert] at known ⊢
    split at known
    · rename_i same
      obtain rfl := Option.some.inj known
      rw [Table.get_insert_self, List.getLast?_concat, same]
    · rw [Table.get_insert_of_ne (other id old known open_)]
      exact live.last id old known open_
  · intro id old known open_
    simp only [State.startAttempt, Table.lookup_insert] at known ⊢
    split at known
    · obtain rfl := Option.some.inj known
      exact declared
    · exact live.declared id old known open_

/-- The end of a live attempt keeps the law. -/
theorem finishAttempt
    (live : LiveAttempts s) {attemptId : String} (open_ : s.IsLive attemptId) (outcome : String)
    (outcomeClass : OutcomeClass) (facts : PredicateFacts) (updatedAt : Stamp) :
  LiveAttempts (s.finishAttempt attemptId outcome outcomeClass facts updatedAt)
  := by
  obtain ⟨attempt, known, open_⟩ := open_
  obtain rfl := live.filed attemptId attempt known
  let closed : Attempt := { attempt with status := .terminal, outcome, updatedAt }
  have written : LiveAttempts { s with attempts := s.attempts.insert attempt.id closed } :=
    live.write known rfl rfl fun h => absurd rfl h
  have none_ : ∀ id other, (s.attempts.insert attempt.id closed).lookup id = some other →
      other.nodeId = attempt.nodeId → other.status = .terminal := by
    intro id other found same
    rw [Table.lookup_insert] at found
    split at found
    · obtain rfl := Option.some.inj found
      rfl
    · rename_i apart
      by_contra open'
      exact apart (live.unique known open_ found open' same)
  have := written.writeNode
    { status := if outcomeClass = .retryable then .planned else .terminal
      outcome, outcomeClass, facts } none_
  simpa only [State.finishAttempt, Table.get_of_lookup known] using this

end LiveAttempts

/-! ### Lawful events -/

/-- If the attempt is one of a task and ends with a success, it was submitted. -/
def State.Submits (s : State) (attemptId : String) (outcomeClass : OutcomeClass) : Prop :=
  ∀ attempt node, s.attempts.lookup attemptId = some attempt →
    s.nodeDefinition attempt.nodeId = some node → node.kind = .task → outcomeClass = .success →
    attempt.status = .submitted

/-- What an event that writes nodes or attempts has to respect for the law to stay. -/
def Event.Lawful (s : State) : Event → Prop
  | .graphImported .. => s.graph = none
  | .graphRevised graph _ _ _ _ => ∀ g, s.graph = some g → ∀ nodeId, Frozen s g nodeId →
      graph.hasNode nodeId = true
  | .attemptStarted attempt | .attemptLeased attempt =>
      s.attempts.has attempt.id = false ∧ (s.nodes.get attempt.nodeId).status = .planned ∧
        (∃ g, s.graph = some g ∧ g.hasNode attempt.nodeId = true) ∧ attempt.status = .leased ∧
        attempt.number = (s.nodeAttempts.get attempt.nodeId).length + 1
  | .attemptCheckpointed checkpoint => s.attempts.has checkpoint.attemptId = true
  | .attemptStatusChanged attemptId status _ => s.IsLive attemptId ∧ status ≠ .terminal
  | .attemptFinished attemptId _ outcomeClass _ _ =>
      s.IsLive attemptId ∧ s.Submits attemptId outcomeClass
  | .nodeAutoCompleted nodeId _ _ =>
      ∀ node, s.nodeDefinition nodeId = some node → node.kind.isDeterministic = true
  | _ => True

/-- Does the event close the attempt of the node? -/
def Event.Closes (attemptId nodeId : String) : Event → Prop
  | .graphRevised _ _ _ superseded _ => nodeId ∈ superseded
  | .attemptFinished id _ _ _ _ => id = attemptId
  | _ => False

/-- The attempt is one of the node and not over. -/
def State.LiveAt (s : State) (attemptId nodeId : String) : Prop :=
  ∃ attempt, s.attempts.lookup attemptId = some attempt ∧ attempt.nodeId = nodeId ∧
    attempt.status ≠ .terminal

variable {p : Platform} {projectId : String} {s s' : State} {n : Nat} {at_ : Stamp} {event : Event}
  {attemptId nodeId : String}

/-- An event that writes neither nodes nor attempts is lawful. -/
theorem Event.lawful_of_quiet
    (quiet : event.writesRuns = false) :
  event.Lawful s
  := by
  cases event <;> trivial

/-- Lawfulness depends on the graph, the nodes and the attempts. -/
theorem Event.Lawful.congr
    (lawful : event.Lawful s) (graph : s'.graph = s.graph) (nodes : s'.nodes = s.nodes)
    (attempts : s'.attempts = s.attempts) (nodeAttempts : s'.nodeAttempts = s.nodeAttempts) :
  event.Lawful s'
  := by
  have declared (nodeId : String) : s'.nodeDefinition nodeId = s.nodeDefinition nodeId := by
    simp only [State.nodeDefinition, graph]
  cases event <;> simp_all [Event.Lawful, State.IsLive, State.Submits, Frozen]

/-- Lawful events keep the law. -/
theorem State.applyEvent_liveAttempts
    (live : LiveAttempts s) (lawful : event.Lawful s) (h : s.applyEvent p n at_ event = .ok s') :
  LiveAttempts s'
  := by
  have frame := applyEvent_frame h
  cases event with
  | graphImported graph revision digest =>
      obtain rfl := Except.ok.inj h
      have none_ : ∀ id attempt, s.attempts.lookup id = some attempt → attempt.status = .terminal := by
        intro id attempt known
        by_contra open_
        obtain ⟨g, some_, -⟩ := live.declared id attempt known open_
        simp [show s.graph = none from lawful] at some_
      refine ⟨live.filed, live.listed, ?_, ?_, ?_⟩ <;> intro id attempt known open_ <;>
        exact absurd (none_ id attempt known) open_
  | graphRevised graph revision previous superseded impact =>
      obtain rfl := Except.ok.inj h
      exact live.reviseGraph graph revision superseded at_ lawful
  | attemptStarted attempt | attemptLeased attempt =>
      obtain rfl := Except.ok.inj h
      exact live.startAttempt lawful.1 lawful.2.1 lawful.2.2.1
  | attemptCheckpointed checkpoint =>
      obtain rfl := Except.ok.inj h
      obtain ⟨attempt, known⟩ := Table.has_iff.mp lawful
      have own := live.filed _ attempt known
      let noted : Attempt :=
        { attempt with checkpointId := checkpoint.id, updatedAt := checkpoint.createdAt }
      have written : LiveAttempts
          { s with attempts := s.attempts.insert checkpoint.attemptId noted } :=
        live.write known own rfl fun h => h
      refine written.congr rfl rfl ?_ rfl
      simp only [recordCheckpoint, Table.get_of_lookup known, own, noted]
  | attemptStatusChanged id status updatedAt =>
      obtain rfl := Except.ok.inj h
      obtain ⟨⟨attempt, known, open_⟩, -⟩ := lawful
      obtain rfl := live.filed _ attempt known
      simp only [changeAttemptStatus, Table.get_of_lookup known]
      exact live.write known rfl rfl fun _ => open_
  | attemptFinished id outcome outcomeClass facts updatedAt =>
      obtain rfl := Except.ok.inj h
      exact live.finishAttempt lawful.1 outcome outcomeClass facts updatedAt
  | nodeAutoCompleted nodeId | nodeAutoSkipped nodeId =>
      obtain ⟨planned, rfl⟩ := settleNode_ok h
      refine live.writeNode _ ?_
      intro id attempt known own
      by_contra open_
      obtain ⟨runtime, found, planned⟩ := planned
      have active := live.active id attempt known open_
      rw [own, Table.get_of_lookup found, planned] at active
      simp at active
  | _ =>
      obtain ⟨nodes, attempts, nodeAttempts⟩ := frame.runs rfl
      exact live.congr (frame.graph rfl).1 nodes attempts nodeAttempts

/-- Superseding another node leaves a live attempt. -/
theorem LiveAttempts.liveAt_supersedeNode
    (live : LiveAttempts s) (here : s.LiveAt attemptId nodeId) {other : String}
    (apart : nodeId ≠ other) (at_ : Stamp) :
  (State.supersedeNode at_ s other).LiveAt attemptId nodeId
  := by
  obtain ⟨attempt, known, own, open_⟩ := here
  refine ⟨attempt, ?_, own, open_⟩
  obtain ⟨-, -, -, attempts⟩ := supersedeNode_fields s at_ other
  rw [attempts]
  split
  · rename_i closed last
    split
    · exact known
    · rw [Table.lookup_insert, if_neg, known]
      rintro rfl
      simp only [State.latestAttempt, Option.bind_eq_some_iff] at last
      obtain ⟨id, mem, found⟩ := last
      obtain rfl := live.filed id closed found
      obtain ⟨old, found', there⟩ := live.listed other _ (List.mem_of_getLast? mem)
      rw [known] at found'
      obtain rfl := Option.some.inj found'
      exact apart (own.symm.trans there)
  · exact known

/-- A live attempt stays live when a known attempt is written that keeps its node and does not end.
-/
theorem LiveAttempts.liveAt_write
    (here : s.LiveAt attemptId nodeId) {id : String} {old new : Attempt}
    (known : s.attempts.lookup id = some old) (node : new.nodeId = old.nodeId)
    (open_ : id = attemptId → new.status ≠ .terminal) :
  ∃ attempt, (s.attempts.insert id new).lookup attemptId = some attempt ∧ attempt.nodeId = nodeId ∧
    attempt.status ≠ .terminal
  := by
  obtain ⟨attempt, found, own, still⟩ := here
  rw [Table.lookup_insert]
  by_cases same : attemptId = id
  · subst same
    obtain rfl := Option.some.inj (known.symm.trans found)
    exact ⟨new, if_pos rfl, node.trans own, open_ rfl⟩
  · exact ⟨attempt, by rw [if_neg same, found], own, still⟩

/-- A live attempt stays live under lawful events that do not close it. -/
theorem State.applyEvent_liveAt
    (live : LiveAttempts s) (lawful : event.Lawful s) (here : s.LiveAt attemptId nodeId)
    (spares : ¬ event.Closes attemptId nodeId) (h : s.applyEvent p n at_ event = .ok s') :
  s'.LiveAt attemptId nodeId
  := by
  have frame := applyEvent_frame h
  have here_ := here
  obtain ⟨attempt, known, own, open_⟩ := here_
  cases event with
  | graphRevised graph revision previous superseded impact =>
      obtain rfl := Except.ok.inj h
      have begun : LiveAttempts { s with graph := some graph, graphRevision := revision
                                         nodes := State.revisedNodes s.nodes graph } :=
        live.reviseGraph graph revision [] at_ lawful
      have kept : ∀ (ids : List String) (s : State), nodeId ∉ ids → LiveAttempts s →
          s.LiveAt attemptId nodeId → (ids.foldl (supersedeNode at_) s).LiveAt attemptId nodeId := by
        intro ids
        induction ids with
        | nil => exact fun _ _ _ here => here
        | cons id rest ih =>
            intro s apart live here
            rw [List.mem_cons, not_or] at apart
            exact ih _ apart.2 (live.supersedeNode at_ id) (live.liveAt_supersedeNode here apart.1 at_)
      exact kept superseded _ spares begun here
  | attemptStarted new | attemptLeased new =>
      obtain rfl := Except.ok.inj h
      refine ⟨attempt, ?_, own, open_⟩
      simp only [startAttempt]
      rw [Table.lookup_insert, if_neg, known]
      rintro rfl
      simp [Event.Lawful, Table.has, known] at lawful
  | attemptCheckpointed checkpoint =>
      obtain rfl := Except.ok.inj h
      obtain ⟨old, found⟩ := Table.has_iff.mp lawful
      have filed := live.filed _ old found
      simp only [LiveAt, recordCheckpoint, Table.get_of_lookup found, filed]
      refine LiveAttempts.liveAt_write here found rfl ?_
      rintro rfl
      obtain rfl := Option.some.inj (found.symm.trans known)
      exact open_
  | attemptStatusChanged id status updatedAt =>
      obtain rfl := Except.ok.inj h
      obtain ⟨⟨old, found, -⟩, goes⟩ := lawful
      have filed := live.filed _ old found
      simp only [LiveAt, changeAttemptStatus, Table.get_of_lookup found, filed]
      exact LiveAttempts.liveAt_write here found rfl fun _ => goes
  | attemptFinished id outcome outcomeClass facts updatedAt =>
      obtain rfl := Except.ok.inj h
      obtain ⟨⟨old, found, -⟩, -⟩ := lawful
      have filed := live.filed _ old found
      simp only [LiveAt, finishAttempt, Table.get_of_lookup found, filed]
      exact LiveAttempts.liveAt_write here found rfl fun same => absurd same spares
  | nodeAutoCompleted | nodeAutoSkipped =>
      obtain ⟨planned, rfl⟩ := settleNode_ok h
      exact ⟨attempt, known, own, open_⟩
  | graphImported graph revision digest =>
      obtain rfl := Except.ok.inj h
      exact ⟨attempt, known, own, open_⟩
  | _ =>
      obtain ⟨-, attempts, -⟩ := frame.runs rfl
      exact ⟨attempt, by rw [attempts]; exact known, own, open_⟩

end Dagrail
