import Dagrail.Service.LiveRuns

/-!
# Attempts and their nodes

The laws of attempts over a run: an active node has exactly one attempt that is not over, and that
is its last one; the attempts of a node are numbered from one; an attempt that is over stays so; and
a task succeeds only from a submitted attempt.
-/

namespace Dagrail

/-! ### Numbered attempts -/

/-- Every attempt is listed at its node with its number, and an active node is worked on. -/
structure NumberedAttempts (s : State) : Prop where
  numbered : ∀ nodeId (i : Nat) id, (s.nodeAttempts.get nodeId)[i]? = some id → ∃ attempt,
    s.attempts.lookup id = some attempt ∧ attempt.nodeId = nodeId ∧ attempt.number = i + 1
  whole : ∀ id attempt, s.attempts.lookup id = some attempt → id ∈ s.nodeAttempts.get attempt.nodeId
  worked : ∀ nodeId, (s.nodes.get nodeId).status = .active → ∃ id attempt,
    s.attempts.lookup id = some attempt ∧ attempt.nodeId = nodeId ∧ attempt.status ≠ .terminal

/-- What a fold of writes leaves at a key was there before, or is written for a node with that id.
-/
theorem lookup_foldl_insert_cases
    {f : NodeDefinition → NodeRuntime} {nodes : List NodeDefinition} {t : Table NodeRuntime}
    {k : String} {runtime : NodeRuntime}
    (found : (nodes.foldl (fun t node => t.insert node.id (f node)) t).lookup k = some runtime) :
  t.lookup k = some runtime ∨ ∃ node ∈ nodes, node.id = k ∧ f node = runtime
  := by
  induction nodes generalizing t with
  | nil => exact .inl found
  | cons node rest ih =>
      rw [List.foldl_cons] at found
      rcases ih found with known | ⟨node', mem, own, same⟩
      · rw [Table.lookup_insert] at known
        split at known
        · rename_i here
          exact .inr ⟨node, List.mem_cons_self, here.symm, Option.some.inj known⟩
        · exact .inl known
      · exact .inr ⟨node', List.mem_cons_of_mem _ mem, own, same⟩

/-- A node of a revised graph is as it was, or planned, or it is none of the graph. -/
theorem State.revisedNodes_cases
    (previous : Table NodeRuntime) (graph : GraphDefinition) (nodeId : String) :
  (State.revisedNodes previous graph).get nodeId = previous.get nodeId ∨
    (State.revisedNodes previous graph).get nodeId = { status := .planned } ∨
    (State.revisedNodes previous graph).get nodeId = default
  := by
  cases found : (State.revisedNodes previous graph).lookup nodeId with
  | none => exact .inr (.inr (by simp [Table.get, found]))
  | some runtime =>
      rw [Table.get_of_lookup found]
      rcases lookup_foldl_insert_cases found with none_ | ⟨node, -, rfl, same⟩
      · simp at none_
      · cases known : previous.lookup node.id with
        | none => exact .inr (.inl (by rw [← same, known]; rfl))
        | some old => exact .inl (by rw [← same, known, Table.get_of_lookup known]; rfl)

namespace NumberedAttempts

variable {s s' : State}

/-- The law speaks about the nodes and the attempts, and only about active nodes. -/
theorem congr
    (law : NumberedAttempts s) (attempts : s'.attempts = s.attempts)
    (nodeAttempts : s'.nodeAttempts = s.nodeAttempts)
    (works : ∀ nodeId, (s'.nodes.get nodeId).status = .active → (s.nodes.get nodeId).status = .active) :
  NumberedAttempts s'
  := by
  constructor
  · rw [attempts, nodeAttempts]
    exact law.numbered
  · rw [attempts, nodeAttempts]
    exact law.whole
  · intro nodeId active
    rw [attempts]
    exact law.worked nodeId (works nodeId active)

/-- A new project has no attempts. -/
theorem new
    (projectId : String) :
  NumberedAttempts (State.new projectId)
  := by
  have none_ : (default : List String) = [] := rfl
  have absent : (default : NodeRuntime).status = .absent := rfl
  constructor <;> simp [State.new, Table.get, none_, absent]

/-- The law stays when a known attempt is written that keeps its node and its number, if its node is
no longer active where it is closed. -/
theorem write
    (law : NumberedAttempts s) {id : String} {old new : Attempt}
    (known : s.attempts.lookup id = some old) (node : new.nodeId = old.nodeId)
    (number : new.number = old.number) (nodes : Table NodeRuntime)
    (works : ∀ nodeId, (nodes.get nodeId).status = .active → (s.nodes.get nodeId).status = .active ∧
      (nodeId = old.nodeId → old.status ≠ .terminal → new.status ≠ .terminal)) :
  NumberedAttempts { s with attempts := s.attempts.insert id new, nodes }
  := by
  constructor
  · intro nodeId i id' listed
    obtain ⟨attempt, found, own, place⟩ := law.numbered nodeId i id' listed
    rw [Table.lookup_insert]
    split
    · subst id'
      obtain rfl := Option.some.inj (known.symm.trans found)
      exact ⟨new, rfl, node.trans own, number.trans place⟩
    · exact ⟨attempt, found, own, place⟩
  · intro id' attempt found
    rw [Table.lookup_insert] at found
    split at found
    · subst id'
      obtain rfl := Option.some.inj found
      rw [node]
      exact law.whole id old known
    · exact law.whole id' attempt found
  · intro nodeId active
    obtain ⟨before, closes⟩ := works nodeId active
    obtain ⟨id', attempt, found, own, open_⟩ := law.worked nodeId before
    by_cases same : id' = id
    · subst same
      obtain rfl := Option.some.inj (known.symm.trans found)
      exact ⟨id', new, by rw [Table.lookup_insert, if_pos rfl], node.trans own, closes own.symm open_⟩
    · exact ⟨id', attempt, by rw [Table.lookup_insert, if_neg same, found], own, open_⟩

/-- Superseding a node keeps the law. -/
theorem supersedeNode
    (law : NumberedAttempts s) (live : LiveAttempts s) (at_ : Stamp) (nodeId : String) :
  NumberedAttempts (State.supersedeNode at_ s nodeId)
  := by
  obtain ⟨graph, nodeAttempts, nodes, attempts⟩ := LiveAttempts.supersedeNode_fields s at_ nodeId
  -- the node is not active any more, and the others are as they were
  have works : ∀ other, ((State.supersedeNode at_ s nodeId).nodes.get other).status = .active →
      (s.nodes.get other).status = .active ∧ other ≠ nodeId := by
    intro other active
    rw [nodes] at active
    split at active
    · by_cases same : other = nodeId
      · rw [same, Table.get_insert_self] at active
        cases active
      · rw [Table.get_insert_of_ne same] at active
        exact ⟨active, same⟩
    · rename_i unknown
      refine ⟨active, ?_⟩
      rintro rfl
      have absent : s.nodes.get other = default := by simp [Table.get, unknown]
      rw [absent] at active
      cases active
  have kept : s.attempts = (State.supersedeNode at_ s nodeId).attempts →
      NumberedAttempts (State.supersedeNode at_ s nodeId) := fun same =>
    law.congr same.symm nodeAttempts fun other active => (works other active).1
  split at attempts
  · rename_i attempt last
    split at attempts
    · exact kept attempts.symm
    · simp only [State.latestAttempt, Option.bind_eq_some_iff] at last
      obtain ⟨id, mem, known⟩ := last
      obtain rfl := live.filed id attempt known
      obtain ⟨there, found, own⟩ := live.listed nodeId _ (List.mem_of_getLast? mem)
      obtain rfl := Option.some.inj (known.symm.trans found)
      have closed := law.write known (show (attempt.superseded at_).nodeId = attempt.nodeId from rfl) rfl
        (State.supersedeNode at_ s nodeId).nodes fun other active =>
          ⟨(works other active).1, fun same => absurd (same.trans own) (works other active).2⟩
      exact closed.congr attempts nodeAttempts fun _ active => active
  · exact kept attempts.symm

/-- A graph revision keeps the law. -/
theorem reviseGraph
    (law : NumberedAttempts s) (live : LiveAttempts s) (graph : GraphDefinition) (revision : String)
    (superseded : List String) (at_ : Stamp)
    (kept : ∀ g, s.graph = some g → ∀ nodeId, Frozen s g nodeId → graph.hasNode nodeId = true) :
  NumberedAttempts (s.reviseGraph graph revision superseded at_)
  := by
  let revised : State := { s with graph := some graph, graphRevision := revision
                                  nodes := State.revisedNodes s.nodes graph }
  have begun : LiveAttempts revised := live.reviseGraph graph revision [] at_ kept
  have works : ∀ nodeId, (revised.nodes.get nodeId).status = .active →
      (s.nodes.get nodeId).status = .active := by
    intro nodeId active
    rcases State.revisedNodes_cases s.nodes graph nodeId with same | same | same
    · exact same ▸ active
    · rw [same] at active
      cases active
    · rw [same] at active
      cases active
  have law' : NumberedAttempts revised := law.congr rfl rfl works
  have both : LiveAttempts (s.reviseGraph graph revision superseded at_) ∧
      NumberedAttempts (s.reviseGraph graph revision superseded at_) := by
    unfold State.reviseGraph
    exact List.foldlRecOn superseded (State.supersedeNode at_)
      (motive := fun s => LiveAttempts s ∧ NumberedAttempts s) ⟨begun, law'⟩
      fun s both nodeId _ => ⟨both.1.supersedeNode at_ nodeId, both.2.supersedeNode both.1 at_ nodeId⟩
  exact both.2

/-- The start of a new attempt with the next number keeps the law. -/
theorem startAttempt
    (law : NumberedAttempts s) {attempt : Attempt} (fresh : s.attempts.has attempt.id = false)
    (open_ : attempt.status ≠ .terminal)
    (number : attempt.number = (s.nodeAttempts.get attempt.nodeId).length + 1) :
  NumberedAttempts (s.startAttempt attempt)
  := by
  have unknown : s.attempts.lookup attempt.id = none := by
    simpa [Table.has] using fresh
  have old : ∀ {id : String} {known : Attempt}, s.attempts.lookup id = some known →
      (s.startAttempt attempt).attempts.lookup id = some known := by
    intro id known found
    have other : id ≠ attempt.id := by
      rintro rfl
      simp [unknown] at found
    simp only [State.startAttempt]
    rw [Table.lookup_insert, if_neg other, found]
  have here : (s.startAttempt attempt).attempts.lookup attempt.id = some attempt := by
    simp only [State.startAttempt]
    rw [Table.lookup_insert, if_pos rfl]
  constructor
  · intro nodeId i id listed
    simp only [State.startAttempt] at listed
    by_cases own : nodeId = attempt.nodeId
    · subst own
      rw [Table.get_insert_self] at listed
      by_cases before : i < (s.nodeAttempts.get attempt.nodeId).length
      · rw [List.getElem?_append_left before] at listed
        obtain ⟨known, found, there, place⟩ := law.numbered _ i id listed
        exact ⟨known, old found, there, place⟩
      · rw [List.getElem?_append_right (by omega)] at listed
        obtain ⟨rfl, last⟩ : id = attempt.id ∧ i = (s.nodeAttempts.get attempt.nodeId).length := by
          rw [List.getElem?_singleton] at listed
          split at listed
          · exact ⟨(Option.some.inj listed).symm, by omega⟩
          · cases listed
        exact ⟨attempt, here, rfl, by rw [number, last]⟩
    · rw [Table.get_insert_of_ne own] at listed
      obtain ⟨known, found, there, place⟩ := law.numbered nodeId i id listed
      exact ⟨known, old found, there, place⟩
  · intro id known found
    simp only [State.startAttempt] at found ⊢
    rw [Table.lookup_insert] at found
    split at found
    · rename_i same
      obtain rfl := Option.some.inj found
      rw [Table.get_insert_self, same]
      simp
    · have mem := law.whole id known found
      by_cases own : known.nodeId = attempt.nodeId
      · rw [own] at mem
        rw [own, Table.get_insert_self]
        exact List.mem_append_left _ mem
      · rw [Table.get_insert_of_ne own]
        exact mem
  · intro nodeId active
    by_cases own : nodeId = attempt.nodeId
    · exact ⟨attempt.id, attempt, here, own.symm, open_⟩
    · simp only [State.startAttempt] at active
      rw [Table.get_insert_of_ne own] at active
      obtain ⟨id, known, found, there, still⟩ := law.worked nodeId active
      exact ⟨id, known, old found, there, still⟩

end NumberedAttempts

variable {p : Platform} {projectId : String} {s s' : State} {n : Nat} {at_ : Stamp} {event : Event}

/-- Lawful events keep the law. -/
theorem State.applyEvent_numberedAttempts
    (law : NumberedAttempts s) (live : LiveAttempts s) (lawful : event.Lawful s)
    (h : s.applyEvent p n at_ event = .ok s') :
  NumberedAttempts s'
  := by
  have frame := applyEvent_frame h
  cases event with
  | graphImported graph revision digest =>
      obtain rfl := Except.ok.inj h
      refine law.congr rfl rfl fun nodeId active => ?_
      simp only [State.importGraph] at active
      cases found : (graph.spec.nodes.foldl
          (fun t node => t.insert node.id { status := .planned }) (∅ : Table NodeRuntime)).lookup nodeId with
      | none =>
          simp only [Table.get, found, Option.getD_none] at active
          cases active
      | some runtime =>
          rw [Table.get_of_lookup found] at active
          rcases lookup_foldl_insert_cases found with none_ | ⟨node, -, -, rfl⟩
          · simp at none_
          · cases active
  | graphRevised graph revision previous superseded impact =>
      obtain rfl := Except.ok.inj h
      exact law.reviseGraph live graph revision superseded at_ lawful
  | attemptStarted attempt | attemptLeased attempt =>
      obtain rfl := Except.ok.inj h
      obtain ⟨fresh, -, -, leased, number⟩ := lawful
      exact law.startAttempt fresh (by simp [leased]) number
  | attemptCheckpointed checkpoint =>
      obtain rfl := Except.ok.inj h
      obtain ⟨attempt, known⟩ := Table.has_iff.mp lawful
      have own := live.filed _ attempt known
      let noted : Attempt :=
        { attempt with checkpointId := checkpoint.id, updatedAt := checkpoint.createdAt }
      have written := law.write known (show noted.nodeId = attempt.nodeId from rfl) rfl s.nodes
        fun nodeId active => ⟨active, fun _ open_ => open_⟩
      refine written.congr ?_ rfl fun _ active => active
      simp only [recordCheckpoint, Table.get_of_lookup known, own, noted]
  | attemptStatusChanged id status updatedAt =>
      obtain rfl := Except.ok.inj h
      obtain ⟨⟨attempt, known, -⟩, goes⟩ := lawful
      obtain rfl := live.filed _ attempt known
      let moved : Attempt := { attempt with status, updatedAt }
      simp only [changeAttemptStatus, Table.get_of_lookup known]
      exact law.write known (show moved.nodeId = attempt.nodeId from rfl) rfl s.nodes
        fun nodeId active => ⟨active, fun _ _ => goes⟩
  | attemptFinished id outcome outcomeClass facts updatedAt =>
      obtain rfl := Except.ok.inj h
      obtain ⟨⟨attempt, known, -⟩, -⟩ := lawful
      obtain rfl := live.filed _ attempt known
      let closed : Attempt := { attempt with status := .terminal, outcome, updatedAt }
      simp only [finishAttempt, Table.get_of_lookup known]
      refine law.write known (show closed.nodeId = attempt.nodeId from rfl) rfl _ fun nodeId active => ?_
      by_cases same : nodeId = attempt.nodeId
      · rw [same, Table.get_insert_self] at active
        dsimp only at active
        split at active <;> cases active
      · rw [Table.get_insert_of_ne same] at active
        exact ⟨active, fun own => absurd own same⟩
  | nodeAutoCompleted nodeId | nodeAutoSkipped nodeId =>
      obtain ⟨-, rfl⟩ := settleNode_ok h
      refine law.congr rfl rfl fun other active => ?_
      dsimp only at active
      by_cases same : other = nodeId
      · rw [same, Table.get_insert_self] at active
        cases active
      · rw [Table.get_insert_of_ne same] at active
        exact active
  | _ =>
      obtain ⟨nodes, attempts, nodeAttempts⟩ := frame.runs rfl
      exact law.congr attempts nodeAttempts fun nodeId active => by rwa [nodes] at active

/-! ### What stays over -/

/-- Is the attempt known and over? -/
def State.IsOver (s : State) (attemptId : String) : Prop :=
  ∃ attempt, s.attempts.lookup attemptId = some attempt ∧ attempt.status = .terminal

/-- An attempt that is over stays so when a known attempt is written that does not start again. -/
theorem State.IsOver.write
    {attemptId id : String} {old new : Attempt} (over_ : s.IsOver attemptId)
    (known : s.attempts.lookup id = some old) (still : old.status = .terminal → new.status = .terminal) :
  ∃ attempt, (s.attempts.insert id new).lookup attemptId = some attempt ∧ attempt.status = .terminal
  := by
  obtain ⟨attempt, found, ended⟩ := over_
  rw [Table.lookup_insert]
  split
  · subst attemptId
    obtain rfl := Option.some.inj (known.symm.trans found)
    exact ⟨new, rfl, still ended⟩
  · exact ⟨attempt, found, ended⟩

/-- An attempt that is over stays so when a node is superseded. -/
theorem State.IsOver.supersedeNode
    {attemptId : String} (over_ : s.IsOver attemptId) (live : LiveAttempts s) (nodeId : String) :
  (State.supersedeNode at_ s nodeId).IsOver attemptId
  := by
  obtain ⟨-, -, -, attempts⟩ := LiveAttempts.supersedeNode_fields s at_ nodeId
  unfold State.IsOver
  rw [attempts]
  split
  · rename_i closed last
    split
    · exact over_
    · simp only [State.latestAttempt, Option.bind_eq_some_iff] at last
      obtain ⟨id, -, known⟩ := last
      obtain rfl := live.filed id closed known
      exact over_.write known fun _ => rfl
  · exact over_

/-- An attempt that is over stays so under lawful events. -/
theorem State.applyEvent_isOver
    {attemptId : String} (live : LiveAttempts s) (lawful : event.Lawful s) (over_ : s.IsOver attemptId)
    (h : s.applyEvent p n at_ event = .ok s') :
  s'.IsOver attemptId
  := by
  have frame := applyEvent_frame h
  cases event with
  | graphImported graph revision digest =>
      obtain rfl := Except.ok.inj h
      exact over_
  | graphRevised graph revision previous superseded impact =>
      obtain rfl := Except.ok.inj h
      have begun : LiveAttempts { s with graph := some graph, graphRevision := revision
                                         nodes := State.revisedNodes s.nodes graph } :=
        live.reviseGraph graph revision [] at_ lawful
      have both : LiveAttempts (s.reviseGraph graph revision superseded at_) ∧
          (s.reviseGraph graph revision superseded at_).IsOver attemptId := by
        unfold State.reviseGraph
        exact List.foldlRecOn superseded (State.supersedeNode at_)
          (motive := fun s => LiveAttempts s ∧ s.IsOver attemptId) ⟨begun, over_⟩
          fun s both nodeId _ => ⟨both.1.supersedeNode at_ nodeId, both.2.supersedeNode both.1 nodeId⟩
      exact both.2
  | attemptStarted new | attemptLeased new =>
      obtain rfl := Except.ok.inj h
      obtain ⟨attempt, known, ended⟩ := over_
      refine ⟨attempt, ?_, ended⟩
      simp only [startAttempt]
      rw [Table.lookup_insert, if_neg, known]
      rintro rfl
      simp [Event.Lawful, Table.has, known] at lawful
  | attemptCheckpointed checkpoint =>
      obtain rfl := Except.ok.inj h
      obtain ⟨old, found⟩ := Table.has_iff.mp lawful
      simp only [IsOver, recordCheckpoint, Table.get_of_lookup found, live.filed _ old found]
      exact over_.write found fun ended => ended
  | attemptStatusChanged id status updatedAt =>
      obtain rfl := Except.ok.inj h
      obtain ⟨⟨old, found, open_⟩, -⟩ := lawful
      simp only [IsOver, changeAttemptStatus, Table.get_of_lookup found, live.filed _ old found]
      exact over_.write found fun ended => absurd ended open_
  | attemptFinished id outcome outcomeClass facts updatedAt =>
      obtain rfl := Except.ok.inj h
      obtain ⟨⟨old, found, -⟩, -⟩ := lawful
      simp only [IsOver, finishAttempt, Table.get_of_lookup found, live.filed _ old found]
      exact over_.write found fun _ => rfl
  | nodeAutoCompleted | nodeAutoSkipped =>
      obtain ⟨-, rfl⟩ := settleNode_ok h
      exact over_
  | _ =>
      obtain ⟨-, attempts, -⟩ := frame.runs rfl
      simpa only [IsOver, attempts] using over_

/-! ### Successes of tasks -/

/-- Superseding a node leaves the classes of the outcomes. -/
theorem State.supersedeNode_outcomeClass
    (s : State) (at_ : Stamp) (nodeId other : String) :
  ((State.supersedeNode at_ s nodeId).nodes.get other).outcomeClass = (s.nodes.get other).outcomeClass
  := by
  obtain ⟨-, -, nodes, -⟩ := LiveAttempts.supersedeNode_fields s at_ nodeId
  rw [nodes]
  split
  · rename_i runtime known
    by_cases same : other = nodeId
    · rw [same, Table.get_insert_self, Table.get_of_lookup known]
    · rw [Table.get_insert_of_ne same]
  · rfl

/-- A node that succeeds by a lawful event and is a task was submitted in its last attempt. -/
theorem State.applyEvent_success
    {node : NodeDefinition} (live : LiveAttempts s) (lawful : event.Lawful s)
    (h : s.applyEvent p n at_ event = .ok s') (declared : s.nodeDefinition node.id = some node)
    (task : node.kind = .task) (before : (s.nodes.get node.id).outcomeClass ≠ .success)
    (after : (s'.nodes.get node.id).outcomeClass = .success) :
  ∃ attempt, s.latestAttempt node.id = some attempt ∧ attempt.status = .submitted
  := by
  have frame := applyEvent_frame h
  cases event with
  | graphImported graph revision digest =>
      obtain rfl := Except.ok.inj h
      obtain ⟨-, g, known, -⟩ := State.nodeDefinition_some declared
      simp [show s.graph = none from lawful] at known
  | graphRevised graph revision previous superseded impact =>
      obtain rfl := Except.ok.inj h
      have kept : ((s.reviseGraph graph revision superseded at_).nodes.get node.id).outcomeClass =
          ((State.revisedNodes s.nodes graph).get node.id).outcomeClass := by
        unfold State.reviseGraph
        refine List.foldlRecOn superseded (State.supersedeNode at_)
          (motive := fun t => (t.nodes.get node.id).outcomeClass =
            ((State.revisedNodes s.nodes graph).get node.id).outcomeClass) ?_ ?_
        · rfl
        · intro t same nodeId _
          exact (State.supersedeNode_outcomeClass t at_ nodeId node.id).trans same
      rw [kept] at after
      rcases State.revisedNodes_cases s.nodes graph node.id with same | same | same
      · exact absurd (same ▸ after) before
      · rw [same] at after
        cases after
      · rw [same] at after
        cases after
  | attemptStarted attempt | attemptLeased attempt =>
      obtain rfl := Except.ok.inj h
      simp only [startAttempt] at after
      by_cases own : node.id = attempt.nodeId
      · rw [own, Table.get_insert_self] at after
        cases after
      · rw [Table.get_insert_of_ne own] at after
        exact absurd after before
  | attemptCheckpointed | attemptStatusChanged =>
      obtain rfl := Except.ok.inj h
      exact absurd after before
  | attemptFinished id outcome outcomeClass facts updatedAt =>
      obtain rfl := Except.ok.inj h
      obtain ⟨⟨attempt, known, open_⟩, submits⟩ := lawful
      simp only [finishAttempt, Table.get_of_lookup known] at after
      by_cases own : node.id = attempt.nodeId
      · rw [own, Table.get_insert_self] at after
        rw [own] at declared
        have last := live.last id attempt known open_
        refine ⟨attempt, ?_, submits attempt node known declared task after⟩
        simp [State.latestAttempt, own, last, known]
      · rw [Table.get_insert_of_ne own] at after
        exact absurd after before
  | nodeAutoCompleted nodeId outcome at' =>
      obtain ⟨-, rfl⟩ := settleNode_ok h
      dsimp only at after
      by_cases own : node.id = nodeId
      · have deterministic := lawful node (own ▸ declared)
        simp [task, NodeKind.isDeterministic] at deterministic
      · rw [Table.get_insert_of_ne own] at after
        exact absurd after before
  | nodeAutoSkipped nodeId reason at' =>
      obtain ⟨-, rfl⟩ := settleNode_ok h
      dsimp only at after
      by_cases own : node.id = nodeId
      · rw [own, Table.get_insert_self] at after
        cases after
      · rw [Table.get_insert_of_ne own] at after
        exact absurd after before
  | _ =>
      obtain ⟨nodes, -, -⟩ := frame.runs rfl
      rw [nodes] at after
      exact absurd after before

/-! ### Moments of a run -/

/-- An event of a lawful batch is lawful where it is applied. -/
theorem LawfulBatch.split
    {front back : List Event} (lawful : LawfulBatch p n at_ s (front ++ event :: back))
    (live : LiveAttempts s) (reached : front.foldlM (State.applyEvent p n at_) s = .ok s') :
  event.Lawful s' ∧ LiveAttempts s'
  := by
  induction front generalizing s with
  | nil =>
      obtain rfl := Except.ok.inj reached
      exact ⟨lawful.1, live⟩
  | cons first front ih =>
      rw [List.foldlM_cons, bind_eq_ok] at reached
      obtain ⟨s₁, applied, reached⟩ := reached
      exact ih (lawful.2 s₁ applied) (State.applyEvent_liveAttempts live lawful.1 applied) reached

variable {allow : State → Call → Prop} {w : World}

/-- Every event of a run with faithful imports is lawful, and the law of live attempts holds before
it. -/
theorem Reachable.lawful
    {segment : Segment} (reachable : Reachable p projectId (fun _ call => call.Faithful) w)
    (free : CollisionFree w.journal) (moment : Moment p projectId w.journal segment event s s') :
  event.Lawful s ∧ LiveAttempts s
  := by
  obtain ⟨front, rest, before, after, r, segments, events, loaded, reached, -⟩ := moment
  rcases reachable.origin free segments with
    ⟨rfl, e, fence⟩ | ⟨w₀, job, batch, r', env, earlier, rfl, made⟩
  · rw [fence] at events
    obtain ⟨rfl, rfl⟩ : before = [] ∧ event = .authorityEstablished e := by
      rcases List.cons_eq_append_iff.mp events with ⟨rfl, same⟩ | ⟨rest, -, same⟩
      · exact ⟨rfl, (List.cons.inj same).1⟩
      · simp at same
    obtain rfl : r = s := Except.ok.inj reached
    obtain rfl : State.new projectId = r := Except.ok.inj loaded
    exact ⟨trivial, LiveAttempts.new projectId⟩
  · obtain rfl : r = r' := Except.ok.inj (loaded.symm.trans made.grounded.loaded)
    have free₀ : CollisionFree w₀.journal := free.of_prefix (segments ▸ List.prefix_append _ _)
    have live := earlier.liveAttempts free₀ loaded
    have lawful : LawfulBatch p segment.sequence segment.committedAt r batch.events :=
      made.grounded.computed.lawful live (Replayable.nodesCovered ⟨_, _, loaded⟩) made.pending
    have same : batch.events = before ++ event :: after := by
      rw [← events, made.segment_eq]
      rfl
    exact (same ▸ lawful).split live reached

/-- The law of numbered attempts holds in every state that a part of a journal with faithful imports
replays to, and so does the law of live attempts. -/
theorem Reachable.attempts
    {front : List Segment} (reachable : Reachable p projectId (fun _ call => call.Faithful) w)
    (free : CollisionFree w.journal) (within : front <+: w.journal)
    (loaded : reduceSegments p projectId front = .ok s) :
  LiveAttempts s ∧ NumberedAttempts s
  := by
  have none_ : reduceSegments p projectId [] = .ok (State.new projectId) := rfl
  refine moments_invariant (fun s => LiveAttempts s ∧ NumberedAttempts s) ?_ ?_
    ⟨LiveAttempts.new projectId, NumberedAttempts.new projectId⟩ none_ List.nil_prefix within loaded
  · exact fun segment s both => ⟨both.1.close segment, both.2.congr rfl rfl fun _ active => active⟩
  · intro segment event s s' moment both
    obtain ⟨lawful, -⟩ := reachable.lawful free moment
    obtain ⟨-, -, -, -, -, -, -, -, -, applied⟩ := moment
    exact ⟨State.applyEvent_liveAttempts both.1 lawful applied,
      State.applyEvent_numberedAttempts both.2 both.1 lawful applied⟩

/-! ### The laws -/

/-- The laws of the attempts of a state: a node is active if and only if its last attempt is not
over and is the only one of its attempts that is not, a node that is planned or settled has no such
attempt, and the attempts of a node have the numbers from one to their count, each of them once. -/
structure State.AttemptLaws (s : State) : Prop where
  active : ∀ nodeId, (s.nodes.get nodeId).status = .active ↔ ∃ attempt,
    s.latestAttempt nodeId = some attempt ∧ attempt.nodeId = nodeId ∧ attempt.status ≠ .terminal ∧
      ∀ id other, s.attempts.lookup id = some other → other.nodeId = nodeId →
        other.status ≠ .terminal → other = attempt
  settled : ∀ nodeId, (s.nodes.get nodeId).status ∈
      [NodeStatus.planned, .skipped, .superseded, .terminal] →
    ∀ id attempt, s.attempts.lookup id = some attempt → attempt.nodeId = nodeId →
      attempt.status = .terminal
  numbers : ∀ nodeId, ∃ count : Nat, ∀ k : Int,
    (∃ id attempt, s.attempts.lookup id = some attempt ∧ attempt.nodeId = nodeId ∧ attempt.number = k) ↔
      1 ≤ k ∧ k ≤ count
  distinct : ∀ id id' attempt attempt', s.attempts.lookup id = some attempt →
    s.attempts.lookup id' = some attempt' → attempt'.nodeId = attempt.nodeId →
    attempt'.number = attempt.number → id' = id

/-- The number of an attempt is its place at its node. -/
theorem NumberedAttempts.place
    (law : NumberedAttempts s) {id : String} {attempt : Attempt}
    (known : s.attempts.lookup id = some attempt) :
  ∃ i : Nat, (s.nodeAttempts.get attempt.nodeId)[i]? = some id ∧ attempt.number = i + 1
  := by
  obtain ⟨i, there⟩ := List.mem_iff_getElem?.mp (law.whole id attempt known)
  obtain ⟨attempt', found, -, place⟩ := law.numbered _ i id there
  obtain rfl := Option.some.inj (known.symm.trans found)
  exact ⟨i, there, place⟩

/-- The laws of the attempts follow. -/
theorem LiveAttempts.attemptLaws
    (live : LiveAttempts s) (law : NumberedAttempts s) :
  s.AttemptLaws
  := by
  constructor
  · intro nodeId
    constructor
    · intro active
      obtain ⟨id, attempt, known, rfl, open_⟩ := law.worked nodeId active
      have last := live.last id attempt known open_
      refine ⟨attempt, by simp [State.latestAttempt, last, known], rfl, open_, ?_⟩
      intro id' other known' own open'
      obtain rfl := live.unique known open_ known' open' own
      exact Option.some.inj (known'.symm.trans known)
    · rintro ⟨attempt, last, rfl, open_, -⟩
      simp only [State.latestAttempt, Option.bind_eq_some_iff] at last
      obtain ⟨id, -, known⟩ := last
      exact live.active id attempt known open_
  · rintro nodeId settled id attempt known rfl
    by_contra open_
    rw [live.active id attempt known open_] at settled
    simp at settled
  · intro nodeId
    refine ⟨(s.nodeAttempts.get nodeId).length, fun k => ⟨?_, ?_⟩⟩
    · rintro ⟨id, attempt, known, rfl, rfl⟩
      obtain ⟨i, there, place⟩ := law.place known
      have bound := (List.getElem?_eq_some_iff.mp there).1
      omega
    · rintro ⟨lower, upper⟩
      have bound : (k - 1).toNat < (s.nodeAttempts.get nodeId).length := by omega
      obtain ⟨attempt, known, own, place⟩ :=
        law.numbered nodeId (k - 1).toNat _ (List.getElem?_eq_getElem bound)
      exact ⟨_, attempt, known, own, by omega⟩
  · intro id id' attempt attempt' known known' node number
    obtain ⟨i, there, place⟩ := law.place known
    obtain ⟨i', there', place'⟩ := law.place known'
    obtain rfl : i = i' := by omega
    rw [node] at there'
    exact Option.some.inj (there'.symm.trans there)

/-- In every run with faithful imports the laws of the attempts hold in every state, an attempt that
is over stays so, and a task succeeds only from a submitted attempt. -/
theorem attempts_lawful
    (reachable : Reachable p projectId (fun _ call => call.Faithful) w)
    (free : CollisionFree w.journal) :
  (∀ front s, front <+: w.journal → reduceSegments p projectId front = .ok s → s.AttemptLaws) ∧
  (∀ front front' s s', front <+: front' → front' <+: w.journal →
    reduceSegments p projectId front = .ok s → reduceSegments p projectId front' = .ok s' →
    ∀ id, s.IsOver id → s'.IsOver id) ∧
  ∀ segment event s s', Moment p projectId w.journal segment event s s' →
    ∀ node, s.nodeDefinition node.id = some node → node.kind = .task →
      (s.nodes.get node.id).outcomeClass ≠ .success → (s'.nodes.get node.id).outcomeClass = .success →
      ∃ attempt, s.latestAttempt node.id = some attempt ∧ attempt.status = .submitted
  := by
  refine ⟨?_, ?_, ?_⟩
  · intro front s within loaded
    obtain ⟨live, law⟩ := reachable.attempts free within loaded
    exact live.attemptLaws law
  · intro front front' s s' later within loaded loaded' id over_
    refine moments_invariant (fun s => s.IsOver id) (fun _ _ over_ => over_) ?_ over_ loaded later within
      loaded'
    intro segment event s s' moment over_
    obtain ⟨lawful, live⟩ := reachable.lawful free moment
    obtain ⟨-, -, -, -, -, -, -, -, -, applied⟩ := moment
    exact State.applyEvent_isOver live lawful over_ applied
  · intro segment event s s' moment node declared task before after
    obtain ⟨lawful, live⟩ := reachable.lawful free moment
    obtain ⟨-, -, -, -, -, -, -, -, -, applied⟩ := moment
    exact State.applyEvent_success live lawful applied declared task before after

/-! ### Imported numbers -/

namespace SampleNumbers

open SampleLeases

/-- The start of an attempt, with the members of its number. -/
def started (number : List (String × Json)) : List LifecycleMigrationCommand :=
  [bind,
    { commandIndex := 2
      events :=
        [SampleLeases.event "attempt.leased"
            ([("id", .str "a1"), ("nodeId", .str "build"), ("roleId", .str "dev"),
              ("status", .str "leased"), ("startedAt", stamp), ("updatedAt", stamp)] ++ number),
          SampleLeases.event "attempt.status-changed"
            [("attemptId", .str "a1"), ("status", .str "running"), ("updatedAt", stamp)],
          action "node.start" []] }]

/-- A history of one attempt. The journal reads another number for it than the importer. -/
def renumbered : List LifecycleMigrationCommand :=
  started [("number", .num 5), ("NUMBER", .num 1)]

/-- The same history without the further member. -/
def plain : List LifecycleMigrationCommand :=
  started [("number", .num 1)]

/-- What the two histories lead to: an attempt with the number five, and none with the number one;
and an active node with its first attempt. -/
theorem runs :
  (journal [] renumbered >>= fun journal =>
      reduceSegments .numbered project journal >>= fun s =>
        .ok (decide (journal.map Segment.segmentHash).Nodup
          && (s.attempts.lookup "a1").any (fun attempt =>
            attempt.nodeId = "build" && attempt.number = 5)
          && s.attempts.entries.all fun entry => entry.2.number ≠ 1)) = .ok true ∧
  (journal [] plain >>= fun journal =>
      reduceSegments .numbered project journal >>= fun s =>
        .ok (decide (journal.map Segment.segmentHash).Nodup
          && decide ((s.nodes.get "build").status = .active))) = .ok true
  := by decide +kernel

end SampleNumbers

open SampleLeases SampleNumbers in
/-- The first attempt of a node has the number five: the journal reads another number for it than
the importer. -/
theorem attempt_misnumbered :
  ¬ ∀ (p : Platform) (projectId : String) (w : World) (s : State),
    Reachable p projectId (fun _ _ => True) w → CollisionFree w.journal →
    reduceSegments p projectId w.journal = .ok s → s.AttemptLaws
  := by
  intro always
  have run := SampleNumbers.runs.1
  simp only [bind_eq_ok, Except.ok.injEq, Bool.and_eq_true, decide_eq_true_eq, Option.any_eq_true,
    List.all_eq_true] at run
  obtain ⟨journal', committed, s, loaded, ⟨free, attempt, known, own, number⟩, others⟩ := run
  have laws := always .numbered project (World.initial journal' 0) s (reachable committed) free loaded
  obtain ⟨count, numbers⟩ := laws.numbers "build"
  obtain ⟨-, bound⟩ := (numbers 5).mp ⟨"a1", attempt, known, own, number⟩
  obtain ⟨id, first, known', -, one⟩ := (numbers 1).mpr ⟨le_refl _, by omega⟩
  exact others _ (AList.mem_lookup_iff.mp known') one

open SampleLeases SampleNumbers in
/-- The laws of the attempts, after a history with an attempt that is not over. -/
theorem attempts_lawful_sample :
  ∃ w s, Reachable .numbered project (fun _ call => call.Faithful) w ∧
    reduceSegments .numbered project w.journal = .ok s ∧ (s.nodes.get "build").status = .active ∧
    s.AttemptLaws
  := by
  have run := SampleNumbers.runs.2
  simp only [bind_eq_ok, Except.ok.injEq, Bool.and_eq_true, decide_eq_true_eq] at run
  obtain ⟨journal', committed, s, loaded, free, active⟩ := run
  have reachable := reachable_of_single (by decide) committed
  exact ⟨_, s, reachable, loaded, active,
    (attempts_lawful reachable free).1 journal' s List.prefix_rfl loaded⟩

end Dagrail
