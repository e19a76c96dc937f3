import Dagrail.Service.RoleLeases

/-!
# What the calls write

Most batches write records of roles, attempts, evidence, decisions, actions, effects and incidents
only. The others start an attempt with its resource leases, report the closure of a resource, bring
a graph, settle a node automatically, or import a history. For each of these, the events and what
the call checked on the state it loaded.
-/

namespace Dagrail

/-! ### Plain events -/

/-- Is the event one that touches neither the graph, nor the resources, nor settles a node, and is
no fence and no import? -/
def Event.isPlain : Event → Bool
  | .roleBound _ | .roleTransferred _ | .roleReleased .. => true
  | .attemptStarted _ | .attemptLeased _ | .attemptCheckpointed _ | .attemptStatusChanged ..
  | .attemptFinished .. => true
  | .evidencePackagePublished _ | .evidenceReuseAssessed _ | .decisionRecorded _ => true
  | .actionApplied _ => true
  | .effectPrepared _ | .effectDispatched .. | .effectReconciling .. | .effectObserved .. => true
  | .incidentOpened _ | .incidentUpdated _ | .incidentResolved .. => true
  | _ => false

/-- Every event of the list is plain. -/
def Plain (events : List Event) : Prop :=
  ∀ event ∈ events, event.isPlain = true

/-- Two plain lists are plain together. -/
theorem Plain.append
    {events events' : List Event} (h : Plain events) (h' : Plain events') :
  Plain (events ++ events')
  := by
  intro event mem
  rcases List.mem_append.mp mem with mem | mem
  · exact h event mem
  · exact h' event mem

/-- A list of one plain event is plain. -/
theorem Plain.single
    {event : Event} (h : event.isPlain = true) :
  Plain [event]
  := by
  intro event' mem
  rw [List.mem_singleton.mp mem]
  exact h

/-- What a call writes on the state it loaded. -/
inductive Write (p : Platform) (s : State) (env : Env) (call : Call) : List Event → Prop where
  /-- Records that are neither of the graph nor of the resources. -/
  | plain (events : List Event) (plain : Plain events) :
      Write p s env call events
  /-- The start of an attempt of a ready node, with its resource leases. -/
  | start (ref : ActionRef) (node : NodeDefinition) (attempt : Attempt) (now : Instant)
      (action : ActionRecord) (i : Nat)
      (declared : s.nodeDefinition node.id = some node)
      (ready : node.id ∈ (computeFrontier s).ready) :
      Write p s env call (.attemptLeased attempt :: .attemptStatusChanged attempt.id .running (.utc now)
        :: startLeases ref node attempt.id (env.after i) now ++ [.actionApplied action])
  /-- The closure of an active resource. -/
  | closure (ref : ActionRef) (resource : ResourceLease) (status : ClosureStatus)
      (receipt : Option Json) (now : Instant) (action : ActionRecord)
      (closable : closableResource s ref = .ok resource) :
      Write p s env call (.resourceClosureObserved resource.id status receipt (.utc now)
        :: closureEvents s resource status now ++ [.actionApplied action])
  /-- The first graph. -/
  | importGraph (graph : GraphDefinition) (revision inputDigest : String) (first : s.graph = none)
      (valid : validateGraph p.screenGraph graph = .ok ()) :
      Write p s env call [.graphImported graph revision inputDigest]
  /-- A patched graph. -/
  | changeGraph (patch : GraphPatch) (graph : GraphDefinition) (impact impact' : GraphImpact)
      (revision previous : String) (superseded : List String)
      (patched : applyGraphPatch p s patch = .ok (graph, impact, superseded)) :
      Write p s env call [.graphRevised graph revision previous superseded impact']
  /-- A skip of a node that can no longer become ready. -/
  | skip (nodeId : String) (at_ : Stamp) (cut : nodeId ∈ (computeFrontier s).unreachable) :
      Write p s env call [.nodeAutoSkipped nodeId "closed_predicate_unsatisfied" at_]
  /-- A completion of a ready node without an executor. -/
  | complete (node : NodeDefinition) (outcome : String) (at_ : Stamp)
      (declared : s.nodeDefinition node.id = some node)
      (deterministic : node.kind.isDeterministic = true)
      (ready : node.id ∈ (computeFrontier s).ready) :
      Write p s env call [.nodeAutoCompleted node.id outcome at_]
  /-- A history. -/
  | importHistory (value : LifecycleImportInput) (segments : List Segment)
      (valid : LifecycleValidation) (receipt : LifecycleMigrationReceipt)
      (called : call = .importHistory value)
      (admitted : valid.Admitted p s segments value.manifest) :
      Write p s env call (.lifecycleHistoryImported receipt
        :: valid.events.map LifecycleMigrationEvent.committed)

/-! ### The batches of the calls -/

/-- A change of an incident is plain. -/
theorem IncidentCommit.plain
    {s : State} {change : IncidentChange} {incidentId key : String} {b : Batch}
    (h : IncidentCommit s change incidentId key b) :
  Plain b.events
  := by
  obtain ⟨incident, next, now, -, -, events⟩ := h.changed
  rw [events]
  exact .single rfl

/-- The events of an observation are plain. -/
theorem observationEvents_plain
    (s : State) (actionId : String) (effect : EffectAction) (status : EffectStatus)
    (now : Instant) :
  Plain (observationEvents s actionId effect status now)
  := by
  intro event mem
  rcases mem_observationEvents mem with rfl | rfl <;> rfl

/-- The events of a completion are plain. -/
theorem Completion.events_plain
    (completion : Completion) (s : State) (ref : ActionRef) (node : NodeDefinition)
    (attempt : Attempt) (now : Instant) :
  Plain (completion.events s ref node attempt now)
  := by
  unfold Completion.events Plain
  intro event mem
  simp only [List.append_assoc, List.mem_append, List.mem_map, List.mem_cons, List.not_mem_nil,
    or_false] at mem
  rcases mem with ⟨record, -, rfl⟩ | rfl | mem
  · rfl
  · rfl
  · split at mem
    · obtain rfl := List.mem_singleton.mp mem
      rfl
    · simp at mem

/-- An action on a node writes plain records, or it is a start. -/
theorem ActionDone.plain
    {p : Platform} {s : State} {env : Env} {ref : ActionRef} {lease : RoleLease}
    {node : NodeDefinition} {input : Json} {answer : PolicyDecision} {now : Instant}
    {done : ActionEffect} (h : ActionDone p s env ref lease node input answer now done) :
  Plain done.events ∨ (node.id ∈ (computeFrontier s).ready ∧
    ∃ attempt : Attempt, attempt.id = env.newID 1 ∧
      done.events = .attemptLeased attempt :: .attemptStatusChanged attempt.id .running (.utc now)
        :: startLeases ref node attempt.id env now)
  := by
  cases h with
  | renewal kind made =>
      obtain ⟨ttl, rfl⟩ := renewalEvents_ok made
      exact Or.inl (.single rfl)
  | start kind made =>
      obtain ⟨-, ready, rfl⟩ := startEvents_ok made
      exact Or.inr ⟨ready, _, rfl, rfl⟩
  | checkpoint kind made =>
      obtain ⟨attempt, checkpoint, -, -, -, events⟩ := checkpointEvents_ok made
      rw [events]
      exact Or.inl (.single rfl)
  | publish kind made =>
      obtain ⟨attempt, value, pack, -, -, -, events⟩ := publishEvents_ok made
      rw [events]
      exact Or.inl (.single rfl)
  | assess kind made =>
      obtain ⟨attempt, value, decision, -, -, -, events⟩ := assessEvents_ok made
      rw [events]
      exact Or.inl (.single rfl)
  | status kind made =>
      obtain ⟨attempt, -, events⟩ := statusEvents_ok made
      rw [events]
      exact Or.inl (.single rfl)
  | completion kind made =>
      obtain ⟨attempt, completion, closed, -, -, -, -, -, events⟩ := completionEvents_ok made
      rw [events]
      exact Or.inl (completion.events_plain s ref node attempt closed)

/-- The batch of an action. -/
theorem ActionCall.apply_write
    {p : Platform} {s : State} {segments : List Segment} {env : Env} {call : ActionCall}
    {b : Batch} (h : call.apply p s segments env = .ok (some b)) :
  Write p s env (.apply call) b.events
  := by
  obtain ⟨-, executed⟩ := apply_ok h
  cases executed with
  | supersede kind made =>
      obtain ⟨⟨note, commit⟩, -⟩ := applyIncidentSupersedeAction_ok made
      exact .plain _ commit.plain
  | controlResolve kind made =>
      obtain ⟨⟨value, commit⟩, -⟩ := applyIncidentControlResolveAction_ok made
      exact .plain _ commit.plain
  | transfer kind value made =>
      obtain ⟨ttl, previous, -, -, -, events, -⟩ := transferRole_ok made
      rw [events]
      exact .plain _ (.single rfl)
  | resource kind lease node authorized target made =>
      obtain ⟨resource, status, receipt, now, closable, -, events, -⟩ := applyResourceAction_ok made
      rw [events]
      exact .closure call.ref resource status receipt now _ closable
  | effect kind lease node authorized target made =>
      obtain ⟨effect, -, -, events, -⟩ := applyEffectAction_ok made
      rw [events]
      exact .plain _ (Plain.append (.single rfl) (.single rfl))
  | action lease node done authorized target made events command =>
      rw [events]
      have declared := (ActionRef.target_ok target).1
      rcases made.plain with plain | ⟨ready, attempt, -, started⟩
      · exact .plain _ (plain.append (.single rfl))
      · rw [started]
        refine .start call.ref node attempt _ _ 2 ?_ ready
        rw [(State.nodeDefinition_some declared).1]
        exact declared

/-- The first batch of a call. -/
theorem Call.write
    {p : Platform} {s : State} {segments : List Segment} {env : Env} {call : Call} {b : Batch}
    {saga : Saga} (h : call.start p s segments env = .ok (some (b, saga))) :
  Write p s env call b.events
  := by
  cases Call.start_ok h with
  | bindRole value b made =>
      obtain ⟨ttl, -, -, -, -, -, events, -, -⟩ := bindRole_ok made
      rw [events]
      exact .plain _ (.single rfl)
  | renewRole value b made =>
      obtain ⟨ttl, -, -, -, -, -, events, -, -⟩ := bindRole_ok (renewRole_ok made)
      rw [events]
      exact .plain _ (.single rfl)
  | transferRole value b made =>
      obtain ⟨ttl, previous, -, -, -, events, -⟩ := transferRole_ok made
      rw [events]
      exact .plain _ (.single rfl)
  | releaseRole roleId sessionId key b made =>
      obtain ⟨-, events, -, -⟩ := releaseRole_ok made
      rw [events]
      exact .plain _ (.single rfl)
  | apply call b made => exact ActionCall.apply_write made
  | incident incidentId actorRole key change b made =>
      exact .plain _ (IncidentCall.answer_ok made).1.plain
  | controlIncident incidentId actorRole value key b made =>
      exact .plain _ (controlResolveIncident_ok made).1.plain
  | importGraph value b made =>
      obtain ⟨first, valid, events, -, -⟩ := importGraphDefinition_ok made
      rw [events]
      exact .importGraph _ _ _ first valid
  | changeGraph value b made =>
      obtain ⟨graph, impact, superseded, impact', patched, events, -, -⟩ := applyGraphChange_ok made
      rw [events]
      exact .changeGraph _ _ _ _ _ _ _ patched
  | autoSkip b made =>
      obtain ⟨nodeId, cut, events, -⟩ := autoSkip_eq_some made
      rw [events]
      exact .skip _ _ cut
  | autoComplete b made =>
      obtain ⟨node, outcome, ready, declared, kind, events, -⟩ := autoComplete_ok made
      rw [events]
      exact .complete _ _ _ declared kind ready
  | importHistory value b made =>
      obtain ⟨_, _, valid, admitted, events, -, -⟩ := importLifecycleHistory_ok made
      rw [events]
      exact .importHistory value segments valid _ rfl (validateLifecycleMigration_ok admitted)
  | reconcile value b effect made =>
      obtain ⟨-, -, events, -⟩ := reconcileAdmission_ok made
      rw [events]
      exact .plain _ (.single rfl)

variable {p : Platform} {projectId : String} {allow : State → Call → Prop}

/-- A pending batch was computed for its job. -/
theorem Job.Computed.write
    {s : State} {env : Env} {job : Job} {base : List Segment} {batch : Batch}
    (computed : job.Computed p allow s env) (pending : job.stage.pending = some (base, batch)) :
  Write p s env job.call batch.events ∧
    (Plain batch.events ∨ (allow s job.call ∧ env.Fresh s))
  := by
  unfold Job.Computed at computed
  split at computed
  · rename_i base' batch' stage
    obtain ⟨rfl, rfl⟩ : base' = base ∧ batch' = batch := by
      simpa [stage, Stage.pending] using pending
    exact ⟨Call.write computed.1, Or.inr ⟨computed.2.1, computed.2.2.1⟩⟩
  · rename_i base' batch' stage
    obtain ⟨rfl, rfl⟩ : base' = base ∧ batch' = batch := by
      simpa [stage, Stage.pending] using pending
    obtain ⟨call, -, admission⟩ := computed
    obtain ⟨events, -⟩ := dispatchAdmission_ok admission
    have plain : Plain batch'.events := by
      rw [events]
      exact .single rfl
    exact ⟨.plain _ plain, Or.inl plain⟩
  · rename_i base' batch' stage
    obtain ⟨rfl, rfl⟩ : base' = base ∧ batch' = batch := by
      simpa [stage, Stage.pending] using pending
    obtain ⟨receipt, observation⟩ := computed
    obtain ⟨effect, status, document, -, -, events, -⟩ := observeEffect_ok observation
    have plain : Plain batch'.events := by
      rw [events]
      exact Plain.append (.single rfl) (observationEvents_plain _ _ _ _ _)
    exact ⟨.plain _ plain, Or.inl plain⟩
  · rename_i idle _ _
    unfold Stage.pending at pending
    split at pending <;> simp_all

/-- Every segment of a reachable journal is the fence that establishes the authority, or what some
call wrote on a state it loaded. -/
theorem Reachable.segment_write
    {w : World} (reachable : Reachable p projectId allow w) :
  ∀ segment ∈ w.journal, (∃ e, segment.events = [.authorityEstablished e]) ∨
    ∃ base s env call, reduceSegments p projectId base = .ok s ∧
      Write p s env call segment.events ∧
      (Plain segment.events ∨ (allow s call ∧ env.Fresh s))
  := by
  refine Reachable.induction (P := fun w => ∀ segment ∈ w.journal,
    (∃ e, segment.events = [.authorityEstablished e]) ∨
      ∃ base s env call, reduceSegments p projectId base = .ok s ∧
        Write p s env call segment.events ∧
        (Plain segment.events ∨ (allow s call ∧ env.Fresh s))) ?_ ?_ reachable
  · rintro journal now (_ | ⟨e, first, s, fence, hashed, accepted⟩) segment mem
    · simp [World.initial] at mem
    · obtain rfl : segment = first := by simpa [World.initial] using mem
      exact Or.inl ⟨e, fence⟩
  · intro w w' reached step before segment mem
    cases step with
    | create i job base batch stored created running pending appended =>
        simp only [World.setJob, List.mem_append, List.mem_singleton] at mem
        rcases mem with mem | rfl
        · exact before segment mem
        · right
          obtain ⟨-, -, -, rfl⟩ := appendOnce_created appended
          obtain ⟨s, env, grounded⟩ := reached.grounded i job base batch running pending
          exact ⟨base, s, env, job.call, grounded.loaded, grounded.computed.write pending⟩
    | _ => exact before segment mem

/-- Every segment of a reachable journal is the fence that establishes the authority, or what some
call wrote on the state that the segments before it replay to. -/
theorem Reachable.segment_created
    {w : World} (reachable : Reachable p projectId allow w) (free : CollisionFree w.journal)
    {front rest : List Segment} {segment : Segment} (split : w.journal = front ++ segment :: rest) :
  (front = [] ∧ ∃ e, segment.events = [.authorityEstablished e]) ∨
    ∃ s env call, reduceSegments p projectId front = .ok s ∧
      Write p s env call segment.events ∧
      (Plain segment.events ∨ (allow s call ∧ env.Fresh s))
  := by
  rcases reachable.origin free split with fence | ⟨w₀, job, batch, s, env, -, rfl, made⟩
  · exact .inl fence
  · right
    rw [made.segment_eq]
    exact ⟨s, env, job.call, made.grounded.loaded, made.grounded.computed.write made.pending⟩

/-! ### Moments of a replay -/

/-- Replay of the journal comes to the event of the segment in the state, and goes on in the next
one. -/
inductive Moment (p : Platform) (projectId : String) (journal : List Segment) (segment : Segment)
    (event : Event) (s s' : State) : Prop where
  | mk (front rest : List Segment) (before after : List Event) (r : State)
      (segments : journal = front ++ segment :: rest)
      (events : segment.events = before ++ event :: after)
      (loaded : reduceSegments p projectId front = .ok r)
      (reached : before.foldlM (State.applyEvent p segment.sequence segment.committedAt) r = .ok s)
      (applied : s.applyEvent p segment.sequence segment.committedAt event = .ok s')

/-- What every moment of a journal keeps, the replay of its segments keeps. -/
theorem moments_invariant
    {journal base front : List Segment} {r s : State} (P : State → Prop)
    (close : ∀ (segment : Segment) s, P s → P (segment.close s))
    (keep : ∀ segment event s s', Moment p projectId journal segment event s s' → P s → P s')
    (start : P r) (loaded : reduceSegments p projectId base = .ok r) (later : base <+: front)
    (within : front <+: journal) (loaded' : reduceSegments p projectId front = .ok s) :
  P s
  := by
  obtain ⟨more, rfl⟩ := later
  induction more using List.reverseRecOn generalizing s with
  | nil =>
      rw [List.append_nil] at loaded'
      obtain rfl : r = s := Except.ok.inj (loaded.symm.trans loaded')
      exact start
  | append_singleton more segment ih =>
      rw [← List.append_assoc] at loaded' within
      obtain ⟨s₀, before⟩ := reduceSegments_of_prefix loaded'
      obtain ⟨s₁, events, rfl⟩ := State.applySegment_ok (applySegment_of_reduceSegments before loaded')
      have held : P s₀ := ih ((List.prefix_append (base ++ more) [segment]).trans within) before
      obtain ⟨rest, rfl⟩ := within
      apply close
      refine foldlM_invariant_at P ?_ held events
      intro front event after s s' split reached applied
      exact keep segment event s s'
        (.mk (base ++ more) rest front after s₀ (by simp) split before reached applied)

/-- What the events of a journal keep, its replay keeps. -/
theorem reduceSegments_invariant
    {Q : Event → Prop} {P : State → Prop} {segments : List Segment} {s : State}
    (sound : ∀ segment ∈ segments, ∀ event ∈ segment.events, Q event)
    (keep : ∀ n at_ s event s', Q event → P s → s.applyEvent p n at_ event = .ok s' → P s')
    (close : ∀ (segment : Segment) s, P s → P (segment.close s)) (start : P (State.new projectId))
    (loaded : reduceSegments p projectId segments = .ok s) :
  P s
  := by
  simp only [reduceSegments, reduceSegmentsFrom, bind_eq_ok, Except.ok.injEq] at loaded
  obtain ⟨r, replayed, rfl⟩ := loaded
  refine foldlM_invariant (fun r : Replay => P r.state) ?_ start replayed
  intro r segment r' mem before applied
  simp only [Replay.applySegment, bind_eq_ok, check_eq_ok, Except.ok.injEq] at applied
  obtain ⟨_, -, r'', events, rfl⟩ := applied
  apply close
  refine foldlM_invariant (fun r : Replay => P r.state) ?_ before events
  intro r event r' mem' before applied
  unfold Replay.applyEvent at applied
  split at applied
  · simp only [bind_eq_ok, check_eq_ok, Except.ok.injEq] at applied
    obtain ⟨_, -, _, -, rfl⟩ := applied
    exact before
  · simp only [bind_eq_ok, check_eq_ok, Except.ok.injEq] at applied
    obtain ⟨_, -, _, -, rfl⟩ := applied
    exact before
  · simp only [bind_eq_ok, Except.ok.injEq] at applied
    obtain ⟨s, step, rfl⟩ := applied
    exact keep _ _ _ _ _ (sound segment mem event mem') before step

/-! ### Imported events -/

/-- Is the event a plain one or one about a resource? -/
def Event.isRecord : Event → Bool
  | .resourceLeased _ | .resourceClosureObserved .. | .resourceReleased .. => true
  | event => event.isPlain

/-- A reader of a record reads a record. -/
theorem EventReader.of_isRecord
    {α : Type} [Inhabited α] {d : Decoder α} {event : α → Event}
    (record : ∀ a, (event a).isRecord = true) (j : Json) (e : Event)
    (h : (EventReader.of d event).read j = .ok e) :
  e.isRecord = true
  := by
  simp only [EventReader.of, Except.map] at h
  split at h
  · simp at h
  · obtain rfl := Except.ok.inj h
    exact record _

/-- The events of an imported history are records. -/
theorem eventReaders_isRecord :
  ∀ entry ∈ eventReaders, ∀ j e, entry.2.read j = .ok e → e.isRecord = true
  := by
  unfold eventReaders
  simp only [List.forall_mem_cons, List.not_mem_nil, false_implies, implies_true, and_true]
  repeat' apply And.intro
  all_goals exact EventReader.of_isRecord fun _ => rfl

/-- What an event of a history reads as is a record. -/
theorem LifecycleMigrationEvent.readAs_isRecord
    {event : LifecycleMigrationEvent} {payload : Json} {e : Event}
    (h : event.readAs payload = .ok e) :
  e.isRecord = true
  := by
  simp only [readAs, bind_eq_ok, need_eq_ok, eventReader, Option.map_eq_some_iff] at h
  obtain ⟨_, ⟨entry, found, rfl⟩, read⟩ := h
  exact eventReaders_isRecord entry (List.mem_of_find?_eq_some found) payload e read

/-- The committed form of an event of a history is a record, or one that replay refuses. -/
theorem LifecycleMigrationEvent.committed_isRecord
    (event : LifecycleMigrationEvent) :
  event.committed.isRecord = true ∨ event.committed = .unsupported event.type
  := by
  unfold committed
  split
  · rename_i stored
    exact Or.inl (readAs_isRecord stored)
  · exact Or.inr rfl

/-! ### The events of a reachable journal -/

/-- An event as the calls write it. -/
inductive Event.Sound (p : Platform) : Event → Prop where
  | record (event : Event) (record : event.isRecord = true) : Sound p event
  | established (e : AuthorityEstablishment) : Sound p (.authorityEstablished e)
  | receipt (r : LifecycleMigrationReceipt) : Sound p (.lifecycleHistoryImported r)
  /-- A graph is brought once it is valid. -/
  | graphImported (graph : GraphDefinition) (revision inputDigest : String)
      (valid : validateGraph p.screenGraph graph = .ok ()) :
      Sound p (.graphImported graph revision inputDigest)
  | graphRevised (graph : GraphDefinition) (revision previous : String) (superseded : List String)
      (impact : GraphImpact) (valid : validateGraph p.screenGraph graph = .ok ()) :
      Sound p (.graphRevised graph revision previous superseded impact)
  | completed (nodeId outcome : String) (at_ : Stamp) :
      Sound p (.nodeAutoCompleted nodeId outcome at_)
  /-- A skip has one reason. -/
  | skipped (nodeId : String) (at_ : Stamp) :
      Sound p (.nodeAutoSkipped nodeId "closed_predicate_unsatisfied" at_)
  | unsupported (type : String) : Sound p (.unsupported type)

/-- A plain event is a record. -/
theorem Event.isRecord_of_plain
    {event : Event} (plain : event.isPlain = true) :
  event.isRecord = true
  := by
  cases event <;> first | rfl | exact plain

/-- What a call writes is sound. -/
theorem Write.sound
    {s : State} {env : Env} {call : Call} {events : List Event} (write : Write p s env call events) :
  ∀ event ∈ events, event.Sound p
  := by
  intro event mem
  cases write with
  | plain events plain => exact .record _ (Event.isRecord_of_plain (plain event mem))
  | start ref node attempt now action i declared ready =>
      apply Event.Sound.record
      simp only [startLeases, List.cons_append, List.mem_cons, List.mem_append, List.mem_map,
        List.not_mem_nil, or_false] at mem
      rcases mem with rfl | rfl | ⟨_, -, rfl⟩ | rfl <;> rfl
  | closure ref resource status receipt now action closable =>
      apply Event.Sound.record
      simp only [List.cons_append, List.mem_cons, List.mem_append, List.not_mem_nil,
        or_false] at mem
      rcases mem with rfl | mem | rfl
      · rfl
      · rcases mem_closureEvents mem with rfl | rfl | rfl | rfl <;> rfl
      · rfl
  | importGraph graph revision inputDigest first valid =>
      obtain rfl := List.mem_singleton.mp mem
      exact .graphImported _ _ _ valid
  | changeGraph patch graph impact impact' revision previous superseded patched =>
      obtain rfl := List.mem_singleton.mp mem
      obtain ⟨w, -, valid, rfl, -⟩ := applyGraphPatch_ok patched
      exact .graphRevised _ _ _ _ _ valid
  | skip nodeId at_ cut =>
      obtain rfl := List.mem_singleton.mp mem
      exact .skipped nodeId at_
  | complete node outcome at_ declared deterministic ready =>
      obtain rfl := List.mem_singleton.mp mem
      exact .completed _ _ _
  | importHistory value segments valid receipt called admitted =>
      rcases List.mem_cons.mp mem with rfl | mem
      · exact .receipt _
      · obtain ⟨given, -, rfl⟩ := List.mem_map.mp mem
        rcases given.committed_isRecord with record | refused
        · exact .record _ record
        · rw [refused]
          exact .unsupported _

/-- Every event of a reachable journal is sound. -/
theorem Reachable.sound
    {w : World} (reachable : Reachable p projectId allow w) :
  ∀ segment ∈ w.journal, ∀ event ∈ segment.events, event.Sound p
  := by
  intro segment mem event mem'
  rcases reachable.segment_write segment mem with ⟨e, fence⟩ | ⟨_, _, _, _, -, write, -⟩
  · rw [fence] at mem'
    obtain rfl := List.mem_singleton.mp mem'
    exact .established e
  · exact write.sound event mem'

/-- The graph of every state that a part of a reachable journal replays to is valid. -/
theorem Reachable.validGraph
    {w : World} {s : State} {g : GraphDefinition} {front : List Segment}
    (reachable : Reachable p projectId allow w) (part : front <+: w.journal)
    (loaded : reduceSegments p projectId front = .ok s) (graph : s.graph = some g) :
  validateGraph p.screenGraph g = .ok ()
  := by
  suffices valid : ∀ g, s.graph = some g → validateGraph p.screenGraph g = .ok () from valid g graph
  refine reduceSegments_invariant
    (P := fun s => ∀ g, s.graph = some g → validateGraph p.screenGraph g = .ok ())
    (fun segment mem => reachable.sound segment (part.subset mem)) ?_ (fun _ _ h => h) ?_ loaded
  · intro n at_ s event s' sound before applied g graph
    cases replaces : event.replacesGraph with
    | false =>
        rw [((State.applyEvent_frame applied).graph replaces).1] at graph
        exact before g graph
    | true =>
        cases sound with
        | graphImported graph' revision digest valid =>
            obtain rfl := Except.ok.inj applied
            obtain rfl := Option.some.inj graph
            exact valid
        | graphRevised graph' revision previous superseded impact valid =>
            obtain rfl := Except.ok.inj applied
            rw [State.reviseGraph_eq] at graph
            obtain rfl := Option.some.inj graph
            exact valid
        | record event record =>
            cases event <;> simp_all [Event.replacesGraph, Event.isRecord, Event.isPlain]
        | _ => simp [Event.replacesGraph] at replaces
  · intro g graph
    simp [State.new] at graph

end Dagrail
