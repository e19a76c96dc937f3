import Dagrail.Service.LiveAttempts

/-!
# Live attempts over runs

Every batch of a call consists of events that are lawful where they are applied, so in every run
whose imported histories read from the journal as the importer read them, an attempt that is not
over is the last one of its node and the node is active.
-/

namespace Dagrail

/-! ### Lawful batches -/

/-- Every event of a batch is lawful on the state it is applied to. -/
def LawfulBatch (p : Platform) (n : Nat) (at_ : Stamp) : State → List Event → Prop
  | _, [] => True
  | s, event :: rest =>
      event.Lawful s ∧ ∀ s₁, s.applyEvent p n at_ event = .ok s₁ → LawfulBatch p n at_ s₁ rest

/-- No event of the list writes nodes or attempts. -/
def Quiet (events : List Event) : Prop :=
  ∀ event ∈ events, event.writesRuns = false

namespace LawfulBatch

variable {p : Platform} {n : Nat} {at_ : Stamp} {s s' : State} {events : List Event}

/-- A lawful batch keeps the law of live attempts. -/
theorem liveAttempts
    (lawful : LawfulBatch p n at_ s events) (live : LiveAttempts s)
    (applied : events.foldlM (State.applyEvent p n at_) s = .ok s') :
  LiveAttempts s'
  := by
  induction events generalizing s with
  | nil =>
      obtain rfl := Except.ok.inj applied
      exact live
  | cons event rest ih =>
      rw [List.foldlM_cons, bind_eq_ok] at applied
      obtain ⟨s₁, first, applied⟩ := applied
      exact ih (lawful.2 s₁ first) (State.applyEvent_liveAttempts live lawful.1 first) applied

/-- A lawful batch without an event that closes it leaves a live attempt. -/
theorem liveAt
    {attemptId nodeId : String} (lawful : LawfulBatch p n at_ s events) (live : LiveAttempts s)
    (here : s.LiveAt attemptId nodeId) (spares : ∀ event ∈ events, ¬ event.Closes attemptId nodeId)
    (applied : events.foldlM (State.applyEvent p n at_) s = .ok s') :
  s'.LiveAt attemptId nodeId
  := by
  induction events generalizing s with
  | nil =>
      obtain rfl := Except.ok.inj applied
      exact here
  | cons event rest ih =>
      rw [List.foldlM_cons, bind_eq_ok] at applied
      obtain ⟨s₁, first, applied⟩ := applied
      exact ih (lawful.2 s₁ first) (State.applyEvent_liveAttempts live lawful.1 first)
        (State.applyEvent_liveAt live lawful.1 here (spares event List.mem_cons_self) first)
        (fun event mem => spares event (List.mem_cons_of_mem _ mem)) applied

/-- A batch that writes neither nodes nor attempts is lawful. -/
theorem of_quiet
    (quiet : Quiet events) :
  LawfulBatch p n at_ s events
  := by
  induction events generalizing s with
  | nil => trivial
  | cons event rest ih =>
      exact ⟨Event.lawful_of_quiet (quiet event List.mem_cons_self),
        fun s₁ _ => ih fun event mem => quiet event (List.mem_cons_of_mem _ mem)⟩

/-- A batch with one event that writes nodes or attempts is lawful if this event is. -/
theorem of_one
    {front back : List Event} {event : Event} (before : Quiet front) (lawful : event.Lawful s)
    (after : Quiet back) :
  LawfulBatch p n at_ s (front ++ event :: back)
  := by
  induction front generalizing s with
  | nil => exact ⟨lawful, fun _ _ => of_quiet after⟩
  | cons first front ih =>
      have quiet := before first List.mem_cons_self
      refine ⟨Event.lawful_of_quiet quiet, fun s₁ applied => ?_⟩
      have frame := State.applyEvent_frame applied
      obtain ⟨nodes, attempts, nodeAttempts⟩ := frame.runs quiet
      have graph : s₁.graph = s.graph := by
        cases replaces : first.replacesGraph with
        | false => exact (frame.graph replaces).1
        | true => cases first <;> simp [Event.replacesGraph, Event.writesRuns] at replaces quiet
      exact ih (fun event mem => before event (List.mem_cons_of_mem _ mem))
        (lawful.congr graph nodes attempts nodeAttempts)

end LawfulBatch

/-! ### Imported histories -/

namespace Lifecycle

variable {p : Platform} {c c' : LifecycleRecordContext} {s t : State} {occurredAt : Stamp}

/-- A declared node is one of the graph. -/
theorem hasNode_of_nodeDefinition
    {nodeId : String} {node : NodeDefinition} (declared : s.nodeDefinition nodeId = some node) :
  ∃ g, s.graph = some g ∧ g.hasNode nodeId = true
  := by
  obtain ⟨same, g, graph, mem⟩ := State.nodeDefinition_some declared
  refine ⟨g, graph, ?_⟩
  simp only [GraphDefinition.hasNode, List.any_eq_true, decide_eq_true_eq]
  exact ⟨node, mem, same⟩

/-- An event that the importer accepts is lawful. -/
theorem lawful_of_applied
    {source : LifecycleMigrationEvent} {event : Event}
    (h : applyValidatedLifecycleEvent p c s occurredAt source event = .ok (c', t)) :
  event.Lawful s
  := by
  simp only [applyValidatedLifecycleEvent] at h
  cases event with
  | attemptStarted attempt | attemptLeased attempt =>
      obtain ⟨⟨leased, fresh, planned, number⟩, -⟩ := startAttempt_ok h
      simp only [startAttempt, bind_eq_ok, need_eq_ok, Option.filter_eq_some_iff] at h
      obtain ⟨node, ⟨declared, -⟩, -⟩ := h
      exact ⟨fresh, planned, hasNode_of_nodeDefinition declared, leased, number⟩
  | attemptStatusChanged attemptId status updatedAt =>
      obtain ⟨⟨attempt, known, open_, legal⟩, -⟩ := changeAttemptStatus_ok h
      refine ⟨⟨attempt, known, open_⟩, ?_⟩
      rintro rfl
      simp [legalAttemptStatusTransition] at legal
  | attemptCheckpointed checkpoint =>
      simp only [recordCheckpoint, bind_eq_ok, need_eq_ok, Option.filter_eq_some_iff] at h
      obtain ⟨attempt, ⟨known, -⟩, -⟩ := h
      exact Table.has_iff.mpr ⟨attempt, known⟩
  | attemptFinished attemptId outcome outcomeClass facts updatedAt =>
      obtain ⟨⟨attempt, node, known, working, declared, submitted⟩, -⟩ := finishAttempt_ok h
      refine ⟨⟨attempt, known, ?_⟩, ?_⟩
      · intro over_
        simp [over_] at working
      · intro attempt' node' known' declared' task success
        obtain rfl := Option.some.inj (known.symm.trans known')
        obtain rfl := Option.some.inj (declared.symm.trans declared')
        exact submitted task success
  | graphImported | graphRevised | nodeAutoCompleted => simp at h
  | _ => trivial

/-- The events of a simulated history are lawful on every state with the content it starts from. -/
theorem Simulates.lawful
    {a a' : Table Unit} {s' r : State} {events : List LifecycleMigrationEvent} {n : Nat} {at_ : Stamp}
    (all : Simulates p a s events a' s') (filed : Filed s) (same : r.content = s.content)
    (faithful : ∀ event ∈ events, event.stored = event.read) :
  LawfulBatch p n at_ r (events.map LifecycleMigrationEvent.committed)
  := by
  induction all generalizing r with
  | nil => trivial
  | cons ledger read applied _ ih =>
      obtain ⟨s₁, accepted, content⟩ := applyValidatedLifecycleEvent_refines filed n at_ applied
      obtain ⟨r₁, first, same₁⟩ := State.applyEvent_of_content_eq
        (applyValidatedLifecycleEvent_plain applied).1 same accepted
      rw [List.map_cons, committed_of_read (faithful _ List.mem_cons_self) read]
      refine ⟨(lawful_of_applied applied).congr ?_ ?_ ?_ ?_, fun r₂ second => ?_⟩
      · simpa using congrArg State.graph same
      · simpa using congrArg State.nodes same
      · simpa using congrArg State.attempts same
      · simpa using congrArg State.nodeAttempts same
      · obtain rfl : r₁ = r₂ := Except.ok.inj (first.symm.trans second)
        exact ih (applyValidatedLifecycleEvent_filed filed applied) (same₁.trans content)
          fun event mem => faithful event (List.mem_cons_of_mem _ mem)

end Lifecycle

/-! ### The batches of the calls -/

variable {p : Platform} {projectId : String} {s : State} {env : Env} {n : Nat} {at_ : Stamp}

/-- No events are quiet. -/
theorem Quiet.nil :
  Quiet []
  := fun _ mem => absurd mem List.not_mem_nil

/-- A quiet list and a quiet event behind it. -/
theorem Quiet.concat
    {events : List Event} {event : Event} (quiet : Quiet events) (last : event.writesRuns = false) :
  Quiet (events ++ [event])
  := by
  intro event' mem
  rcases List.mem_append.mp mem with mem | mem
  · exact quiet event' mem
  · rw [List.mem_singleton.mp mem]
    exact last

/-- A list of one quiet event. -/
theorem Quiet.single
    {event : Event} (quiet : event.writesRuns = false) :
  Quiet [event]
  := Quiet.nil.concat quiet

/-- An active attempt is live. -/
theorem isLive_of_activeAttempt
    {ref : ActionRef} {attempt : Attempt} (live : LiveAttempts s)
    (active : activeAttempt s ref = .ok attempt) :
  s.IsLive attempt.id
  := by
  obtain ⟨known, -, open_⟩ := activeAttempt_ok active
  rw [live.filed _ attempt known]
  exact ⟨attempt, known, open_⟩

/-- The leases of a start are quiet. -/
theorem startLeases_quiet
    (ref : ActionRef) (node : NodeDefinition) (attemptId : String) (env : Env) (now : Instant) :
  Quiet (startLeases ref node attemptId env now)
  := by
  intro event mem
  rw [startLeases_eq, List.mem_map] at mem
  obtain ⟨lease, -, rfl⟩ := mem
  rfl

/-- The events of a completion are quiet but for the end of the attempt. -/
theorem Completion.events_one
    (completion : Completion) (s : State) (ref : ActionRef) (node : NodeDefinition)
    (attempt : Attempt) (now : Instant) :
  ∃ front back, completion.events s ref node attempt now =
      front ++ .attemptFinished attempt.id completion.outcome (outcomeClass node completion.outcome)
        completion.facts (.utc now) :: back ∧ Quiet front ∧ Quiet back
  := by
  refine ⟨completion.decision.toList.map Event.decisionRecorded, _, List.append_assoc _ _ _, ?_, ?_⟩
  · intro event mem
    obtain ⟨record, -, rfl⟩ := List.mem_map.mp mem
    rfl
  · intro event mem
    split at mem
    · obtain rfl := List.mem_singleton.mp mem
      rfl
    · simp at mem

/-- A task succeeds only from a submitted attempt. -/
theorem Completion.Made.submitted
    {completion : Completion} {ref : ActionRef} {node : NodeDefinition} {attempt : Attempt}
    {input : Json} {answer : PolicyDecision} {now : Instant}
    (h : completion.Made p s ref node attempt input answer now) (kind : ref.kind = completionAction node)
    (task : node.kind = .task) (success : outcomeClass node completion.outcome = .success) :
  attempt.status = .submitted
  := by
  cases h with
  | gate gate made => simp [kind, completionAction, task] at gate
  | role role made =>
      simp only [roleCompletion, bind_eq_ok, check_eq_ok, task, reduceCtorEq, if_false, or_self,
        Except.ok.injEq] at made
      obtain ⟨value, -, outcome, -, _, submitted, _, -, rfl⟩ := made
      simpa [success] using submitted

/-- The batch of an action on a node is lawful. -/
theorem ActionDone.lawful
    {ref : ActionRef} {lease : RoleLease} {node : NodeDefinition} {input : Json}
    {answer : PolicyDecision} {now : Instant} {done : ActionEffect} {action : ActionRecord}
    (h : ActionDone p s env ref lease node input answer now done) (live : LiveAttempts s)
    (fresh : env.Fresh s) (target : s.nodeDefinition ref.nodeId = some node) :
  LawfulBatch p n at_ s (done.events ++ [.actionApplied action])
  := by
  have declared : s.nodeDefinition node.id = some node := by
    rw [(State.nodeDefinition_some target).1]
    exact target
  cases h with
  | renewal kind made =>
      obtain ⟨ttl, rfl⟩ := renewalEvents_ok made
      exact .of_quiet ((Quiet.single rfl).concat rfl)
  | start kind made =>
      obtain ⟨planned, -, rfl⟩ := startEvents_ok made
      let attempt := startedAttempt s env ref node now
      have unused : s.attempts.has attempt.id = false := by
        have names := fresh.unused 1
        simp only [State.names, Bool.or_eq_false_iff] at names
        exact names.1.1
      refine ⟨⟨unused, planned, Lifecycle.hasNode_of_nodeDefinition declared, rfl, rfl⟩,
        fun s₁ applied => ?_⟩
      obtain rfl := Except.ok.inj applied
      refine ⟨⟨⟨attempt, ?_, by simp [attempt, startedAttempt]⟩, by simp⟩, fun _ _ => ?_⟩
      · rw [State.startAttempt, Table.lookup_insert]
        exact if_pos rfl
      · exact .of_quiet ((startLeases_quiet _ _ _ _ _).concat rfl)
  | checkpoint kind made =>
      obtain ⟨attempt, checkpoint, active, -, own, events⟩ := checkpointEvents_ok made
      rw [events]
      refine @LawfulBatch.of_one p n at_ s [] _ _ Quiet.nil ?_ (Quiet.single rfl)
      obtain ⟨attempt', known, -⟩ := isLive_of_activeAttempt live active
      exact Table.has_iff.mpr ⟨attempt', own ▸ known⟩
  | publish kind made =>
      obtain ⟨attempt, value, pack, -, -, -, events⟩ := publishEvents_ok made
      rw [events]
      exact .of_quiet ((Quiet.single rfl).concat rfl)
  | assess kind made =>
      obtain ⟨attempt, value, decision, -, -, -, events⟩ := assessEvents_ok made
      rw [events]
      exact .of_quiet ((Quiet.single rfl).concat rfl)
  | status kind made =>
      obtain ⟨attempt, active, events⟩ := statusEvents_ok made
      rw [events]
      refine @LawfulBatch.of_one p n at_ s [] _ _ Quiet.nil ?_ (Quiet.single rfl)
      refine ⟨isLive_of_activeAttempt live active, ?_⟩
      unfold targetStatus
      split_ifs <;> simp
  | completion kind made =>
      obtain ⟨attempt, completion, closed, active, kind, -, completed, -, events⟩ :=
        completionEvents_ok made
      obtain ⟨front, back, one, before, after⟩ := completion.events_one s ref node attempt closed
      rw [events, one, List.append_assoc]
      refine .of_one before ⟨isLive_of_activeAttempt live active, ?_⟩ (after.concat rfl)
      intro attempt' node' known' declared' task success
      obtain ⟨known, here, -⟩ := activeAttempt_ok active
      obtain rfl : attempt = attempt' := by
        rw [live.filed _ attempt known] at known'
        exact Option.some.inj (known.symm.trans known')
      rw [here, target] at declared'
      obtain rfl := Option.some.inj declared'
      exact completed.submitted kind task success

/-- The change of an incident is quiet. -/
theorem IncidentCommit.quiet
    {change : IncidentChange} {incidentId key : String} {b : Batch}
    (h : IncidentCommit s change incidentId key b) :
  Quiet b.events
  := by
  obtain ⟨incident, next, now, -, -, events⟩ := h.changed
  rw [events]
  exact .single rfl

/-- The batch of an action is lawful. -/
theorem ActionCall.apply_lawful
    {segments : List Segment} {call : ActionCall} {b : Batch} (live : LiveAttempts s)
    (fresh : env.Fresh s) (h : call.apply p s segments env = .ok (some b)) :
  LawfulBatch p n at_ s b.events
  := by
  obtain ⟨-, executed⟩ := apply_ok h
  cases executed with
  | supersede kind made =>
      obtain ⟨⟨note, commit⟩, -⟩ := applyIncidentSupersedeAction_ok made
      exact .of_quiet commit.quiet
  | controlResolve kind made =>
      obtain ⟨⟨value, commit⟩, -⟩ := applyIncidentControlResolveAction_ok made
      exact .of_quiet commit.quiet
  | transfer kind value made =>
      obtain ⟨ttl, previous, -, -, -, events, -⟩ := transferRole_ok made
      rw [events]
      exact .of_quiet (.single rfl)
  | resource kind lease node authorized target made =>
      obtain ⟨resource, status, receipt, now, closable, -, events, -⟩ := applyResourceAction_ok made
      rw [events]
      refine .of_quiet (Quiet.concat (fun event mem => ?_) rfl)
      rcases List.mem_cons.mp mem with rfl | mem
      · rfl
      · rcases mem_closureEvents mem with rfl | rfl | rfl | rfl <;> rfl
  | effect kind lease node authorized target made =>
      obtain ⟨effect, -, -, events, -⟩ := applyEffectAction_ok made
      rw [events]
      exact .of_quiet ((Quiet.single rfl).concat rfl)
  | action lease node done authorized target made events command =>
      rw [events]
      have declared := (ActionRef.target_ok target).1
      refine made.lawful live ⟨fun i => fresh.unused _, fun i j same => ?_⟩ declared
      have := fresh.distinct same
      omega

/-- A patch keeps the nodes that are no longer planned. -/
theorem applyGraphPatch_keeps_nodes
    {patch : GraphPatch} {graph : GraphDefinition} {impact : GraphImpact} {superseded : List String}
    (covered : NodesCovered s)
    (patched : applyGraphPatch p s patch = .ok (graph, impact, superseded)) :
  ∀ g, s.graph = some g → ∀ nodeId, Frozen s g nodeId → graph.hasNode nodeId = true
  := by
  intro g known nodeId frozen
  obtain ⟨w, run, -, rfl, -⟩ := applyGraphPatch_ok patched
  simp only [known, Option.getD_some] at run
  exact (PatchState.run_frozen (w := { graph := g }) (covered.has known frozen.1) frozen run).1

/-- The first batch of a call is lawful. -/
theorem Call.lawful
    {segments : List Segment} {call : Call} {b : Batch} {saga : Saga} (live : LiveAttempts s)
    (covered : NodesCovered s) (faithful : call.Faithful) (fresh : env.Fresh s)
    (h : call.start p s segments env = .ok (some (b, saga))) :
  LawfulBatch p n at_ s b.events
  := by
  cases Call.start_ok h with
  | bindRole value b made =>
      obtain ⟨ttl, -, -, -, -, -, events, -, -⟩ := bindRole_ok made
      rw [events]
      exact .of_quiet (.single rfl)
  | renewRole value b made =>
      obtain ⟨ttl, -, -, -, -, -, events, -, -⟩ := bindRole_ok (renewRole_ok made)
      rw [events]
      exact .of_quiet (.single rfl)
  | transferRole value b made =>
      obtain ⟨ttl, previous, -, -, -, events, -⟩ := transferRole_ok made
      rw [events]
      exact .of_quiet (.single rfl)
  | releaseRole roleId sessionId key b made =>
      obtain ⟨-, events, -, -⟩ := releaseRole_ok made
      rw [events]
      exact .of_quiet (.single rfl)
  | apply call b made => exact ActionCall.apply_lawful live fresh made
  | incident incidentId actorRole key change b made =>
      exact .of_quiet (IncidentCall.answer_ok made).1.quiet
  | controlIncident incidentId actorRole value key b made =>
      exact .of_quiet (controlResolveIncident_ok made).1.quiet
  | importGraph value b made =>
      obtain ⟨first, valid, events, -, -⟩ := importGraphDefinition_ok made
      rw [events]
      exact ⟨first, fun _ _ => trivial⟩
  | changeGraph value b made =>
      obtain ⟨graph, impact, superseded, impact', patched, events, -, -⟩ := applyGraphChange_ok made
      rw [events]
      exact ⟨applyGraphPatch_keeps_nodes covered patched, fun _ _ => trivial⟩
  | autoSkip b made =>
      obtain ⟨nodeId, cut, events, -⟩ := autoSkip_eq_some made
      rw [events]
      exact ⟨trivial, fun _ _ => trivial⟩
  | autoComplete b made =>
      obtain ⟨node, outcome, ready, declared, kind, events, -⟩ := autoComplete_ok made
      rw [events]
      refine ⟨fun node' declared' => ?_, fun _ _ => trivial⟩
      obtain rfl := Option.some.inj (declared.symm.trans declared')
      exact kind
  | importHistory value b made =>
      obtain ⟨_, _, valid, admitted, events, -, -⟩ := importLifecycleHistory_ok made
      rw [events]
      have admitted := validateLifecycleMigration_ok admitted
      refine ⟨trivial, fun s₀ taken => ?_⟩
      obtain ⟨⟨_, simulates⟩, -⟩ := Lifecycle.simulates_of_sequence admitted.simulated
      rw [admitted.events]
      refine simulates.lawful (Lifecycle.filed_of_pristine admitted.pristine) ?_
        (faithful _ admitted.commands)
      obtain ⟨-, rfl⟩ := State.importHistory_ok taken
      rfl
  | reconcile value b effect made =>
      obtain ⟨-, -, events, -⟩ := reconcileAdmission_ok made
      rw [events]
      exact .of_quiet (.single rfl)

/-- A pending batch of a call that is faithful is lawful. -/
theorem Job.Computed.lawful
    {job : Job} {base : List Segment} {batch : Batch} (live : LiveAttempts s)
    (covered : NodesCovered s) (computed : job.Computed p (fun _ call => call.Faithful) s env)
    (pending : job.stage.pending = some (base, batch)) :
  LawfulBatch p n at_ s batch.events
  := by
  unfold Job.Computed at computed
  split at computed
  · rename_i base' batch' stage
    obtain ⟨rfl, rfl⟩ : base' = base ∧ batch' = batch := by
      simpa [stage, Stage.pending] using pending
    exact Call.lawful live covered computed.2.1 computed.2.2.1 computed.1
  · rename_i base' batch' stage
    obtain ⟨rfl, rfl⟩ : base' = base ∧ batch' = batch := by
      simpa [stage, Stage.pending] using pending
    obtain ⟨call, -, admission⟩ := computed
    obtain ⟨events, -⟩ := dispatchAdmission_ok admission
    rw [events]
    exact .of_quiet (.single rfl)
  · rename_i base' batch' stage
    obtain ⟨rfl, rfl⟩ : base' = base ∧ batch' = batch := by
      simpa [stage, Stage.pending] using pending
    obtain ⟨receipt, observation⟩ := computed
    obtain ⟨effect, status, document, -, -, events, -⟩ := observeEffect_ok observation
    rw [events]
    refine .of_quiet fun event mem => ?_
    rcases List.mem_cons.mp mem with rfl | mem
    · rfl
    · rcases mem_observationEvents mem with rfl | rfl <;> rfl
  · rename_i idle _ _
    unfold Stage.pending at pending
    split at pending <;> simp_all

/-! ### Runs -/

variable {w : World}

/-- What is known of the states around a batch that becomes a segment. -/
theorem Reachable.appended
    {allow : State → Call → Prop} (reachable : Reachable p projectId allow w)
    (free : CollisionFree w.journal) {i : Nat} {job : Job} {base : List Segment} {batch : Batch}
    {stored segment : Segment} {s' : State} (running : w.jobs i = some job)
    (pending : job.stage.pending = some (base, batch))
    (appended : appendOnce p projectId w.journal batch (headHashOf base)
      = .ok (stored, some segment))
    (loaded : reduceSegments p projectId (w.journal ++ [segment]) = .ok s') :
  ∃ s env s₁, Created p projectId allow w job batch segment s env ∧
    reduceSegments p projectId w.journal = .ok s ∧
    batch.events.foldlM (State.applyEvent p segment.sequence segment.committedAt) s = .ok s₁ ∧
    s' = segment.close s₁ ∧ segment.events = batch.events
  := by
  obtain ⟨s, env, created⟩ := reachable.created free running pending appended
  have before := created.grounded.loaded
  obtain ⟨s₁, events, rfl⟩ := State.applySegment_ok (applySegment_of_reduceSegments before loaded)
  have same : segment.events = batch.events := by
    rw [created.segment_eq]
    rfl
  rw [same] at events
  exact ⟨s, env, s₁, created, before, events, rfl, same⟩

/-- Closing a segment keeps the law. -/
theorem LiveAttempts.close
    (live : LiveAttempts s) (segment : Segment) :
  LiveAttempts (segment.close s)
  := live.congr rfl rfl rfl rfl

/-- In every state a run with faithful imports leads to, the attempts that are not over are the last
ones of active nodes. -/
theorem Reachable.liveAttempts
    (reachable : Reachable p projectId (fun _ call => call.Faithful) w)
    (free : CollisionFree w.journal) (loaded : reduceSegments p projectId w.journal = .ok s) :
  LiveAttempts s
  := by
  refine Reachable.induction (P := fun w => CollisionFree w.journal → ∀ s,
    reduceSegments p projectId w.journal = .ok s → LiveAttempts s) ?_ ?_ reachable free s loaded
  · rintro journal now initialised - s loaded
    refine reduceSegments_invariant (Q := fun event => ∃ e, event = .authorityEstablished e)
      ?_ ?_ (fun segment _ live => live.close segment) (LiveAttempts.new projectId) loaded
    · intro segment mem event listed
      cases initialised with
      | empty => simp [World.initial] at mem
      | established e first s fence hashed accepted =>
          obtain rfl : segment = first := by simpa [World.initial] using mem
          rw [fence] at listed
          exact ⟨e, List.mem_singleton.mp listed⟩
    · rintro n at_ s event s' ⟨e, rfl⟩ live applied
      obtain rfl := Except.ok.inj applied
      exact live
  · intro w w' reached step before free s loaded
    cases step with
    | create i job base batch stored segment running pending appended =>
        have free' : CollisionFree w.journal := free.of_prefix (List.prefix_append _ _)
        obtain ⟨s₀, env, s₁, created, loaded₀, applied, rfl, -⟩ :=
          reached.appended free' running pending appended loaded
        have live := before free' s₀ loaded₀
        have covered : NodesCovered s₀ := Replayable.nodesCovered ⟨_, _, loaded₀⟩
        exact ((created.grounded.computed.lawful live covered created.pending).liveAttempts live
          applied).close segment
    | _ => exact before free s loaded

end Dagrail
