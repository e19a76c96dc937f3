import Dagrail.Service.Continuity
import Dagrail.Service.LiveRuns

/-!
# Dispatches of live work

A preparation and its dispatch are two appends. Between them the journal is loaded again, and only
the lease of the role is looked at. What happens to the attempt in that gap decides whether the
effect is dispatched for live work.
-/

namespace Dagrail

variable {p : Platform} {projectId : String} {allow : State → Call → Prop} {w w' : World}

/-! ### Locks -/

/-- No two calls in progress hold the same lock. -/
theorem Reachable.locks
    (reachable : Reachable p projectId allow w) {i j : Nat} {job job' : Job} {a : String}
    (running : w.jobs i = some job) (running' : w.jobs j = some job') (apart : i ≠ j)
    (held : job.lock = some a) :
  job'.lock ≠ some a
  := by
  refine Reachable.induction (P := fun w => ∀ i j job job' a, w.jobs i = some job →
    w.jobs j = some job' → i ≠ j → job.lock = some a → job'.lock ≠ some a) ?_ ?_ reachable
    i j job job' a running running' apart held
  · intro journal now _ i j job job' a running
    simp [World.initial] at running
  · intro w w' _ step before i j job job' a running running' apart held
    -- what a step writes at a place has the lock of what was there, or a free one
    have write : ∀ (k : Nat) (new : Option Job) (w₁ : World), w₁.jobs = w.jobs →
        (∀ job₁, new = some job₁ → (∃ old, w.jobs k = some old ∧ old.lock = job₁.lock) ∨
          w.Free job₁.lock) → w' = w₁.setJob k new → job'.lock ≠ some a := by
      rintro k new w₁ same origin rfl
      rcases World.jobs_setJob running with ⟨here, made⟩ | ⟨-, there⟩
      · rcases World.jobs_setJob running' with ⟨here', -⟩ | ⟨-, there'⟩
        · exact absurd (here.trans here'.symm) apart
        · rw [same] at there'
          rcases origin job made with ⟨old, old_, lock⟩ | free
          · exact before k j old job' a old_ there' (here ▸ apart) (lock.trans held)
          · exact free j job' there' a held
      · rw [same] at there
        rcases World.jobs_setJob running' with ⟨here', made⟩ | ⟨-, there'⟩
        · rcases origin job' made with ⟨old, old_, lock⟩ | free
          · rw [← lock]
            exact before i k job old a there old_ (here' ▸ apart) held
          · intro held'
            exact free i job there a held' held
        · rw [same] at there'
          exact before i j job job' a there there' apart held
    have after_ : ∀ (job₀ : Job) (created : Bool) (k : Nat), w.jobs k = some job₀ → ∀ job₁,
        job₀.after created = some job₁ →
        (∃ old, w.jobs k = some old ∧ old.lock = job₁.lock) ∨ w.Free job₁.lock := by
      intro job₀ created k there job₁ next
      simp only [Job.after, Option.map_eq_some_iff] at next
      obtain ⟨stage, -, rfl⟩ := next
      exact .inl ⟨job₀, there, rfl⟩
    have moved : ∀ (job₀ : Job) (stage : Stage) (k : Nat), w.jobs k = some job₀ → ∀ job₁,
        some { job₀ with stage } = some job₁ →
        (∃ old, w.jobs k = some old ∧ old.lock = job₁.lock) ∨ w.Free job₁.lock := by
      intro job₀ stage k there job₁ made
      obtain rfl := Option.some.inj made
      exact .inl ⟨job₀, there, rfl⟩
    cases step with
    | tick => exact before i j job job' a running running' apart held
    | start now k call s env batch saga vacant loaded allowed within fresh computed free =>
        refine write k _ { w with now } rfl ?_ rfl
        rintro job₁ made
        obtain rfl := Option.some.inj made
        exact .inr free
    | create k job₀ base batch stored segment there pending appended =>
        exact write k _ { w with journal := w.journal ++ [segment] } rfl (after_ job₀ true k there) rfl
    | answer k job₀ base batch stored there pending appended =>
        exact write k _ w rfl (after_ job₀ false k there) rfl
    | beginDispatch now k job₀ call s env batch there =>
        exact write k _ { w with now } rfl (moved job₀ _ k there) rfl
    | dispatch k job₀ answer there =>
        exact write k _ { w with dispatched := job₀.saga.actionId :: w.dispatched } rfl
          (moved job₀ _ k there) rfl
    | reconcile k job₀ receipt there => exact write k _ w rfl (moved job₀ _ k there) rfl
    | observe now k job₀ receipt s env batch there =>
        exact write k _ { w with now } rfl (moved job₀ _ k there) rfl
    | stop k => exact write k none w rfl (fun _ made => by simp at made) rfl

/-! ### The record of a preparation -/

/-- The effect is recorded for the attempt, the node and the role. -/
def State.EffectAt (s : State) (actionId attemptId nodeId role : String) : Prop :=
  ∃ effect, s.effects.lookup actionId = some effect ∧ effect.attemptId = attemptId ∧
    effect.nodeId = nodeId ∧ effect.ownerRole = role

section

variable {s s' : State} {n : Nat} {at_ : Stamp} {event : Event}
  {actionId attemptId nodeId role : String}

/-- An effect that is written for what it was recorded for stays so. -/
theorem State.EffectAt.write
    (recorded : s.EffectAt actionId attemptId nodeId role) {id : String} {effect : EffectAction}
    (same : id = actionId → effect.attemptId = attemptId ∧ effect.nodeId = nodeId ∧
      effect.ownerRole = role) :
  ∃ effect', (s.effects.insert id effect).lookup actionId = some effect' ∧
    effect'.attemptId = attemptId ∧ effect'.nodeId = nodeId ∧ effect'.ownerRole = role
  := by
  obtain ⟨old, known, here⟩ := recorded
  rw [Table.lookup_insert]
  by_cases own : actionId = id
  · exact ⟨effect, if_pos own, same own.symm⟩
  · exact ⟨old, by rw [if_neg own, known], here⟩

/-- What an effect is recorded for is left by every event but another preparation of the effect. -/
theorem State.applyEvent_effectAt
    (recorded : s.EffectAt actionId attemptId nodeId role)
    (apart : ∀ effect, event = .effectPrepared effect → effect.id ≠ actionId)
    (h : s.applyEvent p n at_ event = .ok s') :
  s'.EffectAt actionId attemptId nodeId role
  := by
  have recorded_ := recorded
  obtain ⟨effect, known, here⟩ := recorded_
  have frame := applyEvent_frame h
  cases event with
  | effectPrepared new =>
      obtain rfl := Except.ok.inj h
      exact recorded.write fun same => absurd same (apart new rfl)
  | effectDispatched id dispatchedAt =>
      obtain ⟨old, found, rfl⟩ := dispatchEffect_ok h
      refine recorded.write ?_
      rintro rfl
      obtain rfl := Option.some.inj (known.symm.trans found)
      exact here
  | effectReconciling id reconcilingAt =>
      obtain ⟨old, found, rfl⟩ := reconcileEffect_ok h
      rw [setActionStatus_eq]
      refine recorded.write ?_
      rintro rfl
      obtain rfl := Option.some.inj (known.symm.trans found)
      exact here
  | effectObserved id status receipt updatedAt =>
      obtain rfl := Except.ok.inj h
      rw [observeEffect, setActionStatus_eq]
      refine recorded.write ?_
      rintro rfl
      rw [Table.get_of_lookup known]
      exact here
  | _ => exact ⟨effect, by rw [frame.effects rfl, known], here⟩

/-- A batch without another preparation of the effect leaves what it is recorded for. -/
theorem State.effectAt_of_batch
    {events : List Event} (recorded : s.EffectAt actionId attemptId nodeId role)
    (apart : ∀ effect, .effectPrepared effect ∈ events → effect.id ≠ actionId)
    (applied : events.foldlM (State.applyEvent p n at_) s = .ok s') :
  s'.EffectAt actionId attemptId nodeId role
  := by
  refine foldlM_invariant (fun s : State => s.EffectAt actionId attemptId nodeId role) ?_ recorded
    applied
  intro s event s' mem recorded step
  exact State.applyEvent_effectAt recorded (fun effect same => apart effect (same ▸ mem)) step

end

/-! ### Where the records of effects come from -/

section

variable {s : State} {env : Env} {event : Event}

/-- The events of a completion are not about effects. -/
theorem Completion.events_no_effects
    {completion : Completion} {ref : ActionRef} {node : NodeDefinition} {attempt : Attempt}
    {now : Instant} (mem : event ∈ completion.events s ref node attempt now) :
  event.writesEffects = false
  := by
  simp only [Completion.events, List.append_assoc, List.mem_append, List.mem_map, List.mem_cons,
    List.not_mem_nil, or_false] at mem
  rcases mem with ⟨record, -, rfl⟩ | rfl | mem
  · rfl
  · rfl
  · split at mem
    · obtain rfl := List.mem_singleton.mp mem
      rfl
    · simp at mem

/-- No action on a node writes about effects but the preparation of one. -/
theorem ActionDone.no_effects
    {ref : ActionRef} {lease : RoleLease} {node : NodeDefinition} {input : Json}
    {answer : PolicyDecision} {now : Instant} {done : ActionEffect}
    (h : ActionDone p s env ref lease node input answer now done) (mem : event ∈ done.events) :
  event.writesEffects = false
  := by
  have single : ∀ {other : Event} {events : List Event}, events = [other] →
      other.writesEffects = false → event ∈ events → event.writesEffects = false := by
    rintro other _ rfl none_ mem
    rw [List.mem_singleton.mp mem]
    exact none_
  cases h with
  | renewal kind made =>
      obtain ⟨ttl, rfl⟩ := renewalEvents_ok made
      exact single rfl rfl mem
  | start kind made =>
      obtain ⟨-, -, rfl⟩ := startEvents_ok made
      simp only [startLeases_eq, List.mem_cons, List.mem_map] at mem
      rcases mem with rfl | rfl | ⟨lease, -, rfl⟩ <;> rfl
  | checkpoint kind made =>
      obtain ⟨attempt, checkpoint, -, -, -, events⟩ := checkpointEvents_ok made
      exact single events rfl mem
  | publish kind made =>
      obtain ⟨attempt, value, pack, -, -, -, events⟩ := publishEvents_ok made
      exact single events rfl mem
  | assess kind made =>
      obtain ⟨attempt, value, decision, -, -, -, events⟩ := assessEvents_ok made
      exact single events rfl mem
  | status kind made =>
      obtain ⟨attempt, -, events⟩ := statusEvents_ok made
      exact single events rfl mem
  | completion kind made =>
      obtain ⟨attempt, completion, closed, -, -, -, -, -, events⟩ := completionEvents_ok made
      exact Completion.events_no_effects (events ▸ mem)

/-- What the first batch of a call writes about effects: it prepares the effect of its reference, it
begins a reconciliation, or it brings a history into a project without attempts. -/
inductive Call.WritesEffect (p : Platform) (s : State) (call : Call) (event : Event) : Prop where
  | prepare (action : ActionCall) (effect : EffectAction) (applies : call = .apply action)
      (prepares : action.prepares = true) (prepared : event = .effectPrepared effect)
      (own : effect.id = action.ref.actionId p)
  | reconcile (actionId : String) (reconcilingAt : Stamp)
      (reconciling : event = .effectReconciling actionId reconcilingAt)
  | imported (value : LifecycleImportInput) (imports : call = .importHistory value)
      (pristine : s.attempts.entries = [])

/-- An action that writes about effects prepares the effect of its reference. -/
theorem ActionCall.apply_writesEffect
    {segments : List Segment} {call : ActionCall} {b : Batch}
    (h : call.apply p s segments env = .ok (some b)) (mem : event ∈ b.events)
    (writes : event.writesEffects = true) :
  Call.WritesEffect p s (.apply call) event
  := by
  obtain ⟨-, executed⟩ := apply_ok h
  cases executed with
  | supersede kind made =>
      obtain ⟨⟨note, commit⟩, -⟩ := applyIncidentSupersedeAction_ok made
      obtain ⟨incident, next, now, -, -, events⟩ := commit.changed
      obtain rfl := List.mem_singleton.mp (events ▸ mem)
      cases writes
  | controlResolve kind made =>
      obtain ⟨⟨value, commit⟩, -⟩ := applyIncidentControlResolveAction_ok made
      obtain ⟨incident, next, now, -, -, events⟩ := commit.changed
      obtain rfl := List.mem_singleton.mp (events ▸ mem)
      cases writes
  | transfer kind value made =>
      obtain ⟨ttl, previous, -, -, -, events, -⟩ := transferRole_ok made
      obtain rfl := List.mem_singleton.mp (events ▸ mem)
      cases writes
  | resource kind lease node authorized target made =>
      obtain ⟨resource, status, receipt, now, closable, -, events, -⟩ := applyResourceAction_ok made
      rw [events] at mem
      simp only [List.cons_append, List.mem_cons, List.mem_append, List.not_mem_nil, or_false] at mem
      rcases mem with rfl | mem | rfl
      · cases writes
      · rcases mem_closureEvents mem with rfl | rfl | rfl | rfl <;> cases writes
      · cases writes
  | effect kind lease node authorized target made =>
      obtain ⟨effect, commit, -, events, -⟩ := applyEffectAction_ok made
      rcases List.mem_pair.mp (events ▸ mem) with rfl | rfl
      · exact .prepare call _ rfl (by simp [ActionCall.prepares, kind]) rfl commit.id
      · cases writes
  | action lease node done authorized target made events command =>
      rw [events, List.mem_append, List.mem_singleton] at mem
      rcases mem with mem | rfl
      · simp [made.no_effects mem] at writes
      · cases writes

/-- What the first batch of a call writes about effects. -/
theorem Call.start_writesEffect
    {segments : List Segment} {call : Call} {b : Batch} {saga : Saga}
    (h : call.start p s segments env = .ok (some (b, saga))) (mem : event ∈ b.events)
    (writes : event.writesEffects = true) :
  call.WritesEffect p s event
  := by
  have single : ∀ {other : Event}, b.events = [other] → other.writesEffects = false →
      call.WritesEffect p s event := by
    intro other events none_
    rw [events] at mem
    rw [List.mem_singleton.mp mem, none_] at writes
    cases writes
  cases Call.start_ok h with
  | bindRole value b made =>
      obtain ⟨ttl, -, -, -, -, -, events, -, -⟩ := bindRole_ok made
      exact single events rfl
  | renewRole value b made =>
      obtain ⟨ttl, -, -, -, -, -, events, -, -⟩ := bindRole_ok (renewRole_ok made)
      exact single events rfl
  | transferRole value b made =>
      obtain ⟨ttl, previous, -, -, -, events, -⟩ := transferRole_ok made
      exact single events rfl
  | releaseRole roleId sessionId key b made =>
      obtain ⟨-, events, -, -⟩ := releaseRole_ok made
      exact single events rfl
  | apply call b made => exact ActionCall.apply_writesEffect made mem writes
  | incident incidentId actorRole key change b made =>
      obtain ⟨incident, next, now, -, -, events⟩ := (IncidentCall.answer_ok made).1.changed
      exact single events rfl
  | controlIncident incidentId actorRole value key b made =>
      obtain ⟨incident, next, now, -, -, events⟩ := (controlResolveIncident_ok made).1.changed
      exact single events rfl
  | importGraph value b made =>
      obtain ⟨first, valid, events, -, -⟩ := importGraphDefinition_ok made
      exact single events rfl
  | changeGraph value b made =>
      obtain ⟨graph, impact, superseded, impact', patched, events, -, -⟩ := applyGraphChange_ok made
      exact single events rfl
  | autoSkip b made =>
      obtain ⟨nodeId, cut, events, -⟩ := autoSkip_eq_some made
      exact single events rfl
  | autoComplete b made =>
      obtain ⟨node, outcome, ready, declared, kind, events, -⟩ := autoComplete_ok made
      exact single events rfl
  | importHistory value b made =>
      obtain ⟨_, _, valid, admitted, -⟩ := importLifecycleHistory_ok made
      exact .imported value rfl (validateLifecycleMigration_ok admitted).pristine.attempts
  | reconcile value b effect made =>
      obtain ⟨-, -, events, -⟩ := reconcileAdmission_ok made
      exact .reconcile _ _ (List.mem_singleton.mp (events ▸ mem))

/-- What a pending batch writes about effects. -/
theorem Job.Computed.writesEffect
    {job : Job} {base : List Segment} {batch : Batch} (computed : job.Computed p allow s env)
    (pending : job.stage.pending = some (base, batch)) (mem : event ∈ batch.events)
    (writes : event.writesEffects = true) :
  (job.call.WritesEffect p s event ∧ job.lock = job.call.lock p s) ∨
    (job.stage = .admitting base batch ∧ ∃ call, job.call = .apply call ∧
      event = .effectDispatched (call.ref.actionId p) (.utc (env.clock 0))) ∨
    ∃ id status receipt updatedAt, event = .effectObserved id status receipt updatedAt
  := by
  unfold Job.Computed at computed
  split at computed
  · rename_i base' batch' stage
    obtain ⟨rfl, rfl⟩ : base' = base ∧ batch' = batch := by
      simpa [stage, Stage.pending] using pending
    exact .inl ⟨Call.start_writesEffect computed.1 mem writes, computed.2.2.2⟩
  · rename_i base' batch' stage
    obtain ⟨rfl, rfl⟩ : base' = base ∧ batch' = batch := by
      simpa [stage, Stage.pending] using pending
    obtain ⟨call, applies, admission⟩ := computed
    obtain ⟨events, -⟩ := dispatchAdmission_ok admission
    exact .inr (.inl ⟨stage, call, applies, List.mem_singleton.mp (events ▸ mem)⟩)
  · rename_i base' batch' stage
    obtain ⟨rfl, rfl⟩ : base' = base ∧ batch' = batch := by
      simpa [stage, Stage.pending] using pending
    obtain ⟨receipt, observation⟩ := computed
    obtain ⟨effect', status, document, -, -, events, -⟩ := observeEffect_ok observation
    rw [events] at mem
    rcases List.mem_cons.mp mem with rfl | mem
    · exact .inr (.inr ⟨_, _, _, _, rfl⟩)
    · rcases mem_observationEvents mem with rfl | rfl <;> cases writes
  · rename_i idle _ _
    unfold Stage.pending at pending
    split at pending <;> simp_all

/-- A pending batch that records a preparation belongs to a call with the lock of the effect, or to
an import. -/
theorem Job.Computed.preparation
    {job : Job} {base : List Segment} {batch : Batch} {effect : EffectAction}
    (computed : job.Computed p allow s env) (pending : job.stage.pending = some (base, batch))
    (mem : .effectPrepared effect ∈ batch.events) :
  job.lock = some effect.id ∨ s.attempts.entries = []
  := by
  rcases computed.writesEffect pending mem rfl with ⟨writes, lock⟩ | ⟨-, call, -, same⟩ |
    ⟨_, _, _, _, same⟩
  · cases writes with
    | prepare action effect' applies prepares prepared own =>
        obtain rfl := Event.effectPrepared.inj prepared
        left
        simp [lock, applies, Call.lock, prepares, own]
    | reconcile _ _ same => cases same
    | imported _ _ pristine => exact .inr pristine
  · cases same
  · cases same

/-- A pending batch that records a dispatch is its admission, or it belongs to an import. -/
theorem Job.Computed.dispatch
    {job : Job} {base : List Segment} {batch : Batch} {actionId : String} {dispatchedAt : Stamp}
    (computed : job.Computed p allow s env) (pending : job.stage.pending = some (base, batch))
    (mem : .effectDispatched actionId dispatchedAt ∈ batch.events)
    (native : ∀ value, job.call ≠ .importHistory value) :
  job.stage = .admitting base batch ∧ ∃ call, job.call = .apply call ∧
    call.ref.actionId p = actionId
  := by
  rcases computed.writesEffect pending mem rfl with ⟨writes, -⟩ | ⟨stage, call, applies, same⟩ |
    ⟨_, _, _, _, same⟩
  · cases writes with
    | prepare _ _ _ _ same => cases same
    | reconcile _ _ same => cases same
    | imported value imports => exact absurd imports (native value)
  · obtain ⟨rfl, -⟩ := Event.effectDispatched.inj same
    exact ⟨stage, call, applies, rfl⟩
  · cases same

end

/-! ### Prepared effects -/

/-- The effect of the call is recorded for the attempt and the node of its reference and for its
role, and the attempt is not over. -/
structure ActionCall.ReadyToDispatch (p : Platform) (s : State) (call : ActionCall) : Prop where
  recorded : s.EffectAt (call.ref.actionId p) call.ref.attemptId call.ref.nodeId call.ref.roleId
  live : s.LiveAt call.ref.attemptId call.ref.nodeId

/-- The work the effect was prepared for goes on: the attempt of the effect is not over and is the
last one of its node, the node is active, and the session of the reference holds the lease of the
role. -/
def ActionCall.LiveWork (p : Platform) (s : State) (call : ActionCall) : Prop :=
  ∃ effect attempt lease, s.effects.lookup (call.ref.actionId p) = some effect ∧
    s.attempts.lookup effect.attemptId = some attempt ∧ attempt.status ≠ .terminal ∧
    s.latestAttempt effect.nodeId = some attempt ∧ (s.nodes.get effect.nodeId).status = .active ∧
    s.leases.lookup effect.ownerRole = some lease ∧ lease.active = true ∧
    lease.sessionId = call.ref.sessionId

/-- A dispatch is admitted for live work where its effect is ready. -/
theorem ActionCall.ReadyToDispatch.liveWork
    {s : State} {env : Env} {call : ActionCall} {key digest : String} {b : Batch}
    (ready : call.ReadyToDispatch p s) (live : LiveAttempts s)
    (admitted : dispatchAdmission p s env call.ref key digest = .ok b) :
  call.LiveWork p s
  := by
  obtain ⟨effect, known, ofAttempt, ofNode, ofRole⟩ := ready.recorded
  obtain ⟨attempt, found, here, open_⟩ := ready.live
  simp only [dispatchAdmission, bind_eq_ok, check_eq_ok] at admitted
  obtain ⟨lease, valid, _, session, -⟩ := admitted
  obtain ⟨leased, held, -⟩ := validLeaseAt_ok valid
  have last := live.last _ attempt found open_
  have active := live.active _ attempt found open_
  rw [here, ← ofNode] at last active
  rw [← ofAttempt] at found last
  refine ⟨effect, attempt, lease, known, found, open_, ?_, active, ofRole ▸ leased, held,
    by simpa using session⟩
  simp [State.latestAttempt, last, found]

/-- What an applied preparation commits. -/
theorem ActionCall.apply_prepares
    {s : State} {segments : List Segment} {env : Env} {call : ActionCall} {b : Batch}
    (live : LiveAttempts s) (h : call.apply p s segments env = .ok (some b))
    (prepares : call.prepares = true) :
  ∃ effect action, b.events = [.effectPrepared effect, .actionApplied action] ∧
    effect.id = call.ref.actionId p ∧ effect.attemptId = call.ref.attemptId ∧
    effect.nodeId = call.ref.nodeId ∧ effect.ownerRole = call.ref.roleId ∧
    s.LiveAt call.ref.attemptId call.ref.nodeId
  := by
  simp only [ActionCall.prepares, decide_eq_true_eq] at prepares
  obtain ⟨-, executed⟩ := apply_ok h
  cases executed with
  | effect kind lease node authorized target made =>
      obtain ⟨effect, commit, node_, events, -⟩ := applyEffectAction_ok made
      obtain ⟨attempt, active, own, -⟩ := commit.attempt
      obtain ⟨known, here, open_⟩ := activeAttempt_ok active
      have declared := (State.nodeDefinition_some (ActionRef.target_ok target).1).1
      exact ⟨effect, _, events, commit.id, own.trans (live.filed _ attempt known),
        node_.trans declared, commit.ownerRole, attempt, known, here, open_⟩
  | supersede kind | controlResolve kind | transfer kind | resource kind => simp [prepares] at kind
  | action lease node done authorized target made =>
      cases made with
      | renewal kind | start kind | checkpoint kind | publish kind | assess kind | status kind
      | completion kind => simp [prepares] at kind

/-- A step spares the prepared effects: what it appends neither supersedes the node of an effect
that waits for its dispatch nor ends its attempt. -/
def Spares (w w' : World) : Prop :=
  ∀ segment, w'.journal = w.journal ++ [segment] → ∀ i job call, w.jobs i = some job →
    job.call = .apply call → job.stage = .prepared →
    ∀ event ∈ segment.events, ¬ event.Closes call.ref.attemptId call.ref.nodeId

/-- The effects that wait for their dispatch are ready for it, and a dispatch is admitted on a
journal where the work is live. -/
structure World.Prepares (p : Platform) (projectId : String) (w : World) : Prop where
  lock : ∀ i job call, w.jobs i = some job → job.call = .apply call → job.stage = .prepared →
    job.lock = some (call.ref.actionId p)
  prepared : ∀ i job call, w.jobs i = some job → job.call = .apply call → job.stage = .prepared →
    ∀ s, reduceSegments p projectId w.journal = .ok s → call.ReadyToDispatch p s
  admitting : ∀ i job call base batch, w.jobs i = some job → job.call = .apply call →
    job.stage = .admitting base batch →
    ∀ s, reduceSegments p projectId base = .ok s → call.LiveWork p s
  admitted : ∀ i job, w.jobs i = some job → job.stage = .admitted → ∃ call base s,
    job.call = .apply call ∧ base <+: w.journal ∧ reduceSegments p projectId base = .ok s ∧
      call.LiveWork p s

/-- A job that is written needs no care about its dispatch unless it is prepared; its admission has
to be for live work. -/
structure Job.Careful (p : Platform) (projectId : String) (journal : List Segment) (job : Job) :
    Prop where
  prepared : job.stage ≠ .prepared
  admitting : ∀ call base batch, job.call = .apply call → job.stage = .admitting base batch →
    ∀ s, reduceSegments p projectId base = .ok s → call.LiveWork p s
  admitted : job.stage = .admitted → ∃ call base s, job.call = .apply call ∧ base <+: journal ∧
    reduceSegments p projectId base = .ok s ∧ call.LiveWork p s

/-- The prepared effects stay ready when a careful job is written. -/
theorem World.Prepares.setJob
    {w₁ : World} (prepares : w.Prepares p projectId) (journal : w₁.journal = w.journal)
    (jobs : w₁.jobs = w.jobs) (k : Nat) (new : Option Job)
    (careful : ∀ job, new = some job → job.Careful p projectId w.journal) :
  (w₁.setJob k new).Prepares p projectId
  := by
  constructor
  · intro i job call running applies stage
    rcases World.jobs_setJob running with ⟨-, made⟩ | ⟨-, there⟩
    · exact absurd stage (careful job made).prepared
    · exact prepares.lock i job call (jobs ▸ there) applies stage
  · intro i job call running applies stage s loaded
    rcases World.jobs_setJob running with ⟨-, made⟩ | ⟨-, there⟩
    · exact absurd stage (careful job made).prepared
    · exact prepares.prepared i job call (jobs ▸ there) applies stage s (journal ▸ loaded)
  · intro i job call base batch running applies stage s loaded
    rcases World.jobs_setJob running with ⟨-, made⟩ | ⟨-, there⟩
    · exact (careful job made).admitting call base batch applies stage s loaded
    · exact prepares.admitting i job call base batch (jobs ▸ there) applies stage s loaded
  · intro i job running stage
    rw [show (w₁.setJob k new).journal = w.journal from journal]
    rcases World.jobs_setJob running with ⟨-, made⟩ | ⟨-, there⟩
    · exact (careful job made).admitted stage
    · exact prepares.admitted i job (jobs ▸ there) stage

/-- After an append a job is prepared only if it was a preparation that has created its segment, and
admitted only if it was its admission. -/
theorem Job.after_cases
    {job job' : Job} {created : Bool} (next : job.after created = some job') :
  job'.call = job.call ∧ job'.lock = job.lock ∧
    (∀ base batch, job'.stage ≠ .admitting base batch) ∧
    (job'.stage = .prepared → created = true ∧ ∃ base batch call,
      job.stage = .starting base batch ∧ job.call = .apply call ∧ call.prepares = true) ∧
    (job'.stage = .admitted → ∃ base batch, job.stage = .admitting base batch)
  := by
  simp only [Job.after, Option.map_eq_some_iff] at next
  obtain ⟨stage, next, rfl⟩ := next
  refine ⟨rfl, rfl, ?_⟩
  unfold Job.next at next
  split at next
  · rename_i base batch call started applies
    split at next
    · rename_i both
      rw [Bool.and_eq_true] at both
      obtain rfl := Option.some.inj next
      exact ⟨by simp, fun _ => ⟨both.2, base, batch, call, started, applies, both.1⟩, by simp⟩
    · simp at next
  · obtain rfl := Option.some.inj next
    simp
  · rename_i base batch admitting
    obtain rfl := Option.some.inj next
    exact ⟨by simp, by simp, fun _ => ⟨base, batch, admitting⟩⟩
  · simp at next

/-- A job whose admission is over was admitted for live work. -/
theorem World.Prepares.after
    (prepares : w.Prepares p projectId) (reachable : Reachable p projectId allow w) {k : Nat}
    {job job' : Job} {created : Bool} (running : w.jobs k = some job)
    (next : job.after created = some job') (stage : job'.stage = .admitted) :
  ∃ call base s, job'.call = .apply call ∧ base <+: w.journal ∧
    reduceSegments p projectId base = .ok s ∧ call.LiveWork p s
  := by
  obtain ⟨called, -, -, -, admits⟩ := Job.after_cases next
  obtain ⟨base, batch, admitting⟩ := admits stage
  obtain ⟨s, env, grounded⟩ :=
    reachable.grounded k job base batch running (by simp [admitting, Stage.pending])
  have computed := grounded.computed
  simp only [Job.Computed, admitting] at computed
  obtain ⟨call, applies, -⟩ := computed
  exact ⟨call, base, s, called.trans applies, grounded.earlier, grounded.loaded,
    prepares.admitting k job call base batch running applies admitting s grounded.loaded⟩

/-- A preparation that has created its segment is ready for its dispatch. -/
theorem readyToDispatch_of_prepared
    {job : Job} {call : ActionCall} {base : List Segment} {batch batch' : Batch} {segment : Segment}
    {s s₁ : State} {env : Env} {n : Nat} {at_ : Stamp} (live : LiveAttempts s)
    (created : Created p projectId allow w job batch segment s env)
    (started : job.stage = .starting base batch') (applies : job.call = .apply call)
    (prepares : call.prepares = true) (lawful : LawfulBatch p n at_ s batch.events)
    (batched : batch.events.foldlM (State.applyEvent p n at_) s = .ok s₁) :
  call.ReadyToDispatch p s₁
  := by
  obtain ⟨rfl, rfl⟩ : base = w.journal ∧ batch' = batch := by
    simpa [started, Stage.pending] using created.pending
  have computed := created.grounded.computed
  simp only [Job.Computed, started, applies] at computed
  have start := Call.start_ok computed.1
  generalize job.saga = saga at start
  cases start with
  | apply _ _ made =>
      obtain ⟨effect, action, events, id, attempt, node, role, here⟩ :=
        ActionCall.apply_prepares live made prepares
      constructor
      · rw [events, List.foldlM_cons, bind_eq_ok] at batched
        obtain ⟨s₀, first, rest⟩ := batched
        obtain rfl := Except.ok.inj first
        refine State.effectAt_of_batch ⟨{ effect with sequence := n }, ?_, attempt, node, role⟩ ?_ rest
        · rw [Table.lookup_insert, if_pos id.symm]
        · simp
      · refine lawful.liveAt live here ?_ batched
        rw [events]
        intro event mem
        rcases List.mem_pair.mp mem with rfl | rfl <;> exact fun closes => closes

/-- A step of a run with faithful imports that spares the prepared effects keeps them ready. -/
theorem World.Prepares.step
    (prepares : w.Prepares p projectId)
    (reachable : Reachable p projectId (fun _ call => call.Faithful) w)
    (free : CollisionFree w'.journal)
    (step : Step p projectId (fun _ call => call.Faithful) w w') (spares : Spares w w') :
  w'.Prepares p projectId
  := by
  have idle : ∀ job : Job, job.stage ≠ .prepared → (∀ base batch, job.stage ≠ .admitting base batch) →
      job.stage ≠ .admitted → job.Careful p projectId w.journal := fun job prepared admitting admitted =>
    ⟨prepared, fun _ base batch _ stage => absurd stage (admitting base batch),
      fun stage => absurd stage admitted⟩
  cases step with
  | tick => exact ⟨prepares.lock, prepares.prepared, prepares.admitting, prepares.admitted⟩
  | start now k call s env batch saga vacant loaded allowed within fresh computed free =>
      have kept := @World.Prepares.setJob p projectId w { w with now } prepares rfl rfl
      refine kept k _ fun job made => ?_
      obtain rfl := Option.some.inj made
      exact idle _ (by simp) (by simp) (by simp)
  | create k job₀ base batch stored segment there pending appended =>
      have free₀ : CollisionFree w.journal := free.of_prefix (List.prefix_append _ _)
      refine ⟨?_, ?_, ?_, ?_⟩
      · intro i job call running applies stage
        rcases World.jobs_setJob running with ⟨-, made⟩ | ⟨-, old⟩
        · obtain ⟨called, locked, -, starts, -⟩ := Job.after_cases made
          obtain ⟨-, base', batch', call', started, applied, preparing⟩ := starts stage
          obtain ⟨s, env, created⟩ := reachable.created free₀ there pending appended
          obtain rfl : call' = call := by
            rw [called, applied] at applies
            simpa using applies
          have computed := created.grounded.computed
          simp only [Job.Computed, started, applied] at computed
          rw [locked, computed.2.2.2]
          simp [Call.lock, preparing]
        · exact prepares.lock i job call old applies stage
      · intro i job call running applies stage s' loaded
        obtain ⟨s, env, s₁, created, before, batched, rfl, events⟩ :=
          reachable.appended free₀ there pending appended loaded
        have live := reachable.liveAttempts free₀ before
        have lawful : LawfulBatch p segment.sequence segment.committedAt s batch.events :=
          created.grounded.computed.lawful live (Replayable.nodesCovered ⟨_, _, before⟩) created.pending
        suffices ready : call.ReadyToDispatch p s₁ from ⟨ready.recorded, ready.live⟩
        rcases World.jobs_setJob running with ⟨-, made⟩ | ⟨other, old⟩
        · -- the preparation itself
          obtain ⟨called, -, -, starts, -⟩ := Job.after_cases made
          obtain ⟨-, base', batch', call', started, applied, preparing⟩ := starts stage
          obtain rfl : call' = call := by
            rw [called, applied] at applies
            simpa using applies
          exact readyToDispatch_of_prepared live created started applied preparing lawful batched
        · -- another append while the effect waits
          have ready := prepares.prepared i job call old applies stage s before
          have held := prepares.lock i job call old applies stage
          refine ⟨State.effectAt_of_batch ready.recorded ?_ batched,
            lawful.liveAt live ready.live ?_ batched⟩
          · intro effect mem
            rcases created.grounded.computed.preparation created.pending mem with lock | none_
            · intro same
              exact reachable.locks old there other held (same ▸ lock)
            · obtain ⟨attempt, known, -⟩ := ready.live
              simp [AList.lookup, none_] at known
          · rw [← events]
            exact spares segment rfl i job call old applies stage
      · intro i job call base' batch' running applies stage s loaded
        rcases World.jobs_setJob running with ⟨-, made⟩ | ⟨-, old⟩
        · exact absurd stage ((Job.after_cases made).2.2.1 base' batch')
        · exact prepares.admitting i job call base' batch' old applies stage s loaded
      · intro i job running stage
        have found : ∃ call base s, job.call = .apply call ∧ base <+: w.journal ∧
            reduceSegments p projectId base = .ok s ∧ call.LiveWork p s := by
          rcases World.jobs_setJob running with ⟨-, made⟩ | ⟨-, old⟩
          · exact prepares.after reachable there made stage
          · exact prepares.admitted i job old stage
        obtain ⟨call, base', s, applies, earlier, loaded, live⟩ := found
        exact ⟨call, base', s, applies, earlier.trans (List.prefix_append _ _), loaded, live⟩
  | answer k job₀ base batch stored there pending appended =>
      refine prepares.setJob rfl rfl k _ fun job made => ?_
      obtain ⟨-, -, admits, starts, -⟩ := Job.after_cases made
      exact ⟨fun stage => absurd (starts stage).1 (by simp),
        fun call base batch _ stage => absurd stage (admits base batch),
        prepares.after reachable there made⟩
  | beginDispatch now k job₀ call s env batch there applies prepared loaded within computed =>
      have kept := @World.Prepares.setJob p projectId w { w with now } prepares rfl rfl
      refine kept k _ fun job made => ?_
      obtain rfl := Option.some.inj made
      refine ⟨by simp, ?_, by simp⟩
      rintro call' base batch' applies' stage s' loaded'
      obtain rfl : call = call' := by
        simpa using applies.symm.trans applies'
      obtain ⟨rfl, rfl⟩ : w.journal = base ∧ batch = batch' := by simpa using stage
      obtain rfl := Except.ok.inj (loaded.symm.trans loaded')
      exact (prepares.prepared k job₀ call there applies prepared s loaded).liveWork
        (reachable.liveAttempts free loaded) computed
  | dispatch k job₀ answer there =>
      have kept := @World.Prepares.setJob p projectId w
        { w with dispatched := job₀.saga.actionId :: w.dispatched } prepares rfl rfl
      refine kept k _ fun job made => ?_
      obtain rfl := Option.some.inj made
      exact idle _ (by simp) (by simp) (by simp)
  | reconcile k job₀ receipt there =>
      refine prepares.setJob rfl rfl k _ fun job made => ?_
      obtain rfl := Option.some.inj made
      exact idle _ (by simp) (by simp) (by simp)
  | observe now k job₀ receipt s env batch there =>
      have kept := @World.Prepares.setJob p projectId w { w with now } prepares rfl rfl
      refine kept k _ fun job made => ?_
      obtain rfl := Option.some.inj made
      exact idle _ (by simp) (by simp) (by simp)
  | stop k => exact prepares.setJob rfl rfl k none fun _ made => by simp at made

/-! ### Runs -/

/-- A step of a run with faithful imports that spares the prepared effects. -/
def SparingStep (p : Platform) (projectId : String) (w w' : World) : Prop :=
  Step p projectId (fun _ call => call.Faithful) w w' ∧ Spares w w'

/-- What the steps of a run lead to is reachable, whether they spare the prepared effects or not. -/
theorem reachable_of_sparing
    {journal : List Segment} {now : Instant} (initialised : Initialised p projectId journal)
    (run : Relation.ReflTransGen (SparingStep p projectId) (World.initial journal now) w) :
  Reachable p projectId (fun _ call => call.Faithful) w
  := ⟨journal, now, initialised, run.lift id fun _ _ step => step.1⟩

/-- In every world of a run that spares them, the prepared effects are ready. -/
theorem World.Prepares.run
    {journal : List Segment} {now : Instant} (initialised : Initialised p projectId journal)
    (run : Relation.ReflTransGen (SparingStep p projectId) (World.initial journal now) w)
    (free : CollisionFree w.journal) :
  w.Prepares p projectId
  := by
  induction run with
  | refl => constructor <;> intro i job <;> simp [World.initial]
  | tail before step ih =>
      have longer := Step.journal_prefix step.1
      have prepares := ih (free.of_prefix longer)
      exact prepares.step (reachable_of_sparing initialised before) free step.1 step.2

/-- Effects are dispatched for live work: a dispatch that a call of this controller puts on record
finds the work live in the journal it extends, and an adapter is called only after an admission that
found it live. -/
structure World.DispatchesLive (p : Platform) (projectId : String) (w : World) : Prop where
  commits : ∀ i job base batch stored segment s actionId dispatchedAt, w.jobs i = some job →
    job.stage.pending = some (base, batch) →
    appendOnce p projectId w.journal batch (headHashOf base) = .ok (stored, some segment) →
    reduceSegments p projectId w.journal = .ok s →
    .effectDispatched actionId dispatchedAt ∈ segment.events →
    (∀ value, job.call ≠ .importHistory value) →
    ∃ call, job.call = .apply call ∧ call.ref.actionId p = actionId ∧ call.LiveWork p s
  adapters : ∀ i job, w.jobs i = some job → job.stage = .admitted → ∃ call base s,
    job.call = .apply call ∧ base <+: w.journal ∧ reduceSegments p projectId base = .ok s ∧
      call.LiveWork p s

/-- In every run whose imports are faithful and in which nothing that is committed between the
preparation of an effect and the admission of its dispatch supersedes its node or ends its attempt,
effects are dispatched for live work only. -/
theorem dispatches_live
    {journal : List Segment} {now : Instant} (initialised : Initialised p projectId journal)
    (run : Relation.ReflTransGen (SparingStep p projectId) (World.initial journal now) w)
    (free : CollisionFree w.journal) :
  w.DispatchesLive p projectId
  := by
  have prepares := World.Prepares.run initialised run free
  refine ⟨?_, prepares.admitted⟩
  intro i job base batch stored segment s actionId dispatchedAt running pending appended loaded mem
    native
  obtain ⟨s', env, created⟩ :=
    (reachable_of_sparing initialised run).created free running pending appended
  have listed : .effectDispatched actionId dispatchedAt ∈ batch.events := by
    rw [created.segment_eq] at mem
    exact mem
  obtain ⟨stage, call, applies, own⟩ :=
    created.grounded.computed.dispatch created.pending listed native
  exact ⟨call, applies, own, prepares.admitting i job call _ batch running applies stage s loaded⟩

/-! ### A patch between the preparation and the dispatch -/

/-- A step that appends nothing spares the prepared effects. -/
theorem SparingStep.of_same
    (step : Step p projectId (fun _ call => call.Faithful) w w') (same : w'.journal = w.journal) :
  SparingStep p projectId w w'
  := by
  refine ⟨step, fun segment longer => ?_⟩
  rw [same] at longer
  simp at longer

/-- A calm step spares the prepared effects. -/
theorem SparingStep.of_calm
    (step : Step p projectId (fun _ call => call.Faithful) w w') (calm : Calm w w') :
  SparingStep p projectId w w'
  := by
  rcases calm with ⟨-, none_⟩ | ⟨same, -⟩
  · exact ⟨step, fun _ _ i job _ running _ stage => absurd stage (none_ i job running)⟩
  · exact .of_same step same

namespace SampleDispatch

open SampleContinuity

/-- The effect is prepared by the session that has bound its role. -/
def prepare : ActionCall :=
  { ref := ref 3 "effect.prepare" "00", input := .obj [], idempotencyKey := "prepare"
    prepared := { adapterId := "manual" } }

/-- A patch supersedes the node of the effect. -/
def supersede : Call :=
  .changeGraph
    { token :=
        { projectId := "p", headHash := numberedText 4, currentRevision := Hex.zero.text
          proposedRevision := Hex.zero.text, patchDigest := "", providerSet := Hex.zero.text
          expiresAt := .utc 1 }
      patch :=
        { operations := [.supersedeNode "publish" (some { publish "manual" with id := "again" })] }
      digest := "", idempotencyKey := "change", actorRole := "ops" }

/-- The journal with the preparation. -/
def prepares : Fallible (List Segment) := do
  let journal ← commitEach platform "p" 0 [] (calls.take 3)
  let s ← reduceSegments platform "p" journal
  check (s.namesWithin 9) "an identifier is beyond the bound"
  let answer ← (Call.apply prepare).start platform s journal (.beyond 9 0)
  let (batch, _) ← need answer "the call has no batch"
  let (_, created) ← appendOnce platform "p" journal batch (headHashOf journal)
  let segment ← need created "the batch is known"
  .ok (journal ++ [segment])

/-- The dispatch is admitted on the journal and put on record. -/
def admits (journal : List Segment) : Fallible (State × Batch × Segment × Segment) := do
  let s ← reduceSegments platform "p" journal
  let batch ← dispatchAdmission platform s (.still 0) prepare.ref prepare.idempotencyKey
    (prepare.requestDigest platform)
  let (stored, created) ← appendOnce platform "p" journal batch (headHashOf journal)
  let segment ← need created "the batch is known"
  .ok (s, batch, stored, segment)

/-- The patch is committed between the preparation and the dispatch, and the dispatch is admitted.
-/
def gap : Fallible Unit := do
  let journal ← prepares
  let s ← reduceSegments platform "p" journal
  check (s.namesWithin 12) "an identifier is beyond the bound"
  let answer ← supersede.start platform s journal (.beyond 12 0)
  let (batch, _) ← need answer "the call has no batch"
  let (_, created) ← appendOnce platform "p" journal batch (headHashOf journal)
  let segment ← need created "the batch is known"
  let (s, _, _, _) ← admits (journal ++ [segment])
  check (((journal ++ [segment]).map Segment.segmentHash).Nodup) "two segments share their hash"
  check ((s.effects.lookup (prepare.ref.actionId platform)).all fun effect =>
    (s.nodes.get effect.nodeId).status = .superseded) "the node is not superseded"

/-- The dispatch is admitted after the patch, and without the patch. -/
theorem gap_runs :
  gap = .ok () ∧ (do
    let journal ← prepares
    let _ ← admits journal
    .ok (decide ((journal.map Segment.segmentHash).Nodup)) : Fallible Bool) = .ok true
  := by decide

/-- A run that spares the effect leads to its preparation. -/
theorem prepares_ok
    {journal : List Segment} (h : prepares = .ok journal) :
  ∃ job : Job, job.call = .apply prepare ∧ job.stage = .prepared ∧
    Relation.ReflTransGen (SparingStep platform "p") (World.initial [] 0)
      ((World.initial journal 0).setJob 0 (some job))
  := by
  simp only [prepares, bind_eq_ok, check_eq_ok, need_eq_ok, Except.ok.injEq] at h
  obtain ⟨before, committed, s, loaded, _, names, answer, started, ⟨batch, saga⟩, rfl,
    ⟨stored, created⟩, appended, segment, rfl, rfl⟩ := h
  have keep := @SparingStep.of_calm platform "p"
  have run := run_of_commitEach (fun w w' => keep) (by simp [calls, Call.Faithful]) committed
  have faithful : (Call.apply prepare).Faithful := trivial
  have last := run_commit (fun w w' => keep) loaded faithful
    ⟨fun _ => le_refl _, fun _ => le_refl _, fun _ _ _ => le_refl _⟩ (Env.beyond_fresh names) started
    appended
  exact ⟨_, rfl, rfl, run.trans last⟩

/-- The admission of the dispatch leads to a world where its record is about to be committed. -/
theorem admits_ok
    {allow : State → Call → Prop} {w : World} {job : Job} {s : State} {batch : Batch}
    {stored segment : Segment} (h : admits w.journal = .ok (s, batch, stored, segment))
    (now : w.now = 0) (running : w.jobs 0 = some job) (applies : job.call = .apply prepare)
    (prepared : job.stage = .prepared) :
  Step platform "p" allow w
      (w.setJob 0 (some { job with stage := .admitting w.journal batch })) ∧
    reduceSegments platform "p" w.journal = .ok s ∧
    appendOnce platform "p" w.journal batch (headHashOf w.journal) = .ok (stored, some segment) ∧
    segment.events = [.effectDispatched (prepare.ref.actionId platform) (.utc 0)]
  := by
  simp only [admits, bind_eq_ok, need_eq_ok, Except.ok.injEq, Prod.mk.injEq] at h
  obtain ⟨s, loaded, batch, admitted, ⟨stored, created⟩, appended, segment, rfl, rfl, rfl, rfl, rfl⟩ := h
  have step : Step platform "p" allow _ _ :=
    .beginDispatch w 0 0 job prepare s (.still 0) batch running applies prepared loaded
      ⟨fun _ => now.le, fun _ => le_refl _, fun _ _ _ => le_refl _⟩ admitted
  have same : { w with now := 0 } = w := by
    rw [← now]
  rw [same] at step
  obtain ⟨events, -⟩ := dispatchAdmission_ok admitted
  obtain ⟨-, -, -, made⟩ := appendOnce_created appended
  refine ⟨step, loaded, appended, ?_⟩
  rw [made]
  exact events

end SampleDispatch

open SampleDispatch SampleContinuity in
/-- A patch that is committed between the preparation of an effect and the admission of its dispatch
supersedes the node, and the dispatch is admitted and put on record. -/
theorem dispatch_of_superseded :
  ¬ ∀ (p : Platform) (projectId : String) (w : World),
    Reachable p projectId (fun _ call => call.Faithful) w → CollisionFree w.journal →
    w.DispatchesLive p projectId
  := by
  intro always
  have run := gap_runs.1
  simp only [gap, bind_eq_ok, check_eq_ok, need_eq_ok] at run
  obtain ⟨journal, before, s, loaded, _, names, answer, started, ⟨batch, saga⟩, rfl,
    ⟨stored, created⟩, appended, segment, rfl, ⟨s', batch', stored', segment'⟩, admitted, _, free,
    superseded⟩ := run
  obtain ⟨job, applies, prepared, run⟩ := prepares_ok before
  -- the patch is committed at another place
  let w := (World.initial journal 0).setJob 0 (some job)
  have reachable : Reachable platform "p" (fun _ call => call.Faithful) w :=
    reachable_of_sparing .empty run
  let other : Job := { call := supersede, lock := none, saga, stage := .starting journal batch }
  have first : Step platform "p" (fun _ call => call.Faithful) w (w.setJob 1 (some other)) :=
    .start w 0 1 supersede s (.beyond 12 0) batch saga (by simp [w, World.setJob, World.initial])
      loaded trivial ⟨fun _ => le_refl _, fun _ => le_refl _, fun _ _ _ => le_refl _⟩
      (Env.beyond_fresh names) started (fun _ _ _ _ held => by cases held)
  have second : Step platform "p" (fun _ call => call.Faithful) _ _ :=
    .create (w.setJob 1 (some other)) 1 other journal batch stored segment (by simp [World.setJob])
      rfl appended
  generalize made : World.setJob
    { w.setJob 1 (some other) with journal := (w.setJob 1 (some other)).journal ++ [segment] } 1
    (other.after true) = w' at second
  have journal_ : w'.journal = journal ++ [segment] := by rw [← made]; rfl
  have now : w'.now = 0 := by rw [← made]; rfl
  have running : w'.jobs 0 = some job := by
    rw [← made]
    simp [w, World.setJob]
  -- the dispatch is admitted
  rw [← journal_] at admitted free
  obtain ⟨third, loaded', appended', events⟩ := admits_ok admitted now running applies prepared
  have distinct : (w'.journal.map Segment.segmentHash).Nodup := of_decide_eq_true free
  have live := always platform "p" _ (((reachable.step first).step second).step third) distinct
  let admitting : Job := { job with stage := .admitting w'.journal batch' }
  have waiting : (w'.setJob 0 (some admitting)).jobs 0 = some admitting := by simp [World.setJob]
  have recorded : .effectDispatched (prepare.ref.actionId platform) (.utc 0) ∈ segment'.events := by
    simp [events]
  obtain ⟨call, same, -, effect, attempt, lease, known, -, -, -, active, -⟩ :=
    live.commits 0 admitting w'.journal batch' stored' segment' s' _ _ waiting rfl appended' loaded'
      recorded (by simp [admitting, applies])
  obtain rfl : prepare = call := by simpa [admitting, applies] using same
  simp [known, active] at superseded

open SampleDispatch SampleContinuity in
/-- Without the patch, the admission of the dispatch is for live work. -/
theorem dispatches_live_sample :
  ∃ (w : World) (job : Job) (batch : Batch), w.jobs 0 = some job ∧ job.call = .apply prepare ∧
    job.stage = .admitting w.journal batch ∧ w.DispatchesLive platform "p"
  := by
  have run := gap_runs.2
  simp only [bind_eq_ok, Except.ok.injEq] at run
  obtain ⟨journal, before, ⟨s, batch, stored, segment⟩, admitted, distinct⟩ := run
  obtain ⟨job, applies, prepared, run⟩ := prepares_ok before
  let w := (World.initial journal 0).setJob 0 (some job)
  have running : w.jobs 0 = some job := by simp [w, World.setJob]
  obtain ⟨step, -⟩ := admits_ok (w := w) admitted rfl running applies prepared
  let admitting : Job := { job with stage := .admitting journal batch }
  have waiting : (w.setJob 0 (some admitting)).jobs 0 = some admitting := by simp [World.setJob]
  have free : (journal.map Segment.segmentHash).Nodup := of_decide_eq_true distinct
  exact ⟨w.setJob 0 (some admitting), admitting, batch, waiting, applies, rfl,
    dispatches_live .empty (run.tail (.of_same step rfl)) free⟩

end Dagrail
