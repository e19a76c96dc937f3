import Dagrail.Service.Runs

/-!
# Role leases along runs

A role has one lease at a time. The session that holds an unexpired lease loses it only by its own
release, or by a transfer of a distinct session that holds role control and names the session it
replaces.
-/

namespace Dagrail

/-! ### Holding a role -/

/-- The active lease of the role is one of the session. -/
def State.Bound (s : State) (roleId sessionId : String) : Prop :=
  ∃ lease, s.leases.lookup roleId = some lease ∧ lease.active = true ∧ lease.sessionId = sessionId

/-- The active lease of the role is one of the session and has not expired at the instant. -/
def State.Holds (s : State) (roleId sessionId : String) (now : Instant) : Prop :=
  ∃ lease expires, s.leases.lookup roleId = some lease ∧ lease.active = true ∧
    lease.sessionId = sessionId ∧ lease.expiresAt.parse = some expires ∧ now < expires

/-- The session that passes the lease check of a role holds the role. -/
theorem holds_of_validLeaseAt
    {s : State} {roleId : String} {now : Instant} {lease : RoleLease}
    (h : validLeaseAt s roleId now = .ok lease) :
  s.Holds roleId lease.sessionId now
  := by
  obtain ⟨held, active, covers⟩ := validLeaseAt_ok h
  unfold RoleLease.covers at covers
  split at covers
  · rename_i bound expires _ parsed
    exact ⟨lease, expires, held, active, rfl, parsed, (of_decide_eq_true covers).2⟩
  · simp at covers

/-- Who holds a role now held it before, under the same lease. -/
theorem State.Holds.earlier
    {s : State} {roleId sessionId : String} {now now' : Instant}
    (holds : s.Holds roleId sessionId now') (le : now ≤ now') :
  s.Holds roleId sessionId now
  := by
  obtain ⟨lease, expires, held, active, session, parsed, before⟩ := holds
  exact ⟨lease, expires, held, active, session, parsed, lt_of_le_of_lt le before⟩

/-- One session at most has the active lease of a role. -/
theorem State.Bound.unique
    {s : State} {roleId session session' : String} (h : s.Bound roleId session)
    (h' : s.Bound roleId session') :
  session = session'
  := by
  obtain ⟨lease, held, -, rfl⟩ := h
  obtain ⟨lease', held', -, rfl⟩ := h'
  rw [held] at held'
  rw [Option.some.inj held']

/-- Every active lease is filed under its role. -/
def LeasesFiled (s : State) : Prop :=
  ∀ roleId lease, s.leases.lookup roleId = some lease → lease.active = true →
    lease.roleId = roleId

/-! ### Lease events of a batch -/

/-- No event of the list writes leases. -/
def LeaseFree (events : List Event) : Prop :=
  ∀ event ∈ events, event.writesLeases = false

/-- The lease events a call commits on a state, at an instant. -/
inductive LeaseWrite (s : State) (now : Instant) (call : Call) (events : List Event) : Prop where
  /-- No lease is written. -/
  | nothing (free : LeaseFree events)
  /-- A role is bound that is free for the session. -/
  | bind (lease : RoleLease) (rest : List Event) (eq : events = .roleBound lease :: rest)
      (active : lease.active = true) (free : LeaseFree rest)
      (vacant : ∀ held, s.leases.lookup lease.roleId = some held → held.active = true →
        ∃ expires, held.expiresAt.parse = some expires ∧
          (expires ≤ now ∨ held.sessionId = lease.sessionId))
  /-- A role is transferred. -/
  | transfer (value : TransferInput) (ttl : Duration) (previous : RoleLease)
      (eq : events = [.roleTransferred
        { authority := roleControlAuthority
          actorRole := value.actorRole
          actorSessionId := value.actorSessionId
          previous
          next := value.lease ttl now
          reason := value.reason
          transferredAt := .utc now }])
      (admitted : value.Admitted s now previous)
  /-- A role is released by the session that has it. -/
  | release (roleId sessionId key : String) (at_ : Stamp) (eq : events = [.roleReleased roleId at_])
      (called : call = .releaseRole roleId sessionId key) (bound : s.Bound roleId sessionId)
  /-- A history is imported into a project without leases. -/
  | import_ (none_ : s.leases.entries = []) (receipt : LifecycleMigrationReceipt)
      (rest : List Event) (eq : events = .lifecycleHistoryImported receipt :: rest)

/-- A change of an incident writes no leases. -/
theorem IncidentCommit.leaseFree
    {s : State} {change : IncidentChange} {incidentId key : String} {b : Batch}
    (h : IncidentCommit s change incidentId key b) :
  LeaseFree b.events
  := by
  obtain ⟨incident, next, now, -, -, events⟩ := h.changed
  simp [LeaseFree, events, Event.writesLeases]

/-- The events of a closure write no leases. -/
theorem closureEvents_leaseFree
    (s : State) (resource : ResourceLease) (status : ClosureStatus) (now : Instant) :
  LeaseFree (closureEvents s resource status now)
  := by
  intro event mem
  rcases mem_closureEvents mem with rfl | rfl | rfl | rfl <;> rfl

/-- The events of an observation write no leases. -/
theorem observationEvents_leaseFree
    (s : State) (actionId : String) (effect : EffectAction) (status : EffectStatus)
    (now : Instant) :
  LeaseFree (observationEvents s actionId effect status now)
  := by
  intro event mem
  rcases mem_observationEvents mem with rfl | rfl <;> rfl

/-- The events of a completion write no leases. -/
theorem Completion.events_leaseFree
    (completion : Completion) (s : State) (ref : ActionRef) (node : NodeDefinition)
    (attempt : Attempt) (now : Instant) :
  LeaseFree (completion.events s ref node attempt now)
  := by
  unfold Completion.events LeaseFree
  intro event mem
  simp only [List.append_assoc, List.mem_append, List.mem_map, List.mem_cons, List.not_mem_nil,
    or_false] at mem
  rcases mem with ⟨record, -, rfl⟩ | rfl | mem
  · rfl
  · rfl
  · split at mem
    · obtain rfl := List.mem_singleton.mp mem
      rfl
    · simp at mem

/-- Two lists that write no leases write none together. -/
theorem LeaseFree.append
    {events events' : List Event} (h : LeaseFree events) (h' : LeaseFree events') :
  LeaseFree (events ++ events')
  := by
  intro event mem
  rcases List.mem_append.mp mem with mem | mem
  · exact h event mem
  · exact h' event mem

/-- An action on a node writes no leases, or it is a renewal of the given lease. -/
theorem ActionDone.leases
    {p : Platform} {s : State} {env : Env} {ref : ActionRef} {lease : RoleLease}
    {node : NodeDefinition} {input : Json} {answer : PolicyDecision} {now : Instant}
    {done : ActionEffect} (h : ActionDone p s env ref lease node input answer now done) :
  LeaseFree done.events ∨ ∃ renewed, done.events = [.roleBound renewed] ∧
    renewed.active = true ∧ renewed.roleId = lease.roleId ∧ renewed.sessionId = lease.sessionId
  := by
  cases h with
  | renewal kind made =>
      obtain ⟨ttl, rfl⟩ := renewalEvents_ok made
      exact Or.inr ⟨_, rfl, rfl, rfl, rfl⟩
  | start kind made =>
      obtain ⟨-, -, rfl⟩ := startEvents_ok made
      left
      intro event mem
      simp only [startLeases, List.mem_cons, List.mem_map] at mem
      rcases mem with rfl | rfl | ⟨_, -, rfl⟩ <;> rfl
  | checkpoint kind made =>
      obtain ⟨attempt, checkpoint, -, -, -, events⟩ := checkpointEvents_ok made
      left
      simp [LeaseFree, events, Event.writesLeases]
  | publish kind made =>
      obtain ⟨attempt, value, pack, -, -, -, events⟩ := publishEvents_ok made
      left
      simp [LeaseFree, events, Event.writesLeases]
  | assess kind made =>
      obtain ⟨attempt, value, decision, -, -, -, events⟩ := assessEvents_ok made
      left
      simp [LeaseFree, events, Event.writesLeases]
  | status kind made =>
      obtain ⟨attempt, -, events⟩ := statusEvents_ok made
      left
      simp [LeaseFree, events, Event.writesLeases]
  | completion kind made =>
      obtain ⟨attempt, completion, closed, -, -, -, -, -, events⟩ := completionEvents_ok made
      left
      rw [events]
      exact completion.events_leaseFree s ref node attempt closed

/-- The lease events of a binding. -/
theorem bindRole_leaseWrite
    {p : Platform} {s : State} {segments : List Segment} {env : Env} {renewOnly : Bool}
    {value : BindInput} {b : Batch} {call : Call}
    (h : bindRole p s segments env renewOnly value = .ok (some b)) :
  LeaseWrite s (env.clock 0) call b.events
  := by
  obtain ⟨ttl, -, -, -, -, free, events, -, -⟩ := bindRole_ok h
  refine .bind _ [] events rfl (by simp [LeaseFree]) ?_
  intro held found active
  exact checkBinding_ok free found active

/-- The lease events of a transfer. -/
theorem transferRole_leaseWrite
    {p : Platform} {s : State} {segments : List Segment} {env : Env} {now : Instant}
    {value : TransferInput} {actionHead : String} {b : Batch} {call : Call}
    (h : transferRole p s segments env now value actionHead = .ok (some b)) :
  LeaseWrite s now call b.events
  := by
  obtain ⟨ttl, previous, -, -, admitted, events, -, -⟩ := transferRole_ok h
  exact .transfer value ttl previous events admitted

/-- The lease events of an action. A renewal binds the role of the session that passed the lease
check. The leases of the state are filed under their roles. -/
theorem ActionCall.apply_leaseWrite
    {p : Platform} {s : State} {segments : List Segment} {env : Env} {call : ActionCall}
    {b : Batch} (filed : LeasesFiled s)
    (h : call.apply p s segments env = .ok (some b)) :
  ∃ i, LeaseWrite s (env.clock i) (.apply call) b.events
  := by
  obtain ⟨-, executed⟩ := apply_ok h
  cases executed with
  | supersede kind made =>
      obtain ⟨⟨note, commit⟩, -⟩ := applyIncidentSupersedeAction_ok made
      exact ⟨0, .nothing commit.leaseFree⟩
  | controlResolve kind made =>
      obtain ⟨⟨value, commit⟩, -⟩ := applyIncidentControlResolveAction_ok made
      exact ⟨0, .nothing commit.leaseFree⟩
  | transfer kind value made => exact ⟨1, transferRole_leaseWrite made⟩
  | resource kind lease node authorized target made =>
      obtain ⟨resource, status, receipt, now, -, -, events, -⟩ := applyResourceAction_ok made
      refine ⟨0, .nothing ?_⟩
      rw [events]
      apply LeaseFree.append
      · intro event mem
        rcases List.mem_cons.mp mem with rfl | mem
        · rfl
        · exact closureEvents_leaseFree s resource status now event mem
      · simp [LeaseFree, Event.writesLeases]
  | effect kind lease node authorized target made =>
      obtain ⟨effect, -, -, events, -⟩ := applyEffectAction_ok made
      refine ⟨0, .nothing ?_⟩
      simp [LeaseFree, events, Event.writesLeases]
  | action lease node done authorized target made events command =>
      rcases made.leases with free | ⟨renewed, bound, active, role, session⟩
      · refine ⟨0, .nothing ?_⟩
        rw [events]
        exact free.append (by simp [LeaseFree, Event.writesLeases])
      · rw [bound] at events
        refine ⟨0, .bind renewed _ events active (by simp [LeaseFree, Event.writesLeases]) ?_⟩
        intro held found _
        -- the lease before is the one of the same session that passed the check
        obtain ⟨-, valid, -⟩ := ActionRef.authorize_ok authorized
        obtain ⟨_, expires, own, -, same, parsed, -⟩ := holds_of_validLeaseAt valid
        obtain ⟨checked, live, -⟩ := validLeaseAt_ok valid
        rw [role, filed _ _ checked live, checked] at found
        obtain rfl := Option.some.inj found
        rw [checked] at own
        obtain rfl := Option.some.inj own
        exact ⟨expires, parsed, Or.inr session.symm⟩

/-- The lease events of every call. -/
theorem Call.leaseWrite
    {p : Platform} {s : State} {segments : List Segment} {env : Env} {call : Call} {b : Batch}
    {saga : Saga}
    (filed : LeasesFiled s)
    (h : call.start p s segments env = .ok (some (b, saga))) :
  ∃ i, LeaseWrite s (env.clock i) call b.events
  := by
  cases Call.start_ok h with
  | bindRole value b made => exact ⟨0, bindRole_leaseWrite made⟩
  | renewRole value b made => exact ⟨0, bindRole_leaseWrite (renewRole_ok made)⟩
  | transferRole value b made => exact ⟨0, transferRole_leaseWrite made⟩
  | releaseRole roleId sessionId key b made =>
      obtain ⟨bound, events, -, -⟩ := releaseRole_ok made
      exact ⟨0, .release roleId sessionId key _ events rfl bound⟩
  | apply call b made => exact ActionCall.apply_leaseWrite filed made
  | incident incidentId actorRole key change b made =>
      exact ⟨0, .nothing (IncidentCall.answer_ok made).1.leaseFree⟩
  | controlIncident incidentId actorRole value key b made =>
      exact ⟨0, .nothing (controlResolveIncident_ok made).1.leaseFree⟩
  | importGraph value b made =>
      obtain ⟨-, -, events, -, -⟩ := importGraphDefinition_ok made
      exact ⟨0, .nothing (by simp [LeaseFree, events, Event.writesLeases])⟩
  | changeGraph value b made =>
      obtain ⟨graph, impact, superseded, impact', -, events, -, -⟩ := applyGraphChange_ok made
      exact ⟨0, .nothing (by simp [LeaseFree, events, Event.writesLeases])⟩
  | autoSkip b made =>
      obtain ⟨nodeId, -, events, -⟩ := autoSkip_eq_some made
      exact ⟨0, .nothing (by simp [LeaseFree, events, Event.writesLeases])⟩
  | autoComplete b made =>
      obtain ⟨node, outcome, -, -, -, events, -⟩ := autoComplete_ok made
      exact ⟨0, .nothing (by simp [LeaseFree, events, Event.writesLeases])⟩
  | importHistory value b made =>
      obtain ⟨_, _, valid, admitted, events, -, -⟩ := importLifecycleHistory_ok made
      have leases := (validateLifecycleMigration_ok admitted).pristine.leases
      exact ⟨0, .import_ leases _ _ events⟩
  | reconcile value b effect made =>
      obtain ⟨-, -, events, -⟩ := reconcileAdmission_ok made
      exact ⟨0, .nothing (by simp [LeaseFree, events, Event.writesLeases])⟩

/-! ### Leases after a segment -/


/-- In every replayed state the active leases are filed under their roles. -/
theorem leasesFiled_of_reduceSegments
    {p : Platform} {projectId : String} {segments : List Segment} {s : State}
    (loaded : reduceSegments p projectId segments = .ok s) :
  LeasesFiled s
  := by
  apply reduceSegmentsFrom_invariant (P := LeasesFiled) _ _ _ loaded
  · intro sequence committedAt s event s' filed h roleId lease found active
    cases writes : event.writesLeases with
    | false =>
        rw [(State.applyEvent_frame h).leases writes] at found
        exact filed roleId lease found active
    | true =>
        cases event with
        | roleBound bound =>
            obtain rfl := Except.ok.inj h
            rw [Table.lookup_insert] at found
            split at found
            · obtain rfl := Option.some.inj found
              exact Eq.symm ‹_›
            · exact filed roleId lease found active
        | roleTransferred transfer =>
            obtain rfl := Except.ok.inj h
            rw [Table.lookup_insert] at found
            split at found
            · obtain rfl := Option.some.inj found
              exact Eq.symm ‹_›
            · exact filed roleId lease found active
        | roleReleased released releasedAt =>
            obtain rfl := Except.ok.inj h
            rw [State.releaseRole, Table.lookup_insert] at found
            split at found
            · obtain rfl := Option.some.inj found
              simp at active
            · exact filed roleId lease found active
        | _ => simp [Event.writesLeases] at writes
  · intro segment s filed
    exact filed
  · intro roleId lease found
    simp [State.new] at found

variable {p : Platform} {projectId : String} {allow : State → Call → Prop}

/-- The lease events of a created segment, on the state before it. -/
theorem Created.leaseWrite
    {w : World} {job : Job} {batch : Batch} {segment : Segment} {s : State} {env : Env}
    (created : Created p projectId allow w job batch segment s env) :
  ∃ now ≤ w.now, LeaseWrite s now job.call batch.events
  := by
  have grounded := created.grounded
  have computed := grounded.computed
  have pending := created.pending
  unfold Job.Computed at computed
  split at computed
  · rename_i base batch' stage
    obtain ⟨-, rfl⟩ : base = w.journal ∧ batch' = batch := by
      simpa [stage, Stage.pending] using pending
    obtain ⟨i, write⟩ := Call.leaseWrite (leasesFiled_of_reduceSegments grounded.loaded) computed.1
    exact ⟨env.clock i, grounded.past i, write⟩
  · rename_i base batch' stage
    obtain ⟨-, rfl⟩ : base = w.journal ∧ batch' = batch := by
      simpa [stage, Stage.pending] using pending
    obtain ⟨call, -, admission⟩ := computed
    obtain ⟨events, -⟩ := dispatchAdmission_ok admission
    exact ⟨w.now, le_refl _, .nothing (by simp [LeaseFree, events, Event.writesLeases])⟩
  · rename_i base batch' stage
    obtain ⟨-, rfl⟩ : base = w.journal ∧ batch' = batch := by
      simpa [stage, Stage.pending] using pending
    obtain ⟨receipt, observation⟩ := computed
    obtain ⟨effect, status, document, -, -, events, -⟩ := observeEffect_ok observation
    refine ⟨w.now, le_refl _, .nothing ?_⟩
    rw [events]
    intro event mem
    rcases List.mem_cons.mp mem with rfl | mem
    · rfl
    · exact observationEvents_leaseFree _ _ _ _ _ event mem
  · rename_i idle _ _
    unfold Stage.pending at pending
    split at pending <;> simp_all

namespace SampleRole

/-- A graph with one role and one task of it. -/
def graph : GraphDefinition where
  apiVersion := graphAPIVersion
  kind := graphKind
  metadata := { name := "sample" }
  spec :=
    { roles := [{ id := "dev", capabilities := [.nodeRun] }]
      nodes :=
        [{ id := "build", title := "build", kind := .task, role := "dev", objective := "build"
           outcomes := [⟨"done", .success⟩] }] }

/-- The calls: the graph is imported, and a session binds the role. -/
def calls : List Call :=
  [.importGraph { graph, idempotencyKey := "import", actorRole := "dev", requestDigest := "" },
   .bindRole { roleId := "dev", harness := "cli", sessionId := "first", ttl := 0
               idempotencyKey := "bind" }]

end SampleRole

end Dagrail
