import Mathlib.Logic.Function.Basic
import Mathlib.Logic.Relation
import Dagrail.Service.LifecycleImport

/-!
# Runs

Any number of processes call the service on one journal. A call loads the journal, computes a
batch on the state it replays to, and appends the batch later, when other calls may have appended
theirs. The calls about effects go on after their first append: they hold the lock of the effect
while they talk to its adapter. A call may stop for good at any point.
-/

namespace Dagrail

/-! ### Calls -/

/-- A mutation of the project. -/
inductive Call where
  | bindRole (value : BindInput)
  | renewRole (value : BindInput)
  | transferRole (value : TransferInput)
  | releaseRole (roleId sessionId idempotencyKey : String)
  | apply (call : ActionCall)
  | incident (incidentId actorRole idempotencyKey : String) (change : IncidentCall)
  | controlIncident (incidentId actorRole : String) (value : IncidentControlResolveInput)
      (idempotencyKey : String)
  | importGraph (value : GraphImportInput)
  | changeGraph (value : GraphChangeInput)
  | autoSkip
  | autoComplete
  | importHistory (value : LifecycleImportInput)
  | reconcile (value : ReconcileInput)

/-- What the later appends of a call about an effect are made of. -/
structure Saga where
  actionId : String := ""
  role : String := ""
  observeKey : String := ""
  requestDigest : String := ""

/-- What goes on after the first batch of an action. -/
def ActionCall.saga (p : Platform) (call : ActionCall) : Saga :=
  { actionId := call.ref.actionId p
    role := call.ref.roleId
    observeKey := call.idempotencyKey ++ "/observe"
    requestDigest := call.requestDigest p }

/-- What goes on after the admission of a reconciliation. -/
def ReconcileInput.saga (p : Platform) (value : ReconcileInput) (role : String) : Saga :=
  { actionId := value.actionId
    role
    observeKey := value.idempotencyKey
    requestDigest := value.requestDigest p }

/-- Is the action the preparation of an effect? -/
def ActionCall.prepares (call : ActionCall) : Bool :=
  call.ref.kind = "effect.prepare"

namespace Call

/-- The first batch of a call, computed on the loaded journal, with what goes on after it. There is
no batch when a stored command or the state itself answers the call. -/
def start (p : Platform) (s : State) (segments : List Segment) (env : Env) :
    Call → Fallible (Option (Batch × Saga))
  | .bindRole value => (Dagrail.bindRole p s segments env false value).map (·.map (·, {}))
  | .renewRole value => (Dagrail.renewRole p s segments env value).map (·.map (·, {}))
  | .transferRole value =>
      (Dagrail.transferRole p s segments (env.after 1) (env.clock 0) value "").map (·.map (·, {}))
  | .releaseRole roleId sessionId key =>
      (Dagrail.releaseRole p s env roleId sessionId key).map (·.map (·, {}))
  | .apply call => (call.apply p s segments env).map (·.map (·, call.saga p))
  | .incident incidentId actorRole key change =>
      (change.answer p s env incidentId actorRole key).map (·.map (·, {}))
  | .controlIncident incidentId actorRole value key =>
      (controlResolveIncident p s env incidentId actorRole value key).map (·.map (·, {}))
  | .importGraph value => (importGraphDefinition p s env value).map (·.map (·, {}))
  | .changeGraph value => (applyGraphChange p s segments env value).map (·.map (·, {}))
  | .autoSkip => .ok ((Dagrail.autoSkip s env).map (·, {}))
  | .autoComplete => (Dagrail.autoComplete s env).map (·.map (·, {}))
  | .importHistory value =>
      (importLifecycleHistory p s segments env value).map (·.map (·, {}))
  | .reconcile value => (reconcileAdmission p s env value).map (·.map fun admitted =>
      (admitted.1, value.saga p admitted.2.ownerRole))

/-- The effect whose lock a call holds from before it loads the journal until it is over. -/
def lock (p : Platform) (s : State) : Call → Option String
  | .apply call => if call.prepares then some (call.ref.actionId p) else none
  | .incident incidentId _ _ _ =>
      ((s.incidents.lookup incidentId).filter fun incident => incident.sourceType = "effect").map
        Incident.sourceId
  | .reconcile value => some value.actionId
  | _ => none

end Call

/-- The ways the first batch of a call comes about. -/
inductive Call.Started (p : Platform) (s : State) (segments : List Segment) (env : Env) :
    Call → Batch → Saga → Prop where
  | bindRole (value : BindInput) (b : Batch)
      (made : Dagrail.bindRole p s segments env false value = .ok (some b)) :
      Started p s segments env (.bindRole value) b {}
  | renewRole (value : BindInput) (b : Batch)
      (made : Dagrail.renewRole p s segments env value = .ok (some b)) :
      Started p s segments env (.renewRole value) b {}
  | transferRole (value : TransferInput) (b : Batch)
      (made : Dagrail.transferRole p s segments (env.after 1) (env.clock 0) value ""
        = .ok (some b)) :
      Started p s segments env (.transferRole value) b {}
  | releaseRole (roleId sessionId key : String) (b : Batch)
      (made : Dagrail.releaseRole p s env roleId sessionId key = .ok (some b)) :
      Started p s segments env (.releaseRole roleId sessionId key) b {}
  | apply (call : ActionCall) (b : Batch) (made : call.apply p s segments env = .ok (some b)) :
      Started p s segments env (.apply call) b (call.saga p)
  | incident (incidentId actorRole key : String) (change : IncidentCall) (b : Batch)
      (made : change.answer p s env incidentId actorRole key = .ok (some b)) :
      Started p s segments env (.incident incidentId actorRole key change) b {}
  | controlIncident (incidentId actorRole : String) (value : IncidentControlResolveInput)
      (key : String) (b : Batch)
      (made : controlResolveIncident p s env incidentId actorRole value key = .ok (some b)) :
      Started p s segments env (.controlIncident incidentId actorRole value key) b {}
  | importGraph (value : GraphImportInput) (b : Batch)
      (made : importGraphDefinition p s env value = .ok (some b)) :
      Started p s segments env (.importGraph value) b {}
  | changeGraph (value : GraphChangeInput) (b : Batch)
      (made : applyGraphChange p s segments env value = .ok (some b)) :
      Started p s segments env (.changeGraph value) b {}
  | autoSkip (b : Batch) (made : Dagrail.autoSkip s env = some b) :
      Started p s segments env .autoSkip b {}
  | autoComplete (b : Batch) (made : Dagrail.autoComplete s env = .ok (some b)) :
      Started p s segments env .autoComplete b {}
  | importHistory (value : LifecycleImportInput) (b : Batch)
      (made : importLifecycleHistory p s segments env value = .ok (some b)) :
      Started p s segments env (.importHistory value) b {}
  | reconcile (value : ReconcileInput) (b : Batch) (effect : EffectAction)
      (made : reconcileAdmission p s env value = .ok (some (b, effect))) :
      Started p s segments env (.reconcile value) b (value.saga p effect.ownerRole)

/-- The first batch of a call comes about in one of these ways. -/
theorem Call.start_ok
    {p : Platform} {s : State} {segments : List Segment} {env : Env} {call : Call} {b : Batch}
    {saga : Saga} (h : call.start p s segments env = .ok (some (b, saga))) :
  call.Started p s segments env b saga
  := by
  cases call with
  | reconcile value =>
      obtain ⟨⟨b', effect⟩, made, same⟩ := map_some_eq_ok h
      obtain ⟨rfl, rfl⟩ := Prod.mk.inj same
      exact .reconcile value b' effect made
  | autoSkip =>
      obtain ⟨b', made, same⟩ := map_some_eq_ok (x := .ok (Dagrail.autoSkip s env)) h
      obtain ⟨rfl, rfl⟩ := Prod.mk.inj same
      exact .autoSkip b' (Except.ok.inj made)
  | _ =>
      obtain ⟨b', made, same⟩ := map_some_eq_ok h
      obtain ⟨rfl, rfl⟩ := Prod.mk.inj same
      constructor
      exact made

/-! ### Jobs -/

/-- How far a call has come. A batch is kept with the journal it was computed on. -/
inductive Stage where
  /-- The first batch is to be appended. -/
  | starting (base : List Segment) (batch : Batch)
  /-- The preparation of an effect is in the journal; its dispatch is to be admitted. -/
  | prepared
  /-- The admission of a dispatch is to be appended. -/
  | admitting (base : List Segment) (batch : Batch)
  /-- The dispatch is admitted; the adapter is to be called. -/
  | admitted
  /-- The reconciliation is admitted; the adapter is to be asked. -/
  | reconciling
  /-- The adapter has answered. -/
  | answered (receipt : EffectReceipt)
  /-- The observation is to be appended. -/
  | observing (base : List Segment) (batch : Batch)

namespace Stage

/-- The batch that is to be appended, with the journal it was computed on. -/
def pending : Stage → Option (List Segment × Batch)
  | .starting base batch => some (base, batch)
  | .admitting base batch => some (base, batch)
  | .observing base batch => some (base, batch)
  | _ => none

end Stage

/-- A call in progress. -/
structure Job where
  call : Call
  lock : Option String
  saga : Saga
  stage : Stage

namespace Job

/-- The stage after an append, if the call goes on. A preparation goes on only when the append has
created its segment; an admission goes on also when it was found in the journal. -/
def next (job : Job) (created : Bool) : Option Stage :=
  match job.stage, job.call with
  | .starting _ _, .apply call => if call.prepares && created then some .prepared else none
  | .starting _ _, .reconcile _ => some .reconciling
  | .admitting _ _, _ => some .admitted
  | _, _ => none

/-- The call after an append. -/
def after (job : Job) (created : Bool) : Option Job :=
  (job.next created).map fun stage => { job with stage }

end Job

/-! ### Worlds -/

/-- A moment of a run: the journal, the clock, the calls in progress, and the effects whose adapter
was called for a dispatch. -/
structure World where
  journal : List Segment
  now : Instant
  jobs : Nat → Option Job
  dispatched : List String

namespace World

/-- The world before the first call. -/
def initial (journal : List Segment) (now : Instant) : World :=
  { journal, now, jobs := fun _ => none, dispatched := [] }

/-- Put a call at its place, or take it away. -/
def setJob (w : World) (i : Nat) (job : Option Job) : World :=
  { w with jobs := Function.update w.jobs i job }

/-- Does no call in progress hold the lock? -/
def Free (w : World) (lock : Option String) : Prop :=
  ∀ i job, w.jobs i = some job → ∀ a, lock = some a → job.lock ≠ some a

end World

/-- The clock readings lie between two instants and never go back. -/
structure Env.Within (env : Env) (from_ until_ : Instant) : Prop where
  lower : ∀ i, from_ ≤ env.clock i
  upper : ∀ i, env.clock i ≤ until_
  mono : ∀ i j, i ≤ j → env.clock i ≤ env.clock j

/-- Does a record of the state have the identifier? -/
def State.names (s : State) (id : String) : Bool :=
  s.attempts.has id || s.checkpoints.has id || s.resources.has id

/-- The identifiers are new ones: none of them is used in the state, and no two are the same. -/
structure Env.Fresh (env : Env) (s : State) : Prop where
  unused : ∀ i, s.names (env.newID i) = false
  distinct : Function.Injective env.newID

variable (p : Platform) (projectId : String) (allow : State → Call → Prop)

/-- The steps of a run. The calls that are started are those that are allowed on the state they
load. -/
inductive Step : World → World → Prop where
  /-- Time passes. -/
  | tick (w : World) (now : Instant) (later : w.now ≤ now) :
      Step w { w with now }
  /-- A call loads the journal and computes its first batch. -/
  | start (w : World) (now : Instant) (i : Nat) (call : Call) (s : State) (env : Env)
      (batch : Batch) (saga : Saga) (vacant : w.jobs i = none)
      (loaded : reduceSegments p projectId w.journal = .ok s) (allowed : allow s call)
      (within : env.Within w.now now) (fresh : env.Fresh s)
      (computed : call.start p s w.journal env = .ok (some (batch, saga)))
      (free : w.Free (call.lock p s)) :
      Step w ({ w with now }.setJob i (some
        { call, lock := call.lock p s, saga, stage := .starting w.journal batch }))
  /-- A batch is appended in a new segment. -/
  | create (w : World) (i : Nat) (job : Job) (base : List Segment) (batch : Batch)
      (stored segment : Segment) (running : w.jobs i = some job)
      (pending : job.stage.pending = some (base, batch))
      (appended : appendOnce p projectId w.journal batch (headHashOf base)
        = .ok (stored, some segment)) :
      Step w ({ w with journal := w.journal ++ [segment] }.setJob i (job.after true))
  /-- A batch is answered by the segment that has its key. -/
  | answer (w : World) (i : Nat) (job : Job) (base : List Segment) (batch : Batch)
      (stored : Segment) (running : w.jobs i = some job)
      (pending : job.stage.pending = some (base, batch))
      (appended : appendOnce p projectId w.journal batch (headHashOf base) = .ok (stored, none)) :
      Step w (w.setJob i (job.after false))
  /-- The journal is loaded again and the dispatch of a prepared effect is admitted. -/
  | beginDispatch (w : World) (now : Instant) (i : Nat) (job : Job) (call : ActionCall) (s : State)
      (env : Env) (batch : Batch) (running : w.jobs i = some job) (applies : job.call = .apply call)
      (prepared : job.stage = .prepared)
      (loaded : reduceSegments p projectId w.journal = .ok s) (within : env.Within w.now now)
      (computed : dispatchAdmission p s env call.ref call.idempotencyKey (call.requestDigest p)
        = .ok batch) :
      Step w ({ w with now }.setJob i (some { job with stage := .admitting w.journal batch }))
  /-- The adapter is called for a dispatch. Whatever it does, a receipt comes of it. -/
  | dispatch (w : World) (i : Nat) (job : Job) (answer : Except String EffectReceipt)
      (running : w.jobs i = some job) (admitted : job.stage = .admitted) :
      Step w ({ w with dispatched := job.saga.actionId :: w.dispatched }.setJob i (some
        { job with stage := .answered (dispatchReceipt answer) }))
  /-- The adapter is asked about a dispatch. -/
  | reconcile (w : World) (i : Nat) (job : Job) (receipt : EffectReceipt)
      (running : w.jobs i = some job) (begun : job.stage = .reconciling) :
      Step w (w.setJob i (some { job with stage := .answered receipt }))
  /-- The journal is loaded again and the answer of the adapter becomes an observation. -/
  | observe (w : World) (now : Instant) (i : Nat) (job : Job) (receipt : EffectReceipt) (s : State)
      (env : Env) (batch : Batch) (running : w.jobs i = some job)
      (answered : job.stage = .answered receipt)
      (loaded : reduceSegments p projectId w.journal = .ok s) (within : env.Within w.now now)
      (computed : observeEffect p s env job.saga.actionId job.saga.role receipt
        job.saga.observeKey job.saga.requestDigest = .ok batch) :
      Step w ({ w with now }.setJob i (some { job with stage := .observing w.journal batch }))
  /-- A call stops: it has failed, or its process has crashed. Its lock is free again. -/
  | stop (w : World) (i : Nat) : Step w (w.setJob i none)

/-- A journal without commands: an empty one, or one with the fence that establishes the
authority. -/
inductive Initialised : List Segment → Prop where
  | empty : Initialised []
  | established (e : AuthorityEstablishment) (segment : Segment) (s : State)
      (fence : segment.events = [.authorityEstablished e])
      (hashed : segment.segmentHash = p.hash.segmentHash segment)
      (accepted : reduceSegments p projectId [segment] = .ok s) :
      Initialised [segment]

/-- The worlds of the runs from an initialised project. -/
def Reachable (w : World) : Prop :=
  ∃ journal now, Initialised p projectId journal ∧
    Relation.ReflTransGen (Step p projectId allow) (World.initial journal now) w

end Dagrail
