import Dagrail.Service.System

/-!
# Facts about all runs

The journal only grows. A batch that is appended in a new segment was computed on the very journal
it extends, since the head is still the one it was computed on and no two segments have the same
hash.
-/

namespace Dagrail

/-! ### Segments and their hashes -/

/-- Every segment of the journal has a hash. -/
def Hashed (journal : List Segment) : Prop :=
  ∀ segment ∈ journal, segment.segmentHash ≠ ""

/-- No two segments of the journal have the same hash. -/
def CollisionFree (journal : List Segment) : Prop :=
  (journal.map Segment.segmentHash).Nodup

/-- The segments before have no more collisions. -/
theorem CollisionFree.of_prefix
    {journal journal' : List Segment} (free : CollisionFree journal') (h : journal <+: journal') :
  CollisionFree journal
  := by
  unfold CollisionFree at free ⊢
  exact List.Nodup.sublist (h.sublist.map _) free

/-- The head hash of a journal that ends in a segment. -/
@[simp]
theorem headHashOf_concat
    (front : List Segment) (last : Segment) :
  headHashOf (front ++ [last]) = last.segmentHash
  := by
  simp [headHashOf]

/-- A prefix of a journal with the same head is the whole journal. -/
theorem eq_of_headHash_eq
    {base journal : List Segment} (earlier : base <+: journal) (hashed : Hashed journal)
    (free : CollisionFree journal) (head : headHashOf journal = headHashOf base) :
  base = journal
  := by
  obtain ⟨rest, rfl⟩ := earlier
  rcases rest.eq_nil_or_concat with rfl | ⟨rest, last, rfl⟩
  · simp
  · exfalso
    rw [List.concat_eq_append, ← List.append_assoc] at hashed free head
    rw [headHashOf_concat] at head
    rcases base.eq_nil_or_concat with rfl | ⟨front, first, rfl⟩
    · -- the head of the empty journal is the empty text
      exact hashed last (by simp) (by simpa [headHashOf] using head)
    · -- the two heads are different segments with one hash
      rw [List.concat_eq_append] at head free
      rw [headHashOf_concat] at head
      unfold CollisionFree at free
      simp only [List.map_append, List.map_cons, List.map_nil, List.append_assoc] at free
      have apart := (List.nodup_append.mp free).2.1
      simp [head] at apart

/-- A new segment has a hash. -/
theorem Batch.segment_segmentHash_ne_empty
    {p : Platform} {projectId head : String} {sequence : Nat} (b : Batch) :
  (b.segment p projectId head sequence).segmentHash ≠ ""
  := Hex.text_ne_empty _

/-! ### Growth of the journal -/

variable {p : Platform} {projectId : String} {allow : State → Call → Prop}

/-- A step keeps the journal or appends one segment to it. -/
theorem Step.journal
    {w w' : World} (step : Step p projectId allow w w') :
  w'.journal = w.journal ∨ ∃ segment, w'.journal = w.journal ++ [segment]
  := by
  cases step with
  | create i job base batch stored segment => exact Or.inr ⟨segment, rfl⟩
  | _ => exact Or.inl rfl

/-- A step extends the journal. -/
theorem Step.journal_prefix
    {w w' : World} (step : Step p projectId allow w w') :
  w.journal <+: w'.journal
  := by
  rcases step.journal with same | ⟨segment, longer⟩
  · exact same ▸ List.prefix_rfl
  · rw [longer]
    apply List.prefix_append

/-- The clock never goes back. -/
theorem Step.now_le
    {w w' : World} (step : Step p projectId allow w w') :
  w.now ≤ w'.now
  := by
  cases step with
  | tick now later => exact later
  | start now i call s env batch saga vacant loaded allowed within =>
      exact (within.lower 0).trans (within.upper 0)
  | beginDispatch now i job call s env batch running applies prepared loaded within =>
      exact (within.lower 0).trans (within.upper 0)
  | observe now i job receipt s env batch running answered loaded within =>
      exact (within.lower 0).trans (within.upper 0)
  | _ => exact le_refl _

/-- What holds at the start of every run and is kept by its steps holds of every reachable world. -/
theorem Reachable.induction
    {P : World → Prop}
    (start : ∀ journal now, Initialised p projectId journal → P (World.initial journal now))
    (keep : ∀ w w', Reachable p projectId allow w → Step p projectId allow w w' → P w → P w')
    {w : World} (reachable : Reachable p projectId allow w) :
  P w
  := by
  obtain ⟨journal, now, initialised, run⟩ := reachable
  induction run with
  | refl => exact start journal now initialised
  | tail before step ih => exact keep _ _ ⟨journal, now, initialised, before⟩ step ih

/-- A step leads from a reachable world to a reachable one. -/
theorem Reachable.step
    {w w' : World} (reachable : Reachable p projectId allow w)
    (step : Step p projectId allow w w') :
  Reachable p projectId allow w'
  := by
  obtain ⟨journal, now, initialised, run⟩ := reachable
  exact ⟨journal, now, initialised, run.tail step⟩

/-- Every segment of a reachable journal has a hash. -/
theorem Reachable.hashed
    {w : World} (reachable : Reachable p projectId allow w) :
  Hashed w.journal
  := by
  refine Reachable.induction (P := fun w => Hashed w.journal) ?_ ?_ reachable
  · rintro journal now (_ | ⟨e, segment, s, fence, hashed, accepted⟩) x mem
    · simp [World.initial] at mem
    · obtain rfl : x = segment := by simpa [World.initial] using mem
      rw [hashed]
      exact Hex.text_ne_empty _
  · intro w w' _ step before x mem
    cases step with
    | create i job base batch stored segment running pending appended =>
        simp only [World.setJob, List.mem_append, List.mem_singleton] at mem
        rcases mem with mem | rfl
        · exact before x mem
        · obtain ⟨-, -, -, rfl⟩ := appendOnce_created appended
          exact batch.segment_segmentHash_ne_empty
    | _ => exact before x mem

/-- The segments of the journal are in the order of their sequence numbers. -/
def Ordered (journal : List Segment) : Prop :=
  journal.Pairwise fun a b => a.sequence < b.sequence

/-- No segment of an ordered journal is behind the last one. -/
theorem Ordered.sequence_le
    {journal : List Segment} (ordered : Ordered journal) {segment : Segment}
    (mem : segment ∈ journal) :
  segment.sequence ≤ headSequenceOf journal
  := by
  rcases journal.eq_nil_or_concat with rfl | ⟨front, last, rfl⟩
  · simp at mem
  · rw [List.concat_eq_append] at ordered mem ⊢
    rcases List.mem_append.mp mem with mem | mem
    · have before := (List.pairwise_append.mp ordered).2.2 segment mem last (by simp)
      simpa [headSequenceOf] using before.le
    · obtain rfl := List.mem_singleton.mp mem
      simp [headSequenceOf]

/-- Every reachable journal is ordered. -/
theorem Reachable.ordered
    {w : World} (reachable : Reachable p projectId allow w) :
  Ordered w.journal
  := by
  refine Reachable.induction (P := fun w => Ordered w.journal) ?_ ?_ reachable
  · rintro journal now (_ | ⟨e, segment, s, fence, hashed, accepted⟩)
    · exact List.Pairwise.nil
    · exact List.pairwise_singleton _ _
  · intro w w' _ step before
    cases step with
    | create i job base batch stored segment running pending appended =>
        obtain ⟨-, -, -, rfl⟩ := appendOnce_created appended
        apply List.pairwise_append.mpr
        refine ⟨before, List.pairwise_singleton _ _, ?_⟩
        intro a mem b mem'
        obtain rfl := List.mem_singleton.mp mem'
        exact Nat.lt_succ_of_le (before.sequence_le mem)
    | _ => exact before

/-! ### Where batches come from -/

/-- The pending batch of a call in progress was computed on the given state. -/
def Job.Computed (p : Platform) (allow : State → Call → Prop) (s : State) (env : Env) (job : Job) :
    Prop :=
  match job.stage with
  | .starting base batch =>
      job.call.start p s base env = .ok (some (batch, job.saga)) ∧ allow s job.call ∧ env.Fresh s
        ∧ job.lock = job.call.lock p s
  | .admitting _ batch =>
      ∃ call, job.call = .apply call ∧
        dispatchAdmission p s env call.ref call.idempotencyKey (call.requestDigest p) = .ok batch
  | .observing _ batch =>
      ∃ receipt, observeEffect p s env job.saga.actionId job.saga.role receipt
        job.saga.observeKey job.saga.requestDigest = .ok batch
  | _ => True

/-- The pending batch of a call in progress was computed on a part of the journal, with readings of
the clock that are past. -/
structure Job.Grounded (p : Platform) (projectId : String) (allow : State → Call → Prop)
    (w : World) (job : Job) (base : List Segment) (s : State) (env : Env) : Prop where
  earlier : base <+: w.journal
  loaded : reduceSegments p projectId base = .ok s
  past : ∀ i, env.clock i ≤ w.now
  mono : ∀ i j, i ≤ j → env.clock i ≤ env.clock j
  computed : job.Computed p allow s env

/-- A batch that was computed earlier stays so. -/
theorem Job.Grounded.later
    {w w' : World} {job : Job} {base : List Segment} {s : State} {env : Env}
    (grounded : job.Grounded p projectId allow w base s env) (longer : w.journal <+: w'.journal)
    (now : w.now ≤ w'.now) :
  job.Grounded p projectId allow w' base s env
  :=
  ⟨grounded.earlier.trans longer, grounded.loaded, fun i => (grounded.past i).trans now,
    grounded.mono, grounded.computed⟩

/-- Every pending batch is grounded. -/
def World.Grounded (p : Platform) (projectId : String) (allow : State → Call → Prop) (w : World) :
    Prop :=
  ∀ i job base batch, w.jobs i = some job → job.stage.pending = some (base, batch) →
    ∃ s env, job.Grounded p projectId allow w base s env

/-- The job after one place of the world was written. -/
theorem World.jobs_setJob
    {w : World} {i j : Nat} {new : Option Job} {job : Job}
    (running : (w.setJob i new).jobs j = some job) :
  (j = i ∧ new = some job) ∨ (j ≠ i ∧ w.jobs j = some job)
  := by
  by_cases same : j = i
  · subst same
    exact Or.inl ⟨rfl, by simpa [World.setJob] using running⟩
  · exact Or.inr ⟨same, by simpa [World.setJob, Function.update_of_ne same] using running⟩

/-- No batch is pending right after an append. -/
theorem Job.pending_after
    {job job' : Job} {created : Bool} (h : job.after created = some job') :
  job'.stage.pending = none
  := by
  simp only [Job.after, Option.map_eq_some_iff] at h
  obtain ⟨stage, next, rfl⟩ := h
  unfold Job.next at next
  split at next
  · split at next <;> simp_all [Stage.pending]
    obtain rfl := next
    rfl
  · obtain rfl : Stage.reconciling = stage := by simpa using next
    rfl
  · obtain rfl : Stage.admitted = stage := by simpa using next
    rfl
  · simp at next

/-- Every pending batch of a reachable world was computed on a part of its journal. -/
theorem Reachable.grounded
    {w : World} (reachable : Reachable p projectId allow w) :
  w.Grounded p projectId allow
  := by
  refine Reachable.induction (P := fun w => w.Grounded p projectId allow) ?_ ?_ reachable
  · intro journal now _ i job base batch running
    simp [World.initial] at running
  · intro w w' _ step before
    have longer := step.journal_prefix
    have now := step.now_le
    -- a job that a step leaves as it is stays grounded
    have old : ∀ j job base batch, w.jobs j = some job →
        job.stage.pending = some (base, batch) → ∃ s env,
          job.Grounded p projectId allow w' base s env := by
      intro j job base batch running pending
      obtain ⟨s, env, grounded⟩ := before j job base batch running pending
      exact ⟨s, env, grounded.later longer now⟩
    intro j job base batch running pending
    cases step with
    | tick => exact old j job base batch running pending
    | start now i call s env batch' saga vacant loaded allowed within fresh computed =>
        rcases World.jobs_setJob running with ⟨rfl, new⟩ | ⟨_, running⟩
        · obtain rfl := Option.some.inj new
          obtain ⟨rfl, rfl⟩ : w.journal = base ∧ batch' = batch := by
            simpa [Stage.pending] using pending
          exact ⟨s, env, List.prefix_refl _, loaded, within.upper, within.mono,
            computed, allowed, fresh, rfl⟩
        · exact old j job base batch running pending
    | create i job' base' batch' stored segment running' pending' appended =>
        rcases World.jobs_setJob running with ⟨rfl, new⟩ | ⟨_, running⟩
        · simp [Job.pending_after new] at pending
        · exact old j job base batch running pending
    | answer i job' base' batch' stored running' pending' appended =>
        rcases World.jobs_setJob running with ⟨rfl, new⟩ | ⟨_, running⟩
        · simp [Job.pending_after new] at pending
        · exact old j job base batch running pending
    | beginDispatch now i job' call s env batch' running' applies prepared loaded within computed =>
        rcases World.jobs_setJob running with ⟨rfl, new⟩ | ⟨_, running⟩
        · obtain rfl := Option.some.inj new
          obtain ⟨rfl, rfl⟩ : w.journal = base ∧ batch' = batch := by
            simpa [Stage.pending] using pending
          exact ⟨s, env, List.prefix_refl _, loaded, within.upper, within.mono,
            call, applies, computed⟩
        · exact old j job base batch running pending
    | dispatch i job' answer running' admitted =>
        rcases World.jobs_setJob running with ⟨rfl, new⟩ | ⟨_, running⟩
        · obtain rfl := Option.some.inj new
          simp [Stage.pending] at pending
        · exact old j job base batch running pending
    | reconcile i job' receipt running' begun =>
        rcases World.jobs_setJob running with ⟨rfl, new⟩ | ⟨_, running⟩
        · obtain rfl := Option.some.inj new
          simp [Stage.pending] at pending
        · exact old j job base batch running pending
    | observe now i job' receipt s env batch' running' answered loaded within computed =>
        rcases World.jobs_setJob running with ⟨rfl, new⟩ | ⟨_, running⟩
        · obtain rfl := Option.some.inj new
          obtain ⟨rfl, rfl⟩ : w.journal = base ∧ batch' = batch := by
            simpa [Stage.pending] using pending
          exact ⟨s, env, List.prefix_refl _, loaded, within.upper, within.mono,
            receipt, computed⟩
        · exact old j job base batch running pending
    | stop i =>
        rcases World.jobs_setJob running with ⟨rfl, new⟩ | ⟨_, running⟩
        · simp at new
        · exact old j job base batch running pending

/-! ### Appends on the loaded journal -/

/-- What is known when a batch becomes a segment: the journal replays to the state the batch was
computed on, and the key of the batch is new there. -/
structure Created (p : Platform) (projectId : String) (allow : State → Call → Prop) (w : World)
    (job : Job) (batch : Batch) (segment : Segment) (s : State) (env : Env) : Prop where
  pending : job.stage.pending = some (w.journal, batch)
  grounded : job.Grounded p projectId allow w w.journal s env
  unknown : segmentForKey w.journal batch.command.idempotencyKey = none
  unretired : ∀ x ∈ w.journal, ∀ event ∈ x.events, event.isRetirement = false
  segment_eq : segment = batch.segment p projectId s.headHash (s.headSequence + 1)

/-- A batch that becomes a segment was computed on the journal it extends. -/
theorem Reachable.created
    {w : World} (reachable : Reachable p projectId allow w) (free : CollisionFree w.journal)
    {i : Nat} {job : Job} {base : List Segment} {batch : Batch} {stored segment : Segment}
    (running : w.jobs i = some job) (pending : job.stage.pending = some (base, batch))
    (appended : appendOnce p projectId w.journal batch (headHashOf base)
      = .ok (stored, some segment)) :
  ∃ s env, Created p projectId allow w job batch segment s env
  := by
  obtain ⟨unretired, unknown, head, segment_eq⟩ := appendOnce_created appended
  obtain ⟨s, env, grounded⟩ := reachable.grounded i job base batch running pending
  obtain rfl := eq_of_headHash_eq grounded.earlier reachable.hashed free head
  have describes := describes_of_reduceSegments grounded.loaded
  refine ⟨s, env, pending, grounded, unknown, unretired, ?_⟩
  rw [segment_eq, describes.headHash, describes.headSequence]

/-- Every segment of a reachable journal is the fence that establishes the authority, or the batch
of some job made it in a reachable world with the journal before. -/
theorem Reachable.origin
    {w : World} (reachable : Reachable p projectId allow w) (free : CollisionFree w.journal)
    {front rest : List Segment} {segment : Segment} (split : w.journal = front ++ segment :: rest) :
  (front = [] ∧ ∃ e, segment.events = [.authorityEstablished e]) ∨
    ∃ w₀ job batch s env, Reachable p projectId allow w₀ ∧ w₀.journal = front ∧
      Created p projectId allow w₀ job batch segment s env
  := by
  refine Reachable.induction (P := fun w => ∀ front segment rest, CollisionFree w.journal →
    w.journal = front ++ segment :: rest →
    (front = [] ∧ ∃ e, segment.events = [.authorityEstablished e]) ∨
    ∃ w₀ job batch s env, Reachable p projectId allow w₀ ∧ w₀.journal = front ∧
      Created p projectId allow w₀ job batch segment s env) ?_ ?_ reachable _ _ _ free split
  · rintro journal now (_ | ⟨e, first, s, fence, hashed, accepted⟩) front segment rest _ split
    · simp [World.initial] at split
    · obtain ⟨rfl, rfl, rfl⟩ : front = [] ∧ segment = first ∧ rest = [] := by
        simpa [World.initial, List.cons_eq_append_iff] using split
      exact Or.inl ⟨rfl, e, fence⟩
  · intro w w' reached step before front segment rest free split
    cases step with
    | create i job base batch stored created running pending appended =>
        simp only [World.setJob] at split free
        have free' : CollisionFree w.journal := free.of_prefix (List.prefix_append _ _)
        rcases rest.eq_nil_or_concat with rfl | ⟨rest, last, rfl⟩
        · obtain ⟨rfl, same⟩ := List.append_inj' split rfl
          obtain rfl := List.singleton_inj.mp same
          obtain ⟨s, env, made⟩ := reached.created free' running pending appended
          exact .inr ⟨w, job, batch, s, env, reached, rfl, made⟩
        · rw [List.concat_eq_append, ← List.cons_append, ← List.append_assoc] at split
          exact before front segment rest free' (List.append_inj' split rfl).1
    | _ => exact before front segment rest free split

/-- A batch without fences extends the state it was computed on. -/
theorem Created.replay
    {w : World} {job : Job} {batch : Batch} {segment : Segment} {s : State} {env : Env}
    (created : Created p projectId allow w job batch segment s env)
    (plain : ∀ event ∈ batch.events, event.isFence = false) :
  reduceSegments p projectId (w.journal ++ [segment]) = s.applySegment p segment
  := by
  refine reduceSegments_concat created.grounded.loaded created.unretired ?_
  rw [created.segment_eq]
  exact plain

/-- A run leads from a reachable world to reachable ones. -/
theorem Reachable.run
    {w w' : World} (reachable : Reachable p projectId allow w)
    (run : Relation.ReflTransGen (Step p projectId allow) w w') :
  Reachable p projectId allow w'
  := by
  induction run with
  | refl => exact reachable
  | tail _ step ih => exact ih.step step

/-! ### One call after the other -/

/-- A hash text that ends in the last decimal digit of the number. -/
def numberedText (n : Nat) : String :=
  String.ofList (List.replicate 63 '0' ++ [Nat.digitChar (n % 10)])

/-- The numbered texts are hash texts. -/
theorem validBareHash_numberedText
    (n : Nat) :
  validBareHash (numberedText n) = true
  := by
  have digits : ∀ k < 10, validBareHash (numberedText k) = true := by decide
  have same : numberedText (n % 10) = numberedText n := by simp [numberedText]
  rw [← same]
  exact digits _ (Nat.mod_lt n (by decide))

/-- The plain platform, with hashes that tell the first ten segments of a journal apart. -/
def Platform.numbered : Platform :=
  { Platform.plain with
    hash
      | .segment segment => ⟨numberedText segment.sequence, validBareHash_numberedText _⟩
      | _ => Hex.zero }

/-- Does a call end with its first append? -/
def Call.single : Call → Bool
  | .apply call => !call.prepares
  | .reconcile _ => false
  | _ => true

/-- Surroundings in which the clock stands still. -/
def Env.still (now : Instant) : Env where
  clock _ := now
  newID i := String.ofList (List.replicate i '0')

/-- Commit calls one after the other while the clock stands still, on a project without attempts.
Every call has to end with a new segment. -/
def commitCalls (p : Platform) (projectId : String) (now : Instant) :
    List Segment → List Call → Fallible (List Segment)
  | journal, [] => .ok journal
  | journal, call :: rest => do
      let s ← reduceSegments p projectId journal
      check (s.attempts.entries.isEmpty && s.checkpoints.entries.isEmpty
        && s.resources.entries.isEmpty) "the project has attempts"
      check call.single "the call has further appends"
      let answer ← call.start p s journal (.still now)
      let (batch, _) ← need answer "the call has no batch"
      let (_, created) ← appendOnce p projectId journal batch (headHashOf journal)
      let segment ← need created "the batch is known"
      commitCalls p projectId now (journal ++ [segment]) rest

/-- The identifiers of still surroundings are new to a state without attempts. -/
theorem Env.still_fresh
    {s : State} {now : Instant} (attempts : s.attempts.entries.isEmpty = true)
    (checkpoints : s.checkpoints.entries.isEmpty = true)
    (resources : s.resources.entries.isEmpty = true) :
  (Env.still now).Fresh s
  := by
  rw [List.isEmpty_iff] at attempts checkpoints resources
  constructor
  · intro i
    simp [State.names, Table.has, AList.lookup, attempts, checkpoints, resources]
  · intro i j same
    have lengths := congrArg (fun x : String => x.toList.length) same
    simpa [Env.still] using lengths

/-- The journal that calls committed one after the other leave is reachable. -/
theorem reachable_of_commitCalls
    {now : Instant} {journal journal' : List Segment} {calls : List Call}
    (reachable : Reachable p projectId allow (World.initial journal now))
    (allowed : ∀ s, ∀ call ∈ calls, allow s call)
    (committed : commitCalls p projectId now journal calls = .ok journal') :
  Reachable p projectId allow (World.initial journal' now)
  := by
  induction calls generalizing journal with
  | nil =>
      obtain rfl := Except.ok.inj committed
      exact reachable
  | cons call rest ih =>
      simp only [commitCalls, bind_eq_ok, check_eq_ok, need_eq_ok, Bool.and_eq_true] at committed
      obtain ⟨s, loaded, _, ⟨⟨attempts, checkpoints⟩, resources⟩, _, single, answer, started,
        ⟨batch, saga⟩, rfl, ⟨stored, created⟩, appended, segment, rfl, committed⟩ := committed
      refine ih ?_ (fun s call mem => allowed s call (List.mem_cons_of_mem _ mem)) committed
      have within : (Env.still now).Within now now := ⟨fun _ => le_refl _, fun _ => le_refl _,
        fun _ _ _ => le_refl _⟩
      let job : Job := { call, lock := call.lock p s, saga, stage := .starting journal batch }
      let started_ := (World.initial journal now).setJob 0 (some job)
      have first : Step p projectId allow (World.initial journal now) started_ :=
        .start _ now 0 call s (.still now) batch saga rfl loaded (allowed s call (by simp)) within
          (Env.still_fresh attempts checkpoints resources) started
          (fun i job running => by simp [World.initial] at running)
      have second : Step p projectId allow started_
          (World.setJob { started_ with journal := journal ++ [segment] } 0 (job.after true)) :=
        .create started_ 0 job journal batch stored segment
          (by simp [started_, World.setJob]) rfl appended
      have finished : job.after true = none := by
        cases call <;> simp_all [job, Job.after, Job.next, Call.single]
      have idle : World.setJob { started_ with journal := journal ++ [segment] } 0 none =
          World.initial (journal ++ [segment]) now := by
        simp only [started_, World.setJob, World.initial, World.mk.injEq, true_and, and_true]
        funext i
        by_cases same : i = 0 <;> simp [Function.update, same]
      rw [finished, idle] at second
      exact (reachable.step first).step second

/-! ### Calls that stop after their first append -/

/-- Surroundings in which the clock stands still and every identifier is longer than the bound. -/
def Env.beyond (bound : Nat) (now : Instant) : Env where
  clock _ := now
  newID i := String.ofList (List.replicate (bound + 1 + i) '0')

/-- Are all identifiers of the attempts, checkpoints and resources of the state within the bound? -/
def State.namesWithin (s : State) (bound : Nat) : Bool :=
  (s.attempts.entries.all fun e => e.1.length ≤ bound)
    && (s.checkpoints.entries.all fun e => e.1.length ≤ bound)
    && s.resources.entries.all fun e => e.1.length ≤ bound

/-- Commit calls one after the other while the clock stands still. Every call comes with a bound
its identifiers go beyond, has to append a new segment, and stops after that. -/
def commitEach (p : Platform) (projectId : String) (now : Instant) :
    List Segment → List (Nat × Call) → Fallible (List Segment)
  | journal, [] => .ok journal
  | journal, (bound, call) :: rest => do
      let s ← reduceSegments p projectId journal
      check (s.namesWithin bound) "an identifier is beyond the bound"
      let answer ← call.start p s journal (.beyond bound now)
      let (batch, _) ← need answer "the call has no batch"
      let (_, created) ← appendOnce p projectId journal batch (headHashOf journal)
      let segment ← need created "the batch is known"
      commitEach p projectId now (journal ++ [segment]) rest

/-- Keys within a bound leave the identifiers beyond it free. -/
theorem Env.beyond_unused
    {β : Type} {t : Table β} {bound : Nat} {now : Instant}
    (within : (t.entries.all fun e => e.1.length ≤ bound) = true) (i : Nat) :
  t.has ((Env.beyond bound now).newID i) = false
  := by
  rw [Bool.eq_false_iff]
  intro known
  obtain ⟨b, found⟩ := Table.has_iff.mp known
  rw [← Option.mem_def, AList.mem_lookup_iff] at found
  rw [List.all_eq_true] at within
  have short := within _ found
  simp only [Env.beyond, String.length_ofList, List.length_replicate, decide_eq_true_eq] at short
  omega

/-- The identifiers beyond the bound are new. -/
theorem Env.beyond_fresh
    {s : State} {bound : Nat} {now : Instant} (within : s.namesWithin bound = true) :
  (Env.beyond bound now).Fresh s
  := by
  simp only [State.namesWithin, Bool.and_eq_true] at within
  obtain ⟨⟨attempts, checkpoints⟩, resources⟩ := within
  constructor
  · intro i
    simp only [State.names, Env.beyond_unused attempts, Env.beyond_unused checkpoints,
      Env.beyond_unused resources, Bool.or_self]
  · intro i j same
    have lengths := congrArg (fun x : String => x.toList.length) same
    simpa [Env.beyond] using lengths

/-- A calm step appends something and no effect waits for its dispatch before it, or it appends
nothing and every call either begins with it or ends. -/
def Calm (w w' : World) : Prop :=
  (w'.journal ≠ w.journal ∧ ∀ i job, w.jobs i = some job → job.stage ≠ .prepared) ∨
    (w'.journal = w.journal ∧ ∀ i, w.jobs i = none ∨ w'.jobs i = none)

/-- The first append of a call of an idle world. The steps of it stand in a relation that every calm
step does. -/
theorem run_commit
    {R : World → World → Prop} (keep : ∀ w w', Step p projectId allow w w' → Calm w w' → R w w')
    {journal : List Segment} {now : Instant} {call : Call} {s : State} {env : Env} {batch : Batch}
    {saga : Saga} {stored segment : Segment} (loaded : reduceSegments p projectId journal = .ok s)
    (allowed : allow s call) (within : env.Within now now) (fresh : env.Fresh s)
    (computed : call.start p s journal env = .ok (some (batch, saga)))
    (appended : appendOnce p projectId journal batch (headHashOf journal) = .ok (stored, some segment)) :
  Relation.ReflTransGen R (World.initial journal now)
    ((World.initial (journal ++ [segment]) now).setJob 0
      (Job.after { call, lock := call.lock p s, saga, stage := .starting journal batch } true))
  := by
  let job : Job := { call, lock := call.lock p s, saga, stage := .starting journal batch }
  have first : Step p projectId allow (World.initial journal now)
      ((World.initial journal now).setJob 0 (some job)) :=
    .start _ now 0 call s env batch saga rfl loaded allowed within fresh computed
      (fun i job running => by simp [World.initial] at running)
  have second : Step p projectId allow _ _ :=
    .create ((World.initial journal now).setJob 0 (some job)) 0 job journal batch stored segment
      (by simp [World.setJob]) rfl appended
  have same : World.setJob
      { (World.initial journal now).setJob 0 (some job) with journal := journal ++ [segment] } 0
        (job.after true) = (World.initial (journal ++ [segment]) now).setJob 0 (job.after true) := by
    simp [World.setJob, World.initial, Function.update_idem]
  refine (Relation.ReflTransGen.single (keep _ _ first (.inr ⟨rfl, fun _ => .inl rfl⟩))).tail ?_
  refine keep _ _ (same ▸ second) (.inl ⟨?_, fun i job' running => ?_⟩)
  · simp [World.setJob, World.initial]
  rcases World.jobs_setJob running with ⟨-, made⟩ | ⟨-, there⟩
  · obtain rfl := Option.some.inj made
    simp [job]
  · simp [World.initial] at there

/-- Calls that stop after their first append lead from one idle world to another, by calm steps. -/
theorem run_of_commitEach
    {R : World → World → Prop} (keep : ∀ w w', Step p projectId allow w w' → Calm w w' → R w w')
    {now : Instant} {journal journal' : List Segment} {calls : List (Nat × Call)}
    (allowed : ∀ s, ∀ call ∈ calls, allow s call.2)
    (committed : commitEach p projectId now journal calls = .ok journal') :
  Relation.ReflTransGen R (World.initial journal now) (World.initial journal' now)
  := by
  induction calls generalizing journal with
  | nil =>
      obtain rfl := Except.ok.inj committed
      exact .refl
  | cons entry rest ih =>
      obtain ⟨bound, call⟩ := entry
      simp only [commitEach, bind_eq_ok, check_eq_ok, need_eq_ok] at committed
      obtain ⟨s, loaded, _, names, answer, started, ⟨batch, saga⟩, rfl, ⟨stored, created⟩, appended,
        segment, rfl, committed⟩ := committed
      have within : (Env.beyond bound now).Within now now := ⟨fun _ => le_refl _, fun _ => le_refl _,
        fun _ _ _ => le_refl _⟩
      have first := run_commit keep loaded (allowed s _ List.mem_cons_self) within
        (Env.beyond_fresh names) started appended
      let job : Job := { call, lock := call.lock p s, saga, stage := .starting journal batch }
      let created := (World.initial (journal ++ [segment]) now).setJob 0 (job.after true)
      have idle : created.setJob 0 none = World.initial (journal ++ [segment]) now := by
        simp [created, World.setJob, World.initial, Function.update_idem]
      have stops : R created (created.setJob 0 none) :=
        keep _ _ (.stop created 0) (.inr ⟨rfl, fun i => .inr (by rw [idle]; rfl)⟩)
      rw [idle] at stops
      exact (first.tail stops).trans
        (ih (fun s call mem => allowed s call (List.mem_cons_of_mem _ mem)) committed)

/-- The journal that calls leave which stop after their first append is reachable. -/
theorem reachable_of_commitEach
    {now : Instant} {journal journal' : List Segment} {calls : List (Nat × Call)}
    (reachable : Reachable p projectId allow (World.initial journal now))
    (allowed : ∀ s, ∀ call ∈ calls, allow s call.2)
    (committed : commitEach p projectId now journal calls = .ok journal') :
  Reachable p projectId allow (World.initial journal' now)
  := reachable.run (run_of_commitEach (fun _ _ step _ => step) allowed committed)

end Dagrail
