import Mathlib.Data.List.Induction
import Dagrail.Service.Frame

/-!
# Appends

A mutation loads the journal, computes a batch of events on the state it replays to, and appends
the batch. The journal answers a known idempotency key from the segment that carries it. A new
batch is appended only when the head is still the one the batch was computed on, so that a batch
is always applied to the very state it was computed on.
-/

namespace Dagrail

/-- What a call reads from its surroundings: successive readings of the clock, and fresh
identifiers. -/
structure Env where
  clock : Nat → Instant
  newID : Nat → String

/-- The surroundings after the clock has been read some times. -/
def Env.after (env : Env) (readings : Nat) : Env :=
  { env with clock := fun i => env.clock (readings + i) }

/-- What a mutation asks the journal to append. -/
structure Batch where
  command : Command
  events : List Event
  committedAt : Instant

namespace Event

/-- Is the event one of the two fences that only the recovery code writes? -/
def isFence : Event → Bool
  | .authorityEstablished _ => true
  | .authorityRetired _ => true
  | _ => false

/-- Is the event the fence that ends the authority? -/
def isRetirement : Event → Bool
  | .authorityRetired _ => true
  | _ => false

end Event

/-- The segment schema of ordinary appends. -/
def currentSegmentSchemaVersion : Nat := 3

/-- The segment a batch becomes after the given head. -/
def Batch.segment (p : Platform) (projectId previousHash : String) (sequence : Nat) (b : Batch) :
    Segment :=
  let unsigned : Segment :=
    { schemaVersion := currentSegmentSchemaVersion
      sequence
      projectId
      previousHash
      command := b.command
      events := b.events
      committedAt := .utc b.committedAt
      segmentHash := "" }
  { unsigned with segmentHash := p.hash.segmentHash unsigned }

/-- Is the recorded command compatible with a repeated one? Fields a stored command does not
record are not compared. -/
def Command.sameIntent (existing command : Command) : Bool :=
  existing.kind = command.kind
    && (existing.actorRole = "" || existing.actorRole = command.actorRole)
    && (existing.objectRef = "" || existing.objectRef = command.objectRef)
    && (existing.requestDigest = "" || existing.requestDigest = command.requestDigest)

/-- The hash of the last segment, or the empty text. -/
def headHashOf (segments : List Segment) : String :=
  (segments.getLast?.map Segment.segmentHash).getD ""

/-- The sequence of the last segment, or zero. -/
def headSequenceOf (segments : List Segment) : Nat :=
  (segments.getLast?.map Segment.sequence).getD 0

/-- The segment that carries the idempotency key, if the key is not empty. -/
def segmentForKey (segments : List Segment) (key : String) : Option Segment :=
  if key = "" then none
  else segments.find? fun segment => segment.command.idempotencyKey = key

/-- Append a batch once: the segment it is stored in, and the segment newly appended for it. -/
def appendOnce (p : Platform) (projectId : String) (segments : List Segment) (b : Batch)
    (expectedHead : String) : Fallible (Segment × Option Segment) := do
  check (!segments.any fun segment => segment.events.any Event.isRetirement)
    "project authority is retired and cannot accept journal writes"
  match segmentForKey segments b.command.idempotencyKey with
  | some existing => do
      check (existing.command.sameIntent b.command)
        "idempotency key is already bound to another command intent"
      .ok (existing, none)
  | none => do
      check (headHashOf segments = expectedHead)
        "journal head changed; refresh context before retrying"
      check (b.events ≠ []) "journal segment must contain at least one event"
      let segment := b.segment p projectId (headHashOf segments) (headSequenceOf segments + 1)
      .ok (segment, some segment)

/-- An append creates a segment only for a new key, on the expected head. -/
theorem appendOnce_created
    {p : Platform} {projectId : String} {segments : List Segment} {b : Batch}
    {expectedHead : String} {stored segment : Segment}
    (h : appendOnce p projectId segments b expectedHead = .ok (stored, some segment)) :
  (∀ x ∈ segments, ∀ event ∈ x.events, event.isRetirement = false) ∧
    segmentForKey segments b.command.idempotencyKey = none ∧
    headHashOf segments = expectedHead ∧
    segment = b.segment p projectId (headHashOf segments) (headSequenceOf segments + 1)
  := by
  simp only [appendOnce, bind_eq_ok, check_eq_ok] at h
  obtain ⟨_, open_, h⟩ := h
  refine ⟨by simpa using open_, ?_⟩
  cases known : segmentForKey segments b.command.idempotencyKey with
  | some existing => simp [known] at h
  | none =>
      simp only [known, bind_eq_ok, check_eq_ok, Except.ok.injEq, Prod.mk.injEq, Option.some.injEq,
        decide_eq_true_eq] at h
      obtain ⟨_, head, _, -, -, rfl⟩ := h
      exact ⟨rfl, head, rfl⟩

/-! ### Replay of an extended journal -/

/-- Apply the events of a segment without fences and close it. -/
def State.applySegment (p : Platform) (s : State) (segment : Segment) : Fallible State := do
  let s ← segment.events.foldlM (State.applyEvent p segment.sequence segment.committedAt) s
  .ok (segment.close s)

namespace Replay

/-- Replay whole segments from a state of replay. -/
def run (p : Platform) (r : Replay) (segments : List Segment) : Fallible Replay :=
  segments.foldlM (applySegment p) r

/-- An event that is no fence changes the state only. -/
theorem applyEvent_of_not_fence
    {p : Platform} {segment : Segment} {event : Event} (r : Replay)
    (plain : event.isFence = false) :
  applyEvent p segment r event =
    (r.state.applyEvent p segment.sequence segment.committedAt event).map
      fun s => { r with state := s }
  := by
  cases event <;> first | (simp [Event.isFence] at plain; done) | rfl

/-- Events without fences change the state only. -/
theorem foldlM_applyEvent_of_not_fence
    {p : Platform} {segment : Segment} (events : List Event) (r : Replay)
    (plain : ∀ event ∈ events, event.isFence = false) :
  events.foldlM (applyEvent p segment) r =
    (events.foldlM (State.applyEvent p segment.sequence segment.committedAt) r.state).map
      fun s => { r with state := s }
  := by
  induction events generalizing r with
  | nil => rfl
  | cons event rest ih =>
      simp only [List.foldlM_cons]
      rw [applyEvent_of_not_fence r (plain event (by simp))]
      cases r.state.applyEvent p segment.sequence segment.committedAt event with
      | error e => rfl
      | ok s =>
          exact ih { r with state := s } fun event' mem => plain event' (by simp [mem])

/-- A segment without fences changes the state only. -/
theorem applySegment_of_not_fence
    {p : Platform} {segment : Segment} {r : Replay} (active : r.retired = false)
    (plain : ∀ event ∈ segment.events, event.isFence = false) :
  applySegment p r segment =
    (r.state.applySegment p segment).map fun s => { r with state := s }
  := by
  unfold applySegment State.applySegment
  rw [foldlM_applyEvent_of_not_fence segment.events r plain]
  simp only [active, Bool.not_false, check, if_true, ok_bind]
  cases segment.events.foldlM (State.applyEvent p segment.sequence segment.committedAt) r.state <;>
    rfl

/-- Replay is not retired by events that are no retirements. -/
theorem run_retired
    {p : Platform} {r r' : Replay} {segments : List Segment} (active : r.retired = false)
    (none_ : ∀ x ∈ segments, ∀ event ∈ x.events, event.isRetirement = false)
    (accepted : run p r segments = .ok r') :
  r'.retired = false
  := by
  refine foldlM_invariant (fun r : Replay => r.retired = false) ?_ active accepted
  intro r segment r' mem before applied
  simp only [applySegment, bind_eq_ok, check_eq_ok, Except.ok.injEq] at applied
  obtain ⟨_, -, r'', events, rfl⟩ := applied
  suffices kept : r''.retired = false from kept
  refine foldlM_invariant (fun r : Replay => r.retired = false) ?_ before events
  intro r event r' mem' before applied
  have keeps := none_ segment mem event mem'
  unfold applyEvent at applied
  split at applied
  · simp only [bind_eq_ok, check_eq_ok, Except.ok.injEq] at applied
    obtain ⟨_, -, _, -, rfl⟩ := applied
    exact before
  · simp [Event.isRetirement] at keeps
  · simp only [bind_eq_ok, Except.ok.injEq] at applied
    obtain ⟨s, -, rfl⟩ := applied
    exact before

end Replay

/-- The state after a journal is the state of its replay. -/
theorem reduceSegments_eq
    (p : Platform) (projectId : String) (segments : List Segment) :
  reduceSegments p projectId segments =
    (Replay.run p ⟨State.new projectId, false, false⟩ segments).map Replay.state
  := by
  unfold reduceSegments reduceSegmentsFrom Replay.run
  cases segments.foldlM (Replay.applySegment p) ⟨State.new projectId, false, false⟩ <;> rfl

/-- Replay of a journal extended by one segment without fences. -/
theorem reduceSegments_concat
    {p : Platform} {projectId : String} {segments : List Segment} {s : State} {segment : Segment}
    (loaded : reduceSegments p projectId segments = .ok s)
    (active : ∀ x ∈ segments, ∀ event ∈ x.events, event.isRetirement = false)
    (plain : ∀ event ∈ segment.events, event.isFence = false) :
  reduceSegments p projectId (segments ++ [segment]) = s.applySegment p segment
  := by
  rw [reduceSegments_eq] at loaded ⊢
  cases before : Replay.run p ⟨State.new projectId, false, false⟩ segments with
  | error e => simp [before, Except.map] at loaded
  | ok r =>
      obtain rfl : r.state = s := by simpa [before, Except.map] using loaded
      have open_ : r.retired = false := Replay.run_retired rfl active before
      unfold Replay.run at before ⊢
      rw [List.foldlM_append, before]
      simp only [ok_bind, List.foldlM_cons, List.foldlM_nil]
      rw [Replay.applySegment_of_not_fence open_ plain]
      cases r.state.applySegment p segment <;> rfl

/-! ### What a loaded state knows of its journal -/

/-- The state carries project, head and keys of the journal. -/
structure Describes (projectId : String) (segments : List Segment) (s : State) : Prop where
  projectId : s.projectId = projectId
  headHash : s.headHash = headHashOf segments
  headSequence : s.headSequence = headSequenceOf segments
  commands : ∀ key, s.commands.has key = (segmentForKey segments key).isSome

/-- The key of an extended journal. -/
theorem segmentForKey_concat
    (segments : List Segment) (segment : Segment) (key : String) :
  (segmentForKey (segments ++ [segment]) key).isSome =
    ((segmentForKey segments key).isSome ||
      decide (key ≠ "" ∧ segment.command.idempotencyKey = key))
  := by
  unfold segmentForKey
  by_cases empty : key = ""
  · simp [empty]
  · rw [Bool.eq_iff_iff]
    simp only [empty, if_false, List.find?_isSome, List.mem_append, List.mem_singleton,
      decide_eq_true_eq, Bool.or_eq_true, ne_eq, not_false_eq_true, true_and]
    constructor
    · rintro ⟨x, mem | rfl, same⟩
      · exact Or.inl ⟨x, mem, same⟩
      · exact Or.inr same
    · rintro (⟨x, mem, same⟩ | same)
      · exact ⟨x, Or.inl mem, same⟩
      · exact ⟨segment, Or.inr rfl, same⟩

/-- A segment keeps a state in step with its journal. -/
theorem Describes.concat
    {p : Platform} {projectId : String} {segments : List Segment} {r r' : Replay}
    {segment : Segment} (describes : Describes projectId segments r.state)
    (applied : r.applySegment p segment = .ok r') :
  Describes projectId (segments ++ [segment]) r'.state
  := by
  simp only [Replay.applySegment, bind_eq_ok, check_eq_ok, Except.ok.injEq] at applied
  obtain ⟨_, -, r'', events, rfl⟩ := applied
  -- no event touches project and commands
  have kept : r''.state.projectId = r.state.projectId ∧ r''.state.commands = r.state.commands := by
    refine foldlM_invariant (fun x : Replay => x.state.projectId = r.state.projectId ∧
      x.state.commands = r.state.commands) ?_ ⟨rfl, rfl⟩ events
    intro x event x' _ same step
    refine Replay.applyEvent_invariant
      (P := fun s => s.projectId = r.state.projectId ∧ s.commands = r.state.commands) ?_ same step
    intro s event s' same h
    have frame := State.applyEvent_frame h
    exact ⟨frame.projectId.trans same.1, frame.commands.trans same.2⟩
  constructor
  · exact kept.1.trans describes.projectId
  · simp [Segment.close, headHashOf]
  · simp [Segment.close, headSequenceOf]
  · intro key
    rw [segmentForKey_concat, ← describes.commands key]
    simp only [Segment.close, kept.2]
    split
    · rename_i empty
      by_cases same : key = "" <;> simp [same, empty, eq_comm]
    · rename_i named
      rw [Table.has_insert]
      by_cases same : key = segment.command.idempotencyKey
      · simp [same, named]
      · simp [same, eq_comm]

/-- A loaded state describes its journal. -/
theorem describes_of_reduceSegments
    {p : Platform} {projectId : String} {segments : List Segment} {s : State}
    (loaded : reduceSegments p projectId segments = .ok s) :
  Describes projectId segments s
  := by
  rw [reduceSegments_eq] at loaded
  cases replayed : Replay.run p ⟨State.new projectId, false, false⟩ segments with
  | error e => simp [replayed, Except.map] at loaded
  | ok r =>
      obtain rfl : r.state = s := by simpa [replayed, Except.map] using loaded
      clear loaded
      -- by induction from the end of the journal
      induction segments using List.reverseRecOn generalizing r with
      | nil =>
          simp only [Replay.run, List.foldlM_nil, pure_eq_ok] at replayed
          subst replayed
          refine ⟨rfl, rfl, rfl, fun key => ?_⟩
          simp [State.new, segmentForKey]
      | append_singleton front last ih =>
          simp only [Replay.run, List.foldlM_append, bind_eq_ok, List.foldlM_cons, List.foldlM_nil,
            pure_eq_ok, exists_eq_right] at replayed
          obtain ⟨r₀, before, step⟩ := replayed
          exact (ih r₀ before).concat step

/-- The journal before one that replays does too. -/
theorem reduceSegments_of_prefix
    {p : Platform} {projectId : String} {front rest : List Segment} {s' : State}
    (loaded : reduceSegments p projectId (front ++ rest) = .ok s') :
  ∃ s, reduceSegments p projectId front = .ok s
  := by
  rw [reduceSegments_eq] at loaded ⊢
  unfold Replay.run at loaded ⊢
  rw [List.foldlM_append] at loaded
  cases before : front.foldlM (Replay.applySegment p) ⟨State.new projectId, false, false⟩ with
  | error e => simp [before, Except.map] at loaded
  | ok r => exact ⟨r.state, rfl⟩

/-- Replay of a journal that can be extended has not retired. -/
theorem active_of_reduceSegments
    {p : Platform} {projectId : String} {segments : List Segment} {segment : Segment} {s s' : State}
    (loaded : reduceSegments p projectId segments = .ok s)
    (loaded' : reduceSegments p projectId (segments ++ [segment]) = .ok s') :
  ∃ r, Replay.run p ⟨State.new projectId, false, false⟩ segments = .ok r ∧ r.state = s ∧
    r.retired = false
  := by
  rw [reduceSegments_eq] at loaded loaded'
  cases before : Replay.run p ⟨State.new projectId, false, false⟩ segments with
  | error e => simp [before, Except.map] at loaded
  | ok r =>
      refine ⟨r, rfl, by simpa [before, Except.map] using loaded, ?_⟩
      unfold Replay.run at before loaded'
      rw [List.foldlM_append, before] at loaded'
      by_contra retired
      simp [Replay.applySegment, check, retired, Except.map] at loaded'

/-- The state after a segment is the state after its events, closed. -/
theorem State.applySegment_ok
    {p : Platform} {s s' : State} {segment : Segment} (h : s.applySegment p segment = .ok s') :
  ∃ s₁, segment.events.foldlM (State.applyEvent p segment.sequence segment.committedAt) s = .ok s₁ ∧
    s' = segment.close s₁
  := by
  simp only [State.applySegment, bind_eq_ok, Except.ok.injEq] at h
  obtain ⟨s₁, events, rfl⟩ := h
  exact ⟨s₁, events, rfl⟩

/-- What an event under the fence checks makes of the state, it makes without them. -/
theorem Replay.applyEvent_state
    {p : Platform} {segment : Segment} {r r' : Replay} {event : Event}
    (h : applyEvent p segment r event = .ok r') :
  r.state.applyEvent p segment.sequence segment.committedAt event = .ok r'.state
  := by
  unfold applyEvent at h
  split at h
  · simp only [bind_eq_ok, check_eq_ok, Except.ok.injEq] at h
    obtain ⟨_, -, _, -, rfl⟩ := h
    rfl
  · simp only [bind_eq_ok, check_eq_ok, Except.ok.injEq] at h
    obtain ⟨_, -, _, -, rfl⟩ := h
    rfl
  · simp only [bind_eq_ok, Except.ok.injEq] at h
    obtain ⟨s, applied, rfl⟩ := h
    exact applied

/-- What events under the fence checks make of the state, they make without them. -/
theorem Replay.foldlM_applyEvent_state
    {p : Platform} {segment : Segment} (events : List Event) {r r' : Replay}
    (h : events.foldlM (applyEvent p segment) r = .ok r') :
  events.foldlM (State.applyEvent p segment.sequence segment.committedAt) r.state = .ok r'.state
  := by
  induction events generalizing r with
  | nil =>
      obtain rfl : r = r' := by simpa using h
      rfl
  | cons event rest ih =>
      rw [List.foldlM_cons, bind_eq_ok] at h ⊢
      obtain ⟨r₁, first, rest⟩ := h
      exact ⟨r₁.state, applyEvent_state first, ih rest⟩

/-- A journal that replays with one more segment applies the segment to the state before. -/
theorem applySegment_of_reduceSegments
    {p : Platform} {projectId : String} {segments : List Segment} {segment : Segment} {s s' : State}
    (loaded : reduceSegments p projectId segments = .ok s)
    (loaded' : reduceSegments p projectId (segments ++ [segment]) = .ok s') :
  s.applySegment p segment = .ok s'
  := by
  rw [reduceSegments_eq] at loaded loaded'
  unfold Replay.run at loaded loaded'
  rw [List.foldlM_append] at loaded'
  cases before : segments.foldlM (Replay.applySegment p) ⟨State.new projectId, false, false⟩ with
  | error e => simp [before, Except.map] at loaded
  | ok r =>
      obtain rfl : r.state = s := by simpa [before, Except.map] using loaded
      simp only [before, ok_bind, List.foldlM_cons, List.foldlM_nil] at loaded'
      cases applied : r.applySegment p segment with
      | error e => simp [applied, Except.map] at loaded'
      | ok r' =>
          obtain rfl : r'.state = s' := by
            simpa [applied, Except.map, pure, Except.pure] using loaded'
          simp only [Replay.applySegment, bind_eq_ok, check_eq_ok, Except.ok.injEq] at applied
          obtain ⟨_, -, r₁, events, rfl⟩ := applied
          simp [State.applySegment, Replay.foldlM_applyEvent_state _ events]

end Dagrail
