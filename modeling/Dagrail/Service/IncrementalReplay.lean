import Dagrail.Service.Append

/-!
# Incremental replay

A service keeps the last state it replayed. When only new segments have been read since, it
replays these on a copy of that state instead of the whole journal. The replay of the new segments
starts with fixed answers to the questions whether the authority was established or retired, while
replay of the whole journal carries the answers over from the earlier segments. The two agree on
the segments that come after a journal whose authority is established and not retired.
-/

namespace Dagrail

/-! ### The fast path of a load -/

/-- A copy of a state that shares nothing with it, made through its JSON text. Every member of a
state and of its records is written and read back, and no map of a state is nil, so the copy has
the value of the original. -/
def cloneState (s : State) : Fallible State :=
  .ok s

/-- Replay the segments that were read after those of a kept state. -/
def reduceTail (p : Platform) (kept : State) (tail : List Segment) : Fallible State := do
  let s ← cloneState kept
  reduceSegmentsFrom p s tail true false

/-- Replay of the whole journal and replay of its tail on the state of its front accept the same
journals, with the same states. -/
def ReplaysAlike (p : Platform) (projectId : String) (front tail : List Segment) : Prop :=
  ∀ s, reduceSegments p projectId (front ++ tail) = .ok s ↔
    ∃ kept, reduceSegments p projectId front = .ok kept ∧ reduceTail p kept tail = .ok s

/-- Is the event the fence that establishes the authority? -/
def Event.isEstablishment : Event → Bool
  | .authorityEstablished _ => true
  | _ => false

/-- Do the segments establish the authority? -/
def establishes (segments : List Segment) : Bool :=
  segments.any fun segment => segment.events.any Event.isEstablishment

/-- Do the segments retire the authority? -/
def retires (segments : List Segment) : Bool :=
  segments.any fun segment => segment.events.any Event.isRetirement

/-- The answers the fast path starts with are those of the front, as far as the tail asks. -/
def Fenced (front tail : List Segment) : Prop :=
  tail = [] ∨ (retires front = false ∧ (establishes front = true ∨ establishes tail = false))

/-! ### What replay knows of the fences -/

namespace Replay

variable {p : Platform}

/-- An event notes the fence it is. -/
theorem applyEvent_flags
    {segment : Segment} {r r' : Replay} {event : Event}
    (accepted : applyEvent p segment r event = .ok r') :
  r'.established = (r.established || event.isEstablishment) ∧
    r'.retired = (r.retired || event.isRetirement)
  := by
  cases event with
  | authorityEstablished e =>
      simp only [applyEvent, bind_eq_ok, check_eq_ok, Except.ok.injEq] at accepted
      obtain ⟨_, -, _, -, rfl⟩ := accepted
      simp [Event.isEstablishment, Event.isRetirement]
  | authorityRetired e =>
      simp only [applyEvent, bind_eq_ok, check_eq_ok, Except.ok.injEq] at accepted
      obtain ⟨_, -, _, -, rfl⟩ := accepted
      simp [Event.isEstablishment, Event.isRetirement]
  | _ =>
      simp only [applyEvent, bind_eq_ok, Except.ok.injEq] at accepted
      obtain ⟨s, -, rfl⟩ := accepted
      simp [Event.isEstablishment, Event.isRetirement]

/-- The events of a segment note the fences they are. -/
theorem foldlM_applyEvent_flags
    {segment : Segment} {events : List Event} {r r' : Replay}
    (accepted : events.foldlM (applyEvent p segment) r = .ok r') :
  r'.established = (r.established || events.any Event.isEstablishment) ∧
    r'.retired = (r.retired || events.any Event.isRetirement)
  := by
  induction events generalizing r with
  | nil =>
      obtain rfl : r = r' := by simpa using accepted
      simp
  | cons event rest ih =>
      simp only [List.foldlM_cons, bind_eq_ok] at accepted
      obtain ⟨r₁, first, others⟩ := accepted
      obtain ⟨established, retired⟩ := applyEvent_flags first
      obtain ⟨established', retired'⟩ := ih others
      rw [established', retired', established, retired]
      simp [Bool.or_assoc]

/-- Replay notes the fences of the segments. -/
theorem run_flags
    {segments : List Segment} {r r' : Replay} (accepted : run p r segments = .ok r') :
  r'.established = (r.established || establishes segments) ∧
    r'.retired = (r.retired || retires segments)
  := by
  induction segments generalizing r with
  | nil =>
      obtain rfl : r = r' := by simpa [run] using accepted
      simp [establishes, retires]
  | cons segment rest ih =>
      simp only [run, List.foldlM_cons, bind_eq_ok] at accepted
      obtain ⟨r₁, first, others⟩ := accepted
      simp only [applySegment, bind_eq_ok, check_eq_ok, Except.ok.injEq] at first
      obtain ⟨_, -, r₂, events, rfl⟩ := first
      obtain ⟨established, retired⟩ := foldlM_applyEvent_flags events
      obtain ⟨established', retired'⟩ := ih others
      rw [established', retired']
      simp [established, retired, establishes, retires, Bool.or_assoc]

/-- Nothing is accepted after a retirement. -/
theorem run_of_retired
    {segments : List Segment} {r r' : Replay} (retired : r.retired = true)
    (accepted : run p r segments = .ok r') :
  segments = []
  := by
  cases segments with
  | nil => rfl
  | cons segment rest =>
      simp only [run, List.foldlM_cons, applySegment, bind_eq_ok, check_eq_ok] at accepted
      obtain ⟨_, ⟨_, active, _⟩, _⟩ := accepted
      simp [retired] at active

/-- An establishment is accepted only where there was none. -/
theorem applyEvent_of_established
    {segment : Segment} {r r' : Replay} {event : Event} (established : r.established = true)
    (accepted : applyEvent p segment r event = .ok r') :
  event.isEstablishment = false
  := by
  cases event with
  | authorityEstablished e =>
      simp only [applyEvent, bind_eq_ok, check_eq_ok] at accepted
      obtain ⟨_, closed, -⟩ := accepted
      simp [established] at closed
  | _ => rfl

/-- No establishment is accepted after an establishment. -/
theorem run_of_established
    {segments : List Segment} {r r' : Replay} (established : r.established = true)
    (accepted : run p r segments = .ok r') :
  establishes segments = false
  := by
  induction segments generalizing r with
  | nil => rfl
  | cons segment rest ih =>
      simp only [run, List.foldlM_cons, bind_eq_ok] at accepted
      obtain ⟨r₁, first, others⟩ := accepted
      simp only [applySegment, bind_eq_ok, check_eq_ok, Except.ok.injEq] at first
      obtain ⟨_, -, r₂, events, rfl⟩ := first
      -- within the segment, by induction on its events
      have within : ∀ (events : List Event) (r r₂ : Replay), r.established = true →
          events.foldlM (applyEvent p segment) r = .ok r₂ →
          events.any Event.isEstablishment = false := by
        intro events
        induction events with
        | nil => simp
        | cons event others ih =>
            intro r r₂ established accepted
            simp only [List.foldlM_cons, bind_eq_ok] at accepted
            obtain ⟨r₁, first, rest⟩ := accepted
            have still : r₁.established = true := by
              rw [(applyEvent_flags first).1, established, Bool.true_or]
            rw [List.any_cons, applyEvent_of_established established first, ih r₁ r₂ still rest]
            rfl
      have still : r₂.established = true := by
        rw [(foldlM_applyEvent_flags events).1, established, Bool.true_or]
      unfold establishes at ih ⊢
      rw [List.any_cons, within segment.events r r₂ established events]
      exact ih (r := ⟨segment.close r₂.state, r₂.established, r₂.retired⟩) still others

/-- Replay with another answer to the question whether the authority was established. -/
def answering (established : Bool) (r : Replay) : Replay :=
  { r with established }

/-- An event that does not establish the authority does not ask whether it was established. -/
theorem applyEvent_answering
    {segment : Segment} {event : Event} (plain : event.isEstablishment = false)
    (established : Bool) (r : Replay) :
  applyEvent p segment (r.answering established) event =
    (applyEvent p segment r event).map (answering established)
  := by
  cases event with
  | authorityEstablished e => simp [Event.isEstablishment] at plain
  | authorityRetired e =>
      simp only [applyEvent, map_bind, answering]
      rfl
  | _ =>
      simp only [applyEvent, map_bind, answering]
      rfl

/-- Where nothing establishes the authority, replay does not ask whether it was established. -/
theorem run_answering
    {segments : List Segment} (plain : establishes segments = false) (established : Bool)
    (r : Replay) :
  run p (r.answering established) segments = (run p r segments).map (answering established)
  := by
  apply foldlM_map (answering established)
  intro r segment mem
  have plain' : ∀ event ∈ segment.events, event.isEstablishment = false := by
    intro event mem'
    simp only [establishes, List.any_eq_false, List.any_eq_true, not_exists, not_and] at plain
    simpa using plain segment mem event mem'
  have events : segment.events.foldlM (applyEvent p segment) (r.answering established) =
      (segment.events.foldlM (applyEvent p segment) r).map (answering established) :=
    foldlM_map (answering established)
      (fun r event mem' => applyEvent_answering (plain' event mem') established r) r
  unfold applySegment
  rw [events]
  cases segment.events.foldlM (applyEvent p segment) r <;>
    cases retired : r.retired <;> simp [answering, retired, check, Except.map]

end Replay

/-! ### Where the two paths agree -/

variable {p : Platform} {projectId : String}

/-- The fast path is replay from the kept state. -/
theorem reduceTail_eq
    (kept : State) (tail : List Segment) :
  reduceTail p kept tail = (Replay.run p ⟨kept, true, false⟩ tail).map Replay.state
  := by
  unfold reduceTail reduceSegmentsFrom cloneState Replay.run
  rw [ok_bind]
  cases tail.foldlM (Replay.applySegment p) ⟨kept, true, false⟩ <;> rfl

/-- Replay of a journal is replay of its front and then of its tail. -/
theorem Replay.run_append
    (r : Replay) (front tail : List Segment) :
  run p r (front ++ tail) = run p r front >>= fun r' => run p r' tail
  := by
  unfold run
  rw [List.foldlM_append]

/-- Replay of a journal whose front replays. -/
theorem reduceSegments_append
    {front : List Segment} {r : Replay} (tail : List Segment)
    (before : Replay.run p ⟨State.new projectId, false, false⟩ front = .ok r) :
  reduceSegments p projectId (front ++ tail) = (Replay.run p r tail).map Replay.state
  := by
  rw [reduceSegments_eq, Replay.run_append, before, ok_bind]

/-- A front that does not replay is refused on both paths. -/
theorem replaysAlike_of_error
    {front : List Segment} {message : String} (tail : List Segment)
    (refused : reduceSegments p projectId front = .error message) :
  ReplaysAlike p projectId front tail
  := by
  intro s
  constructor
  · intro accepted
    obtain ⟨kept, loaded⟩ := reduceSegments_of_prefix accepted
    rw [refused] at loaded
    exact absurd loaded (by simp)
  · rintro ⟨kept, loaded, -⟩
    rw [refused] at loaded
    exact absurd loaded (by simp)

/-- After a front that replays, the two paths differ only in the answers they start with. -/
theorem replaysAlike_iff
    {front : List Segment} {r : Replay} (tail : List Segment)
    (before : Replay.run p ⟨State.new projectId, false, false⟩ front = .ok r) :
  ReplaysAlike p projectId front tail ↔
    ∀ s, (Replay.run p ⟨r.state, establishes front, retires front⟩ tail).map Replay.state = .ok s ↔
      (Replay.run p ⟨r.state, true, false⟩ tail).map Replay.state = .ok s
  := by
  have flags := Replay.run_flags before
  simp only [Bool.false_or] at flags
  have same : r = ⟨r.state, establishes front, retires front⟩ := by rw [← flags.1, ← flags.2]
  have loaded : reduceSegments p projectId front = .ok r.state := by
    rw [reduceSegments_eq, before]
    rfl
  unfold ReplaysAlike
  simp only [reduceSegments_append tail before, reduceTail_eq, loaded, Except.ok.injEq,
    exists_eq_left']
  rw [← same]

/-- Under the fence condition the two paths agree. -/
theorem replaysAlike_of_fenced
    {front tail : List Segment} (fenced : Fenced front tail) :
  ReplaysAlike p projectId front tail
  := by
  cases before : Replay.run p ⟨State.new projectId, false, false⟩ front with
  | error message =>
      apply replaysAlike_of_error
      rw [reduceSegments_eq, before]
      rfl
  | ok r =>
      rw [replaysAlike_iff tail before]
      rcases fenced with rfl | ⟨active, established | plain⟩
      · exact fun s => Iff.rfl
      · rw [established, active]
        exact fun s => Iff.rfl
      · -- the tail does not ask whether the authority was established
        intro s
        have same := Replay.run_answering (p := p) plain (establishes front) ⟨r.state, true, false⟩
        rw [Replay.answering] at same
        rw [active, same]
        cases Replay.run p ⟨r.state, true, false⟩ tail <;> rfl

/-- A tail is refused on both paths. -/
def BothRefuse (p : Platform) (projectId : String) (front tail : List Segment) : Prop :=
  (∀ s, reduceSegments p projectId (front ++ tail) ≠ .ok s) ∧
    ∀ kept s, reduceSegments p projectId front = .ok kept → reduceTail p kept tail ≠ .ok s

/-- Outside the fence condition the two paths never accept together. -/
theorem fenced_of_accepted
    {front tail : List Segment} {s kept s' : State}
    (whole : reduceSegments p projectId (front ++ tail) = .ok s)
    (loaded : reduceSegments p projectId front = .ok kept)
    (added : reduceTail p kept tail = .ok s') :
  Fenced front tail
  := by
  rw [reduceSegments_eq] at loaded
  cases before : Replay.run p ⟨State.new projectId, false, false⟩ front with
  | error message => simp [before, Except.map] at loaded
  | ok r =>
      rw [reduceSegments_append tail before] at whole
      rw [reduceTail_eq] at added
      have flags := Replay.run_flags before
      simp only [Bool.false_or] at flags
      cases full : Replay.run p r tail with
      | error message => simp [full, Except.map] at whole
      | ok r₁ =>
          cases fast : Replay.run p ⟨kept, true, false⟩ tail with
          | error message => simp [fast, Except.map] at added
          | ok r₂ =>
              cases retired : retires front with
              | true => exact Or.inl (Replay.run_of_retired (flags.2.trans retired) full)
              | false => exact Or.inr ⟨retired, Or.inr (Replay.run_of_established rfl fast)⟩

/-- The two paths agree under the fence condition and where both refuse, and nowhere else. -/
theorem replaysAlike_iff_fenced
    (front tail : List Segment) :
  ReplaysAlike p projectId front tail ↔ Fenced front tail ∨ BothRefuse p projectId front tail
  := by
  constructor
  · intro alike
    by_cases accepted : ∃ s, reduceSegments p projectId (front ++ tail) = .ok s
    · obtain ⟨s, whole⟩ := accepted
      obtain ⟨kept, loaded, added⟩ := (alike s).mp whole
      exact Or.inl (fenced_of_accepted whole loaded added)
    · right
      refine ⟨fun s whole => accepted ⟨s, whole⟩, ?_⟩
      intro kept s loaded added
      exact accepted ⟨s, (alike s).mpr ⟨kept, loaded, added⟩⟩
  · rintro (fenced | ⟨whole, added⟩)
    · exact replaysAlike_of_fenced fenced
    · intro s
      constructor
      · intro accepted
        exact absurd accepted (whole s)
      · rintro ⟨kept, loaded, accepted⟩
        exact absurd accepted (added kept s loaded)

/-! ### The fronts after which the two paths always agree -/

/-- Replay keeps the project. -/
theorem Replay.applyEvent_projectId
    {segment : Segment} {r r' : Replay} {event : Event}
    (accepted : applyEvent p segment r event = .ok r') :
  r'.state.projectId = r.state.projectId
  := by
  apply Replay.applyEvent_invariant (P := fun s => s.projectId = r.state.projectId) _ rfl accepted
  intro s event s' same applied
  exact (State.applyEvent_frame applied).projectId.trans same

/-- An authority whose project id is no UUID is never established. -/
theorem Replay.run_of_not_uuid
    {segments : List Segment} {r r' : Replay} (unnamed : canonicalUUID r.state.projectId = false)
    (open_ : r.established = false) (accepted : run p r segments = .ok r') :
  establishes segments = false
  := by
  have kept : r'.established = false ∧ canonicalUUID r'.state.projectId = false := by
    refine foldlM_invariant
      (fun r : Replay => r.established = false ∧ canonicalUUID r.state.projectId = false)
      ?_ ⟨open_, unnamed⟩ accepted
    intro r segment r₁ _ before applied
    simp only [applySegment, bind_eq_ok, check_eq_ok, Except.ok.injEq] at applied
    obtain ⟨_, -, r₂, events, rfl⟩ := applied
    suffices within : r₂.established = false ∧ canonicalUUID r₂.state.projectId = false from within
    refine foldlM_invariant
      (fun r : Replay => r.established = false ∧ canonicalUUID r.state.projectId = false)
      ?_ before events
    rintro r event r₁ _ ⟨open_, unnamed⟩ applied
    rw [(applyEvent_flags applied).1, applyEvent_projectId applied]
    refine ⟨?_, unnamed⟩
    cases event with
    | authorityEstablished e =>
        simp only [applyEvent, bind_eq_ok, check_eq_ok, validateAuthorityEstablishment,
          Bool.and_eq_true, decide_eq_true_eq] at applied
        obtain ⟨_, -, _, ⟨⟨⟨⟨⟨⟨_, named⟩, uuid⟩, _⟩, _⟩, _⟩, _⟩, -⟩ := applied
        rw [named, unnamed] at uuid
        simp at uuid
    | _ => simp [Event.isEstablishment, open_]
  rw [(run_flags accepted).1] at kept
  simpa [open_] using kept.1

/-- The segment that establishes the authority of a project. -/
def establishingSegment (p : Platform) (projectId : String) : Segment :=
  let establishment : AuthorityEstablishment :=
    { apiVersion := "dagrail.io/authority-establishment/v1alpha1"
      kind := "AuthorityEstablishment"
      projectId
      operation := "initialization"
      establishedAt := .utc 0
      provenanceDigest := Hex.zero.digest }
  { schemaVersion := 4
    sequence := 1
    projectId
    previousHash := ""
    command := fenceCommand "authority-establish" projectId (p.hash (.establishment establishment))
    events := [.authorityEstablished establishment]
    committedAt := .utc 0
    segmentHash := "" }

/-- Replay accepts it where the authority was neither established nor retired. -/
theorem Replay.run_establishingSegment
    (s : State) (uuid : canonicalUUID s.projectId = true) :
  ∃ r, run p ⟨s, false, false⟩ [establishingSegment p s.projectId] = .ok r
  := by
  have digest : validDigest Hex.zero.digest = true := by decide
  have moment : (Stamp.utc 0).parse.isSome = true := by decide
  simp [run, applySegment, applyEvent, establishingSegment, validateAuthorityEstablishment, check,
    uuid, digest, moment]

/-- After a front that replays, the two paths agree on every tail if and only if the front does not
retire the authority, and establishes it where it can be established at all. -/
theorem forall_replaysAlike_iff
    {front : List Segment} {kept : State}
    (loaded : reduceSegments p projectId front = .ok kept) :
  (∀ tail, ReplaysAlike p projectId front tail) ↔
    retires front = false ∧ (establishes front = true ∨ canonicalUUID projectId = false)
  := by
  rw [reduceSegments_eq] at loaded
  cases before : Replay.run p ⟨State.new projectId, false, false⟩ front with
  | error message => simp [before, Except.map] at loaded
  | ok r =>
      have named : r.state.projectId = projectId :=
        (describes_of_reduceSegments (s := r.state) (by rw [reduceSegments_eq, before]; rfl)).projectId
      have flags := Replay.run_flags before
      simp only [Bool.false_or] at flags
      constructor
      · intro alike
        have active : retires front = false := by
          by_contra retired
          simp only [Bool.not_eq_false] at retired
          -- a segment without events is accepted after every state
          let bare : Segment := { establishingSegment p projectId with events := [] }
          have fast : (Replay.run p ⟨r.state, true, false⟩ [bare]).map Replay.state =
            .ok (bare.close r.state) := rfl
          have full := ((replaysAlike_iff [bare] before).mp (alike [bare]) _).mpr fast
          rw [retired] at full
          exact absurd full (by simp [Replay.run, Replay.applySegment, check, Except.map])
        refine ⟨active, ?_⟩
        by_contra missing
        simp only [not_or, Bool.not_eq_true, Bool.not_eq_false] at missing
        -- the fence that establishes the authority is accepted on the full path only
        have uuid : canonicalUUID r.state.projectId = true := by rw [named, missing.2]
        obtain ⟨r', accepted⟩ := Replay.run_establishingSegment (p := p) r.state uuid
        have full : (Replay.run p ⟨r.state, establishes front, retires front⟩
            [establishingSegment p r.state.projectId]).map Replay.state = .ok r'.state := by
          rw [missing.1, active, accepted]
          rfl
        have fast := ((replaysAlike_iff _ before).mp (alike _) _).mp full
        cases replayed : Replay.run p ⟨r.state, true, false⟩
            [establishingSegment p r.state.projectId] with
        | error message => simp [replayed, Except.map] at fast
        | ok r₂ =>
            have plain := Replay.run_of_established rfl replayed
            simp [establishes, establishingSegment, Event.isEstablishment] at plain
      · rintro ⟨active, established | unnamed⟩ tail
        · exact replaysAlike_of_fenced (Or.inr ⟨active, Or.inl established⟩)
        · -- no path establishes an authority without a name
          cases plain : establishes tail with
          | false => exact replaysAlike_of_fenced (Or.inr ⟨active, Or.inr plain⟩)
          | true =>
              rw [replaysAlike_iff_fenced]
              right
              have unnamed' : canonicalUUID r.state.projectId = false := by rw [named, unnamed]
              constructor
              · intro s whole
                rw [reduceSegments_append tail before] at whole
                cases full : Replay.run p r tail with
                | error message => simp [full, Except.map] at whole
                | ok r' =>
                    cases established : r.established with
                    | true => simp [Replay.run_of_established established full] at plain
                    | false => simp [Replay.run_of_not_uuid unnamed' established full] at plain
              · intro kept s _ added
                rw [reduceTail_eq] at added
                cases fast : Replay.run p ⟨kept, true, false⟩ tail with
                | error message => simp [fast, Except.map] at added
                | ok r' => simp [Replay.run_of_established rfl fast] at plain

/-- How incremental replay relates to replay of the whole journal: on which tails the two paths
agree, and after which fronts they agree on every tail. -/
theorem incremental_replay_iff
    (p : Platform) (projectId : String) (front : List Segment) :
  (∀ tail, ReplaysAlike p projectId front tail ↔
    Fenced front tail ∨ BothRefuse p projectId front tail) ∧
  ∀ kept, reduceSegments p projectId front = .ok kept →
    ((∀ tail, ReplaysAlike p projectId front tail) ↔
      retires front = false ∧ (establishes front = true ∨ canonicalUUID projectId = false))
  := ⟨replaysAlike_iff_fenced front, fun _ => forall_replaysAlike_iff⟩

/-! ### A command after a retirement -/

namespace SampleFence

/-- The project. -/
def project : String := "00000000-0000-4000-8000-000000000001"

/-- The retirement of an authority without commands. -/
def retirement : AuthorityRetirement where
  apiVersion := "dagrail.io/authority-adoption/v1alpha1"
  kind := "LegacyAuthorityRetirement"
  previousProjectId := project
  previousHead := ""
  recoveryHead := ""
  recoveryBackupDigest := Hex.zero.digest
  replacementProjectId := "00000000-0000-4000-8000-000000000002"
  rotatedAt := .utc 0
  reason := "adopted"
  idempotencyKey := "adopt"

/-- The fence segment. -/
def fence : Segment where
  schemaVersion := 4
  sequence := 1
  projectId := project
  previousHash := ""
  command := fenceCommand "authority-retire" project Hex.zero
  events := [.authorityRetired retirement]
  committedAt := .utc 0
  segmentHash := Hex.zero.text

/-- A segment behind the fence. -/
def later : Segment where
  schemaVersion := 3
  sequence := 2
  projectId := project
  previousHash := Hex.zero.text
  command := { id := "bind", kind := "role.bind", actorRole := "lead", idempotencyKey := "bind" }
  events := [.roleBound
    { roleId := "lead"
      harness := "shell"
      sessionId := "s1"
      boundAt := .utc 0
      expiresAt := .utc 60000000000
      active := true }]
  committedAt := .utc 0
  segmentHash := Hex.zero.text

end SampleFence

open SampleFence in
/-- Replay of the whole journal refuses the command behind the fence, the fast path accepts it. -/
theorem incremental_replay_after_retirement :
  ¬ ReplaysAlike .plain project [fence] [later]
  := by
  intro alike
  have fast : (reduceSegments .plain project [fence] >>= fun kept =>
      reduceTail .plain kept [later]).isOk = true := by decide
  have full : (reduceSegments .plain project [fence, later]).isOk = false := by decide
  cases loaded : reduceSegments .plain project [fence] with
  | error message => simp [loaded, Except.isOk, Except.toBool] at fast
  | ok kept =>
      cases added : reduceTail .plain kept [later] with
      | error message => simp [loaded, added, Except.isOk, Except.toBool] at fast
      | ok s =>
          have whole := (alike s).mpr ⟨kept, loaded, added⟩
          rw [List.singleton_append] at whole
          simp [whole, Except.isOk, Except.toBool] at full

end Dagrail
