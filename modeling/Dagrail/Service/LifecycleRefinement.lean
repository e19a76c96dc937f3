import Dagrail.Service.LifecycleImport
import Dagrail.Service.LifecycleSteps

/-!
# The second interpreter and the reducer

Every event the second interpreter accepts is one the reducer accepts, and both lead to the same
content. A history whose events read from the journal as the importer read them therefore leads
the reducer to the content the importer validated, however its commands are divided into segments.
-/

namespace Dagrail

/-! ### Single events -/

namespace Lifecycle

variable {p : Platform} {c c' : LifecycleRecordContext} {s t : State} {occurredAt : Stamp}

/-- Taking over the status of an observed action, as the second interpreter writes it. -/
theorem setActionStatus_of_filed
    (filed : Filed s) (id : String) (status : ActionStatus) (effects : Table EffectAction) :
  State.setActionStatus { s with effects } id status =
    { s with
      effects
      actions := match s.actions.lookup id with
        | some action => s.actions.insert action.id { action with status }
        | none => s.actions }
  := by
  unfold State.setActionStatus
  cases found : s.actions.lookup id with
  | none => rfl
  | some action => simp [filed.actions id action found]

/-- The reducer accepts an event that the second interpreter accepts, with the same content. -/
theorem applyValidatedLifecycleEvent_refines
    {source : LifecycleMigrationEvent} {event : Event} (filed : Filed s) (n : Nat) (at_ : Stamp)
    (h : applyValidatedLifecycleEvent p c s occurredAt source event = .ok (c', t)) :
  ∃ r, s.applyEvent p n at_ event = .ok r ∧ r.content = t.content
  := by
  simp only [applyValidatedLifecycleEvent] at h
  cases event with
  | roleBound lease => exact ⟨t, by rw [bindRole_ok h]; rfl, rfl⟩
  | roleTransferred transfer => exact ⟨t, by rw [transferRole_ok h]; rfl, rfl⟩
  | roleReleased roleId releasedAt => exact ⟨t, by rw [releaseRole_ok h]; rfl, rfl⟩
  | attemptStarted attempt => exact ⟨t, by rw [(startAttempt_ok h).2]; rfl, rfl⟩
  | attemptLeased attempt => exact ⟨t, by rw [(startAttempt_ok h).2]; rfl, rfl⟩
  | attemptStatusChanged => exact ⟨t, by rw [(changeAttemptStatus_ok h).2]; rfl, rfl⟩
  | attemptCheckpointed checkpoint => exact ⟨t, by rw [recordCheckpoint_ok h]; rfl, rfl⟩
  | evidencePackagePublished pack => exact publishPackage_ok n h
  | evidenceReuseAssessed decision => exact assessReuse_ok n h
  | decisionRecorded decision => exact recordDecision_ok n h
  | attemptFinished => exact ⟨t, by rw [(finishAttempt_ok h).2]; rfl, rfl⟩
  | resourceLeased lease => exact ⟨t, by rw [(leaseResource_ok h).2]; rfl, rfl⟩
  | resourceClosureObserved => exact ⟨t, observeClosure_ok h, rfl⟩
  | resourceReleased => exact ⟨t, (releaseResource_ok h).2, rfl⟩
  | actionApplied action =>
      obtain rfl := applyAction_ok h
      refine ⟨_, rfl, ?_⟩
      simp only [State.content, Table.mapValues_insert]
      rfl
  | effectPrepared effect =>
      obtain ⟨-, -, rfl⟩ := prepareEffect_ok h
      refine ⟨_, rfl, ?_⟩
      simp only [State.content, Table.mapValues_insert]
      rfl
  | effectDispatched id =>
      obtain ⟨effect, known, -, -, rfl⟩ := dispatchEffect_ok h
      simp only [State.applyEvent, State.dispatchEffect, known, need, ok_bind, Except.ok.injEq,
        exists_eq_left', filed.effects id effect known]
      simp only [State.content, Table.mapValues_insert]
      rfl
  | effectReconciling id =>
      obtain ⟨effect, action, known, acted, -, -, rfl⟩ := reconcileEffect_ok h
      simp only [State.applyEvent, State.reconcileEffect, known, need, ok_bind, Except.ok.injEq,
        exists_eq_left', filed.effects id effect known, setActionStatus_of_filed filed, acted]
      simp only [State.content, Table.mapValues_insert]
      rfl
  | effectObserved id status receipt updatedAt =>
      obtain ⟨effect, known, -, -, -, rfl⟩ := observeEffect_ok h
      obtain rfl : effect.id = id := filed.effects id effect known
      simp only [State.applyEvent, State.observeEffect, Table.get_of_lookup known, Except.ok.injEq,
        exists_eq_left', setActionStatus_of_filed filed]
      simp only [State.content, Table.mapValues_insert]
      rfl
  | incidentOpened incident => exact ⟨t, by rw [openIncident_ok h]; rfl, rfl⟩
  | incidentUpdated incident => exact ⟨t, updateIncident_ok h, rfl⟩
  | incidentResolved => exact ⟨t, resolveIncident_ok h, rfl⟩
  | _ => simp at h

/-- The second interpreter accepts neither receipts of imports nor fences. -/
theorem applyValidatedLifecycleEvent_plain
    {source : LifecycleMigrationEvent} {event : Event}
    (h : applyValidatedLifecycleEvent p c s occurredAt source event = .ok (c', t)) :
  event.isImport = false ∧ event.isFence = false
  := by
  cases event <;> first | exact ⟨rfl, rfl⟩ | simp [applyValidatedLifecycleEvent] at h

/-- What an accepted event makes of the state is filed under its own ids again. -/
theorem applyValidatedLifecycleEvent_filed
    {source : LifecycleMigrationEvent} {event : Event} (filed : Filed s)
    (h : applyValidatedLifecycleEvent p c s occurredAt source event = .ok (c', t)) :
  Filed t
  := by
  obtain ⟨r, applied, same⟩ := applyValidatedLifecycleEvent_refines filed 0 .unset h
  have frame := State.applyEvent_frame applied
  simp only [applyValidatedLifecycleEvent] at h
  cases event with
  | actionApplied action =>
      rw [applyAction_ok h]
      exact filed.insert_action action
  | effectPrepared effect =>
      obtain ⟨-, -, rfl⟩ := prepareEffect_ok h
      exact filed.insert_effect effect
  | effectDispatched id at_ =>
      obtain ⟨effect, -, -, -, rfl⟩ := dispatchEffect_ok h
      exact filed.insert_effect { effect with status := .dispatched, updatedAt := at_ }
  | effectReconciling id at_ =>
      obtain ⟨effect, action, -, -, -, -, rfl⟩ := reconcileEffect_ok h
      exact (filed.insert_action { action with status := .reconciling }).insert_effect
        { effect with status := .reconciling, updatedAt := at_ }
  | effectObserved id status receipt updatedAt =>
      obtain ⟨effect, -, -, -, -, rfl⟩ := observeEffect_ok h
      cases s.actions.lookup effect.id with
      | none => exact filed.insert_effect { effect with status, receipt, updatedAt }
      | some action =>
          exact (filed.insert_action
            { action with status := State.actionStatusOf status }).insert_effect
              { effect with status, receipt, updatedAt }
  -- no other event writes actions or effects
  | _ =>
      refine Filed.congr ⟨?_, ?_⟩ same.symm
      · rw [frame.actions rfl]
        exact filed.actions
      · rw [frame.effects rfl]
        exact filed.effects

/-! ### Histories -/

/-- The second interpreter goes from one ledger of admissions and state to another over events, under
ledgers of commands that keep the admissions. -/
inductive Simulates (p : Platform) :
    Table Unit → State → List LifecycleMigrationEvent → Table Unit → State → Prop where
  | nil (admissions : Table Unit) (s : State) : Simulates p admissions s [] admissions s
  | cons {c c' : LifecycleRecordContext} {s t s' : State} {admissions admissions' : Table Unit}
      {occurredAt : Stamp} {event : LifecycleMigrationEvent} {value : Event}
      {rest : List LifecycleMigrationEvent} (ledger : c.effectAdmissions = admissions)
      (read : event.read = .ok value)
      (applied : applyValidatedLifecycleEvent p c s occurredAt event value = .ok (c', t))
      (next : Simulates p c'.effectAdmissions t rest admissions' s') :
    Simulates p admissions s (event :: rest) admissions' s'

variable {admissions admissions' : Table Unit} {s' : State}
  {events : List LifecycleMigrationEvent}

/-- Histories are simulated one after the other. -/
theorem Simulates.append
    {a a' a'' : Table Unit} {s s' s'' : State} {front back : List LifecycleMigrationEvent}
    (first : Simulates p a s front a' s') (second : Simulates p a' s' back a'' s'') :
  Simulates p a s (front ++ back) a'' s''
  := by
  induction first with
  | nil => exact second
  | cons ledger read applied _ ih => exact .cons ledger read applied (ih second)

/-- The simulation of a history is one of its parts. -/
theorem Simulates.split
    {front back : List LifecycleMigrationEvent}
    (all : Simulates p admissions s (front ++ back) admissions' s') :
  ∃ a t, Simulates p admissions s front a t ∧ Simulates p a t back admissions' s'
  := by
  induction front generalizing admissions s with
  | nil => exact ⟨admissions, s, .nil admissions s, all⟩
  | cons event front ih =>
      cases all with
      | cons ledger read applied next =>
          obtain ⟨a, t, first, second⟩ := ih next
          exact ⟨a, t, .cons ledger read applied first, second⟩

/-- The events of a command that are applied are simulated. -/
theorem simulates_of_events
    {c c' : LifecycleRecordContext} {s s' : State}
    (h : events.foldlM (applyEvent p occurredAt) (c, s) = .ok (c', s')) :
  Simulates p c.effectAdmissions s events c'.effectAdmissions s'
  := by
  induction events generalizing c s with
  | nil =>
      obtain ⟨rfl, rfl⟩ : c = c' ∧ s = s' := by simpa using h
      exact .nil _ _
  | cons event rest ih =>
      simp only [List.foldlM_cons, bind_eq_ok, applyEvent] at h
      obtain ⟨⟨c₁, t⟩, ⟨value, read, applied⟩, rest⟩ := h
      exact .cons rfl read applied (ih rest)

/-- The commands of a history that are applied are simulated. -/
theorem simulates_of_commands
    {commands : List SourceCommand} {c c' : LifecycleRecordContext} {s s' : State}
    (h : commands.foldlM (applyCommand p) (c, s) = .ok (c', s')) :
  Simulates p c.effectAdmissions s (commands.flatMap SourceCommand.events) c'.effectAdmissions s'
  := by
  induction commands generalizing c s with
  | nil =>
      obtain ⟨rfl, rfl⟩ : c = c' ∧ s = s' := by simpa using h
      exact .nil _ _
  | cons command rest ih =>
      simp only [List.foldlM_cons, bind_eq_ok, applyCommand] at h
      obtain ⟨⟨c₁, t⟩, ⟨_, -, ⟨c₂, t₂⟩, first, _, -, same⟩, rest⟩ := h
      obtain ⟨rfl, rfl⟩ : c₂ = c₁ ∧ t₂ = t := by simpa using same
      rw [List.flatMap_cons]
      exact (simulates_of_events first).append (ih rest)

/-- An accepted history is simulated from no admissions. -/
theorem simulates_of_sequence
    {commands : List SourceCommand} {s s' : State}
    (h : simulateLifecycleEventSequence p s commands = .ok s') :
  (∃ admissions', Simulates p ∅ s (commands.flatMap SourceCommand.events) admissions' s') ∧
    validateMigratedState s' (preparedDocument commands) = .ok ()
  := by
  simp only [simulateLifecycleEventSequence, bind_eq_ok] at h
  obtain ⟨⟨c, t⟩, applied, _, valid, same⟩ := h
  obtain rfl : t = s' := by simpa using same
  exact ⟨⟨_, simulates_of_commands applied⟩, valid⟩

/-! ### The reducer over a history -/

/-- An event that reads from the journal as the importer read it is committed as it was read. -/
theorem committed_of_read
    {event : LifecycleMigrationEvent} {value : Event} (faithful : event.stored = event.read)
    (read : event.read = .ok value) :
  event.committed = value
  := by
  simp [LifecycleMigrationEvent.committed, faithful, read]

/-- The reducer follows the second interpreter over the events of a history. -/
theorem Simulates.replays
    {r : State} (n : Nat) (at_ : Stamp) (all : Simulates p admissions s events admissions' s')
    (filed : Filed s) (same : r.content = s.content)
    (faithful : ∀ event ∈ events, event.stored = event.read) :
  ∃ r', (events.map LifecycleMigrationEvent.committed).foldlM (State.applyEvent p n at_) r = .ok r' ∧
    r'.content = s'.content ∧ Filed s'
  := by
  induction all generalizing r with
  | nil => exact ⟨r, rfl, same, filed⟩
  | cons ledger read applied _ ih =>
      obtain ⟨s₁, accepted, content⟩ := applyValidatedLifecycleEvent_refines filed n at_ applied
      obtain ⟨r₁, first, same₁⟩ := State.applyEvent_of_content_eq
        (applyValidatedLifecycleEvent_plain applied).1 same accepted
      obtain ⟨r', rest, same', filed'⟩ := ih (applyValidatedLifecycleEvent_filed filed applied)
        (same₁.trans content) fun event mem => faithful event (by simp [mem])
      refine ⟨r', ?_, same', filed'⟩
      rw [List.map_cons, committed_of_read (faithful _ (by simp)) read, List.foldlM_cons, first]
      exact rest

/-- The committed events of a history are no fences. -/
theorem Simulates.committed_plain
    (all : Simulates p admissions s events admissions' s')
    (faithful : ∀ event ∈ events, event.stored = event.read) :
  ∀ event ∈ events.map LifecycleMigrationEvent.committed, event.isFence = false
  := by
  induction all with
  | nil => simp
  | cons ledger read applied _ ih =>
      have rest := ih fun event mem => faithful event (by simp [mem])
      have first := committed_of_read (faithful _ (by simp)) read
      rw [List.map_cons, List.forall_mem_cons]
      exact ⟨first ▸ (applyValidatedLifecycleEvent_plain applied).2, rest⟩

/-- Replay follows the second interpreter over the events of a history, however they are divided
into segments. -/
theorem Simulates.reduces
    {r : Replay} {segments : List Segment} (all : Simulates p admissions s events admissions' s')
    (filed : Filed s) (active : r.retired = false) (same : r.state.content = s.content)
    (faithful : ∀ event ∈ events, event.stored = event.read)
    (divided : segments.flatMap Segment.events = events.map LifecycleMigrationEvent.committed) :
  ∃ r', Replay.run p r segments = .ok r' ∧ r'.state.content = s'.content
  := by
  induction segments generalizing r s admissions events with
  | nil =>
      obtain rfl : events = [] := by simpa using divided.symm
      cases all
      exact ⟨r, rfl, same⟩
  | cons segment rest ih =>
      rw [List.flatMap_cons] at divided
      obtain ⟨front, back, rfl, here, later⟩ := List.map_eq_append_iff.mp divided.symm
      obtain ⟨a, t, first, second⟩ := all.split
      have faithful₁ : ∀ event ∈ front, event.stored = event.read :=
        fun event mem => faithful event (by simp [mem])
      obtain ⟨s₁, replayed, same₁, filed₁⟩ :=
        first.replays segment.sequence segment.committedAt filed same faithful₁
      have plain := first.committed_plain faithful₁
      rw [here] at replayed plain
      have step : r.applySegment p segment = .ok { r with state := segment.close s₁ } := by
        rw [Replay.applySegment_of_not_fence active plain, State.applySegment, replayed]
        rfl
      obtain ⟨r', run, content⟩ := ih second filed₁ active (r := { r with state := segment.close s₁ })
        (by rw [State.content_close]; exact same₁) (fun event mem => faithful event (by simp [mem]))
        later.symm
      refine ⟨r', ?_, content⟩
      simp only [Replay.run, List.foldlM_cons, step, ok_bind]
      exact run

/-- A project without a run has its records filed. -/
theorem filed_of_pristine
    (pristine : s.Pristine) :
  Filed s
  := by
  constructor
  · intro id action found
    simp [AList.lookup, pristine.actions] at found
  · intro id effect found
    simp [AList.lookup, pristine.effects] at found

end Lifecycle

/-! ### The import -/

/-- Whether replay takes over the receipt of an import does not depend on its time. -/
theorem LifecycleMigrationManifest.importHistory_receipt
    {s s₁ : State} {manifest : LifecycleMigrationManifest} {id : String} {count sequence : Nat}
    {now : Instant} (now' : Instant)
    (h : s.importHistory sequence (manifest.receipt id count sequence now) = .ok s₁) :
  ∃ s₂, s.importHistory sequence (manifest.receipt id count sequence now') = .ok s₂ ∧
    s₂.content = s.content
  := by
  simp only [State.importHistory, receipt, bind_eq_ok, check_eq_ok] at h
  obtain ⟨_, bound, _, new, -⟩ := h
  refine ⟨{ s with
    lifecycleMigrations := s.lifecycleMigrations.insert id
      (manifest.receipt id count sequence now') }, ?_, rfl⟩
  simp only [State.importHistory, receipt, bind_eq_ok, check_eq_ok]
  exact ⟨(), bound, (), new, trivial⟩

/-- The reducer follows the second interpreter over an accepted history whose events read from the
journal as the importer read them: over any division of its events into segments, and over the one
segment of the import. -/
theorem reduceSegments_follows_simulation
    {p : Platform} {projectId trusted : String} {segments : List Segment} {s : State} {now : Instant}
    {manifest : LifecycleMigrationManifest} {valid : LifecycleValidation}
    (loaded : reduceSegments p projectId segments = .ok s)
    (accepted : validateLifecycleMigration p s segments now manifest trusted = .ok valid)
    (faithful : ∀ event ∈ valid.events, event.stored = event.read) :
  (∀ more : List Segment,
    more.flatMap Segment.events = valid.events.map LifecycleMigrationEvent.committed →
    ∃ r, reduceSegments p projectId (segments ++ more) = .ok r ∧
      r.content = valid.simulated.content) ∧
  ∀ env value b, value.manifest = manifest → value.trustedSourceAuthority = trusted →
    importLifecycleHistory p s segments env value = .ok (some b) →
    ∃ r, reduceSegments p projectId
        (segments ++ [b.segment p projectId s.headHash (s.headSequence + 1)]) = .ok r ∧
      r.content = valid.simulated.content
  := by
  have admitted := validateLifecycleMigration_ok accepted
  obtain ⟨⟨_, simulates⟩, -⟩ := Lifecycle.simulates_of_sequence admitted.simulated
  rw [← admitted.events] at simulates
  have filed := Lifecycle.filed_of_pristine admitted.pristine
  obtain ⟨_, migrated, reduced, -⟩ := admitted.reduced
  obtain rfl := (describes_of_reduceSegments loaded).projectId
  obtain ⟨r, run, state, active⟩ := active_of_reduceSegments loaded reduced
  constructor
  · intro more divided
    obtain ⟨r', rest, content⟩ := simulates.reduces filed active (by rw [state]) faithful divided
    refine ⟨r'.state, ?_, content⟩
    unfold Replay.run at run rest
    rw [reduceSegments_eq, Replay.run, List.foldlM_append, run, ok_bind, rest]
    rfl
  · rintro env value b rfl rfl imported
    obtain ⟨_, now', valid', accepted', events, -, -⟩ := importLifecycleHistory_ok imported
    obtain rfl := admitted.unique (validateLifecycleMigration_ok accepted')
    -- the receipt of the preflight was accepted, so the one that is committed is
    obtain ⟨s₁, preflight, -⟩ :=
      State.applySegment_ok (applySegment_of_reduceSegments loaded reduced)
    rw [List.foldlM_cons, bind_eq_ok] at preflight
    obtain ⟨s₂, receipt, -⟩ := preflight
    obtain ⟨s₃, receipt', same⟩ := LifecycleMigrationManifest.importHistory_receipt now' receipt
    obtain ⟨s₄, replayed, content, -⟩ := simulates.replays (s.headSequence + 1) (.utc b.committedAt)
      filed same faithful
    let segment := b.segment p s.projectId s.headHash (s.headSequence + 1)
    have plain : ∀ event ∈ segment.events, event.isFence = false := by
      change ∀ event ∈ b.events, event.isFence = false
      rw [events, List.forall_mem_cons]
      exact ⟨rfl, simulates.committed_plain faithful⟩
    have step : s.applySegment p segment = .ok (segment.close s₄) := by
      have first : s.applyEvent p segment.sequence segment.committedAt
          (.lifecycleHistoryImported (value.manifest.receipt
            (value.manifest.lifecycleMigrationID p) valid.events.length (s.headSequence + 1) now')) =
          .ok s₃ := receipt'
      have all : segment.events = b.events := rfl
      rw [State.applySegment, all, events, List.foldlM_cons, first, ok_bind]
      simp only [segment, Batch.segment] at replayed ⊢
      rw [replayed]
      rfl
    refine ⟨segment.close s₄, ?_, content⟩
    unfold Replay.run at run
    rw [reduceSegments_eq, Replay.run, List.foldlM_append, run, ok_bind, List.foldlM_cons,
      Replay.applySegment_of_not_fence active plain, state, step]
    rfl

/-! ### A history of one binding -/

namespace SampleHistory

/-- The hash text of zeros, which the plain platform gives every record. -/
def zeros : String := "0000000000000000000000000000000000000000000000000000000000000000"

/-- The project of the sample. -/
def project : String := "11111111-1111-4111-8111-111111111111"

/-- A graph with one role. -/
def graph : GraphDefinition where
  apiVersion := graphAPIVersion
  kind := "GraphDefinition"
  metadata := { name := "sample" }
  spec := { roles := [{ id := "dev", capabilities := [.nodeRun] }] }

/-- The journal with the import of the graph. -/
def journal : List Segment :=
  [{ schemaVersion := currentSegmentSchemaVersion
     sequence := 1
     projectId := project
     previousHash := ""
     command := { id := "c1", kind := "graph.import", idempotencyKey := "import" }
     events := [.graphImported graph zeros ""]
     committedAt := .utc 0
     segmentHash := zeros }]

/-- The state after the import of the graph. -/
def state : State :=
  ((reduceSegments .plain project journal).toOption).getD (State.new project)

/-- A binding of the role, with further members of its payload. -/
def binding (more : List (String × Json)) : LifecycleMigrationEvent where
  type := "role.bound"
  payload := .obj ([("roleId", .str "dev"), ("harness", .str "cli"), ("sessionId", .str "first"),
    ("boundAt", .str "1970-01-01T00:00:00Z"), ("expiresAt", .str "1970-01-01T01:00:00Z"),
    ("active", .bool true)] ++ more)

/-- The history of the binding. -/
def manifest (more : List (String × Json)) : LifecycleMigrationManifest where
  apiVersion := lifecycleMigrationAPIVersion
  kind := "LifecycleMigration"
  projectId := project
  graphRevision := zeros
  expectedJournalHead := zeros
  source :=
    { system := "tracker"
      project := "sample"
      authorityHash := digestPrefix ++ zeros
      headSequence := 1
      headEventId := "e1"
      headEventHash := digestPrefix ++ zeros }
  recordsDigest := digestPrefix ++ zeros
  records :=
    [{ sourceSequence := 1
       sourceEventId := "e1"
       sourceEventHash := digestPrefix ++ zeros
       occurredAt := .utc 0
       events := [binding more] }]

/-- The importer's answer to the history. -/
def answer (more : List (String × Json)) : Fallible LifecycleValidation :=
  validateLifecycleMigration .plain state journal 0 (manifest more) (digestPrefix ++ zeros)

/-- The segment with the binding as the journal keeps it. -/
def segment (more : List (String × Json)) : Segment where
  schemaVersion := currentSegmentSchemaVersion
  sequence := 2
  projectId := project
  previousHash := zeros
  command := { id := "c2", kind := "lifecycle.import-history" }
  events := [(binding more).committed]
  committedAt := .utc 0
  segmentHash := zeros

/-- The journal of the sample replays to its state. -/
theorem loaded : reduceSegments .plain project journal = .ok state := by
  have accepted : (reduceSegments .plain project journal).isOk = true := by decide
  unfold state
  cases replayed : reduceSegments .plain project journal with
  | error e => simp [replayed, Except.isOk, Except.toBool] at accepted
  | ok s => rfl

/-- The session that has the role after the history. -/
def holder (s : State) : String :=
  (s.leases.get "dev").sessionId

/-- Further members of a binding that name another session. -/
def twice : List (String × Json) :=
  [("SESSIONID", .str "second")]

/-- A history with one binding is admitted, and so is one whose binding names two sessions: the
importer reads the second one, and replay the first. -/
theorem runs :
  (answer []).map LifecycleValidation.events = .ok [binding []] ∧
  (answer twice).map (fun valid => (valid.events, holder valid.simulated)) =
    .ok ([binding twice], "second") ∧
  (reduceSegments .plain project (journal ++ [segment twice])).map holder = .ok "first"
  := by decide

end SampleHistory

open SampleHistory in
/-- A history with one binding leads both interpreters to one content. -/
theorem reduceSegments_follows_binding :
  ∃ valid r, SampleHistory.answer [] = .ok valid ∧
    reduceSegments .plain SampleHistory.project
      (SampleHistory.journal ++ [SampleHistory.segment []]) = .ok r ∧
    r.content = valid.simulated.content
  := by
  have admitted := runs.1
  cases accepted : answer [] with
  | error e => simp [accepted, Except.map] at admitted
  | ok valid =>
      have events : valid.events = [binding []] := by
        simpa [accepted, Except.map] using admitted
      have faithful : ∀ event ∈ valid.events, event.stored = event.read := by
        rw [events, List.forall_mem_singleton]
        exact LifecycleMigrationEvent.stored_eq_read (by decide)
      obtain ⟨r, reduced, content⟩ :=
        (reduceSegments_follows_simulation loaded accepted faithful).1 [segment []]
          (by rw [events]; rfl)
      exact ⟨valid, r, rfl, reduced, content⟩

open SampleHistory in
/-- A payload that binds a field twice, under names that differ in case, is read differently by the
importer and from the journal: the session the importer validated is not the one that is replayed. -/
theorem reduceSegments_leaves_simulation :
  ¬ ∀ (p : Platform) (projectId trusted : String) (segments : List Segment) (s : State)
      (now : Instant) (manifest : LifecycleMigrationManifest) (valid : LifecycleValidation),
    reduceSegments p projectId segments = .ok s →
    validateLifecycleMigration p s segments now manifest trusted = .ok valid →
    ∀ more : List Segment,
      more.flatMap Segment.events = valid.events.map LifecycleMigrationEvent.committed →
      ∃ r, reduceSegments p projectId (segments ++ more) = .ok r ∧
        r.content = valid.simulated.content
  := by
  intro always
  have admitted := runs.2.1
  have replayed := runs.2.2
  cases accepted : answer twice with
  | error e => simp [accepted, Except.map] at admitted
  | ok valid =>
      obtain ⟨events, simulated⟩ : valid.events = [binding twice] ∧
          holder valid.simulated = "second" := by
        simpa [accepted, Except.map] using admitted
      obtain ⟨r, reduced, content⟩ := always .plain project _ journal state 0 _ valid loaded accepted
        [segment twice] (by rw [events]; rfl)
      have leases : r.leases = valid.simulated.leases :=
        (congrArg State.leases content :)
      have same : holder r = holder valid.simulated := by
        unfold holder
        rw [leases]
      rw [reduced] at replayed
      have first : holder r = "first" := by simpa [Except.map] using replayed
      rw [simulated, first] at same
      exact absurd same (by decide)

end Dagrail
