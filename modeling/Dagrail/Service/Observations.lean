import Dagrail.Foundation.Outstanding
import Dagrail.Service.Dispatches

/-!
# Admissions of observations

A dispatch and a reconciliation are admitted by records of their own, and an observation uses the
admission up. Whether every observation has an admission of its own is decided by the retries of
reconciliations: the admission of a retry is answered by the record that its first call has left.
-/

namespace Dagrail

variable {p : Platform} {projectId : String} {allow : State → Call → Prop} {w w' : World}

/-! ### Admissions in the journal -/

/-- Does the event open an admission to observe the effect, or close it? An observation uses it up,
and another preparation of the effect starts over. -/
def Event.admission (actionId : String) : Event → Option Bool
  | .effectDispatched id _ => if id = actionId then some true else none
  | .effectReconciling id _ => if id = actionId then some true else none
  | .effectObserved id _ _ _ => if id = actionId then some false else none
  | .effectPrepared effect => if effect.id = actionId then some false else none
  | _ => none

/-- Is the event an observation of the effect? -/
def Event.Observes (actionId : String) (event : Event) : Prop :=
  ∃ status receipt updatedAt, event = .effectObserved actionId status receipt updatedAt

/-- The events of a journal. -/
def eventsOf (journal : List Segment) : List Event :=
  journal.flatMap Segment.events

/-- An admission to observe the effect is outstanding after the events. -/
def Admitted (actionId : String) (events : List Event) : Prop :=
  Outstanding (Event.admission actionId) events

/-- Every observation of an effect among the events finds an admission outstanding. -/
def Observed (past events : List Event) : Prop :=
  ∀ actionId, Accounted (Event.admission actionId) (Event.Observes actionId) past events

/-- An event that opens or closes an admission writes effects. -/
theorem Event.writesEffects_of_admission
    {event : Event} {actionId : String} {opens : Bool} (h : event.admission actionId = some opens) :
  event.writesEffects = true
  := by
  cases event <;> first | rfl | simp [Event.admission] at h

/-- What opens an admission is a dispatch or a reconciliation of the effect. -/
theorem Event.opens_cases
    {event : Event} {actionId : String} (opens : event.admission actionId = some true) :
  (∃ at_, event = .effectDispatched actionId at_) ∨ ∃ at_, event = .effectReconciling actionId at_
  := by
  cases event <;> simp [Event.admission] at opens
  · exact .inl ⟨_, by rw [opens]⟩
  · exact .inr ⟨_, by rw [opens]⟩

/-- What closes an admission is an observation or a preparation of the effect. -/
theorem Event.closes_cases
    {event : Event} {actionId : String} (closes : event.admission actionId = some false) :
  event.Observes actionId ∨ ∃ effect, event = .effectPrepared effect ∧ effect.id = actionId
  := by
  cases event <;> simp [Event.admission] at closes
  · exact .inr ⟨_, rfl, closes⟩
  · exact .inl ⟨_, _, _, by rw [closes]⟩

/-- An observation closes the admission of its effect. -/
theorem Event.Observes.closes
    {event : Event} {actionId : String} (observes : event.Observes actionId) :
  event.admission actionId = some false
  := by
  obtain ⟨status, receipt, updatedAt, rfl⟩ := observes
  simp [Event.admission]

/-! ### Admitted effects -/

/-- The effect is known, and its dispatch or its reconciliation is under way. -/
def State.UnderWay (s : State) (actionId : String) : Prop :=
  ∃ effect, s.effects.lookup actionId = some effect ∧
    (effect.status = .dispatched ∨ effect.status = .reconciling)

section

variable {s s' : State} {n : Nat} {at_ : Stamp} {event : Event} {actionId : String}

/-- An event that closes no admission of the effect leaves it under way, and one that opens an
admission brings it there. -/
theorem State.applyEvent_underWay
    (h : s.applyEvent p n at_ event = .ok s')
    (admitted : event.admission actionId = some true ∨
      (event.admission actionId ≠ some false ∧ s.UnderWay actionId)) :
  s'.UnderWay actionId
  := by
  have frame := applyEvent_frame h
  rcases admitted with opens | ⟨calm, effect, known, status⟩
  · rcases Event.opens_cases opens with ⟨dispatchedAt, rfl⟩ | ⟨reconcilingAt, rfl⟩
    · obtain ⟨effect, -, rfl⟩ := dispatchEffect_ok h
      exact ⟨_, by rw [Table.lookup_insert, if_pos rfl], .inl rfl⟩
    · obtain ⟨effect, -, rfl⟩ := reconcileEffect_ok h
      rw [setActionStatus_eq]
      exact ⟨_, by rw [Table.lookup_insert, if_pos rfl], .inr rfl⟩
  · cases event with
    | effectPrepared new =>
        obtain rfl := Except.ok.inj h
        have apart : actionId ≠ new.id := by
          rintro rfl
          simp [Event.admission] at calm
        exact ⟨effect, by rw [Table.lookup_insert, if_neg apart, known], status⟩
    | effectDispatched id dispatchedAt =>
        obtain ⟨old, found, rfl⟩ := dispatchEffect_ok h
        by_cases own : actionId = id
        · exact ⟨_, by rw [Table.lookup_insert, if_pos own], .inl rfl⟩
        · exact ⟨effect, by rw [Table.lookup_insert, if_neg own, known], status⟩
    | effectReconciling id reconcilingAt =>
        obtain ⟨old, found, rfl⟩ := reconcileEffect_ok h
        rw [setActionStatus_eq]
        by_cases own : actionId = id
        · exact ⟨_, by rw [Table.lookup_insert, if_pos own], .inr rfl⟩
        · exact ⟨effect, by rw [Table.lookup_insert, if_neg own, known], status⟩
    | effectObserved id observed receipt updatedAt =>
        obtain rfl := Except.ok.inj h
        rw [observeEffect, setActionStatus_eq]
        have apart : actionId ≠ id := by
          rintro rfl
          simp [Event.admission] at calm
        exact ⟨effect, by rw [Table.lookup_insert, if_neg apart, known], status⟩
    | _ => exact ⟨effect, by rw [frame.effects rfl, known], status⟩

/-- After events that are applied, an effect with an outstanding admission is under way. -/
theorem State.underWay_of_batch
    {past events : List Event} (before : Admitted actionId past → s.UnderWay actionId)
    (applied : events.foldlM (State.applyEvent p n at_) s = .ok s')
    (admitted : Admitted actionId (past ++ events)) :
  s'.UnderWay actionId
  := by
  induction events generalizing s past with
  | nil =>
      obtain rfl := Except.ok.inj applied
      exact before (by simpa using admitted)
  | cons event rest ih =>
      rw [List.foldlM_cons, bind_eq_ok] at applied
      obtain ⟨s₁, first, applied⟩ := applied
      have admitted' : Admitted actionId ((past ++ [event]) ++ rest) := by simpa using admitted
      refine ih ?_ applied admitted'
      intro admitted
      refine State.applyEvent_underWay first ?_
      rcases Outstanding.concat_cases admitted with opens | ⟨calm, earlier⟩
      · exact .inl opens
      · exact .inr ⟨calm, before earlier⟩

/-- In the state that a journal replays to, an effect with an outstanding admission is under way. -/
theorem State.underWay_of_admitted
    {journal : List Segment} (loaded : reduceSegments p projectId journal = .ok s)
    (admitted : Admitted actionId (eventsOf journal)) :
  s.UnderWay actionId
  := by
  induction journal using List.reverseRecOn generalizing s with
  | nil => exact absurd admitted Outstanding.not_nil
  | append_singleton front segment ih =>
      obtain ⟨s₀, before⟩ := reduceSegments_of_prefix loaded
      obtain ⟨s₁, events, rfl⟩ := State.applySegment_ok (applySegment_of_reduceSegments before loaded)
      have here : s₁.UnderWay actionId := by
        have admitted' : Admitted actionId (eventsOf front ++ segment.events) := by
          simpa [eventsOf] using admitted
        exact State.underWay_of_batch (ih before) events admitted'
      exact here

/-- Where replay comes to an observation that finds an admission outstanding, its effect is under
way. -/
theorem Moment.underWay
    {journal : List Segment} {segment : Segment}
    (moment : Moment p projectId journal segment event s s') (observed : Observed [] (eventsOf journal))
    (observes : event.Observes actionId) :
  s.UnderWay actionId
  := by
  obtain ⟨front, rest, before, after, r, segments, events, loaded, reached, -⟩ := moment
  have admitted : Admitted actionId ([] ++ (eventsOf front ++ before)) :=
    observed actionId (eventsOf front ++ before) event (after ++ eventsOf rest)
      (by simp [eventsOf, segments, events]) observes
  exact State.underWay_of_batch (State.underWay_of_admitted loaded) reached admitted

end

/-! ### Imported histories -/

namespace Lifecycle

variable {c c' : LifecycleRecordContext} {s t : State} {occurredAt : Stamp}

/-- A completion leaves the ledger of admissions alone. -/
theorem useCompletion_admissions
    {action : ActionRecord} {node : NodeDefinition} {input : Json}
    (h : useCompletion p c s action node input = .ok c') :
  c'.effectAdmissions = c.effectAdmissions
  := by
  simp only [useCompletion, bind_eq_ok, Except.ok.injEq, Prod.exists] at h
  obtain ⟨finish, -, c₁, classification, classified, c₂, consumed, rfl⟩ := h
  have first : c₁.effectAdmissions = c.effectAdmissions := by
    unfold completionClassification at classified
    split at classified
    · simp only [bind_eq_ok, Except.ok.injEq, Prod.mk.injEq] at classified
      obtain ⟨_, -, _, -, rfl, -⟩ := classified
      rfl
    · simp only [bind_eq_ok, Except.ok.injEq, Prod.mk.injEq] at classified
      obtain ⟨_, -, _, -, _, -, rfl, -⟩ := classified
      rfl
  unfold consumeCompletionIncidentEvent at consumed
  split at consumed
  · simp only [bind_eq_ok, Except.ok.injEq] at consumed
    obtain ⟨_, -, _, -, _, -, rfl⟩ := consumed
    exact first
  · simp only [bind_eq_ok, Except.ok.injEq] at consumed
    obtain ⟨_, -, rfl⟩ := consumed
    exact first

/-- A closure leaves the ledger of admissions alone. -/
theorem useResource_admissions
    {action : ActionRecord} {input : Json} (h : useResource c s action input = .ok c') :
  c'.effectAdmissions = c.effectAdmissions
  := by
  simp only [useResource, consumeResourceIncidentEvent, bind_eq_ok, Except.ok.injEq] at h
  obtain ⟨_, -, _, -, _, -, _, -, _, -, _, -, _, -, c₁, ⟨_, -, consumed⟩, rfl⟩ := h
  split at consumed
  · simp only [bind_eq_ok, Except.ok.injEq] at consumed
    obtain ⟨_, -, _, -, rfl⟩ := consumed
    rfl
  · simp only [bind_eq_ok, Except.ok.injEq] at consumed
    obtain ⟨_, -, _, -, _, -, _, -, rfl⟩ := consumed
    rfl

/-- An action leaves the ledger of admissions alone. -/
theorem validateLifecycleAction_admissions
    {action : ActionRecord} {input : Option Json}
    (h : validateLifecycleAction p c s action input = .ok c') :
  c'.effectAdmissions = c.effectAdmissions
  := by
  simp only [validateLifecycleAction, bind_eq_ok] at h
  obtain ⟨_, -, _, -, _, -, _, -, _, -, _, -, _, -, h⟩ := h
  split_ifs at h
  · simp only [useRenewal, bind_eq_ok, Except.ok.injEq] at h
    obtain ⟨_, -, _, -, _, -, _, -, rfl⟩ := h
    rfl
  · simp only [useStart, bind_eq_ok, Except.ok.injEq] at h
    obtain ⟨_, -, _, -, rfl⟩ := h
    rfl
  · simp only [useCheckpoint, bind_eq_ok, Except.ok.injEq] at h
    obtain ⟨_, -, _, -, _, -, rfl⟩ := h
    rfl
  · simp only [useStatus, bind_eq_ok, Except.ok.injEq] at h
    obtain ⟨_, -, rfl⟩ := h
    rfl
  · simp only [usePackage, bind_eq_ok, Except.ok.injEq] at h
    obtain ⟨_, -, _, -, rfl⟩ := h
    rfl
  · simp only [useReuse, bind_eq_ok, Except.ok.injEq] at h
    obtain ⟨_, -, _, -, rfl⟩ := h
    rfl
  · simp only [useEffect, bind_eq_ok, Except.ok.injEq] at h
    obtain ⟨_, -, _, -, rfl⟩ := h
    rfl
  · exact useResource_admissions h
  · exact useCompletion_admissions h

/-- An event that the importer accepts leaves the ledger of admissions alone unless it is one of an
effect. -/
theorem applyValidatedLifecycleEvent_admissions
    {source : LifecycleMigrationEvent} {event : Event}
    (h : applyValidatedLifecycleEvent p c s occurredAt source event = .ok (c', t))
    (other : event.writesEffects = false) :
  c'.effectAdmissions = c.effectAdmissions
  := by
  simp only [applyValidatedLifecycleEvent] at h
  cases event with
  | roleBound lease =>
      simp only [bindRole, bind_eq_ok, Except.ok.injEq, Prod.mk.injEq] at h
      obtain ⟨_, -, _, -, _, -, rfl, -⟩ := h
      rfl
  | roleTransferred transfer =>
      simp only [transferRole, bind_eq_ok, Except.ok.injEq, Prod.mk.injEq] at h
      obtain ⟨_, -, _, -, _, -, _, -, _, -, _, -, rfl, -⟩ := h
      rfl
  | roleReleased roleId releasedAt =>
      simp only [releaseRole, bind_eq_ok, Except.ok.injEq, Prod.mk.injEq] at h
      obtain ⟨_, -, rfl, -⟩ := h
      rfl
  | attemptStarted attempt | attemptLeased attempt =>
      simp only [startAttempt, bind_eq_ok, Except.ok.injEq, Prod.mk.injEq] at h
      obtain ⟨_, -, _, -, _, -, _, -, _, -, rfl, -⟩ := h
      rfl
  | attemptStatusChanged attemptId status updatedAt =>
      simp only [changeAttemptStatus, bind_eq_ok, Except.ok.injEq, Prod.mk.injEq] at h
      obtain ⟨_, -, rfl, -⟩ := h
      rfl
  | attemptCheckpointed checkpoint =>
      simp only [recordCheckpoint, bind_eq_ok, Except.ok.injEq, Prod.mk.injEq] at h
      obtain ⟨_, -, _, -, _, -, _, -, rfl, -⟩ := h
      rfl
  | evidencePackagePublished pack =>
      simp only [publishPackage, bind_eq_ok, Except.ok.injEq, Prod.mk.injEq] at h
      obtain ⟨_, -, _, -, _, -, _, -, _, -, rfl, -⟩ := h
      rfl
  | evidenceReuseAssessed decision =>
      simp only [assessReuse, bind_eq_ok, Except.ok.injEq, Prod.mk.injEq] at h
      obtain ⟨_, -, _, -, _, -, _, -, _, -, _, -, rfl, -⟩ := h
      rfl
  | decisionRecorded decision =>
      simp only [recordDecision, bind_eq_ok, Except.ok.injEq, Prod.mk.injEq] at h
      obtain ⟨_, -, _, -, _, -, rfl, -⟩ := h
      rfl
  | attemptFinished attemptId outcome outcomeClass facts updatedAt =>
      simp only [finishAttempt, bind_eq_ok, Except.ok.injEq, Prod.mk.injEq] at h
      obtain ⟨_, -, _, -, _, -, _, -, _, -, _, -, _, -, rfl, -⟩ := h
      rfl
  | resourceLeased resource =>
      simp only [leaseResource, bind_eq_ok, Except.ok.injEq, Prod.mk.injEq] at h
      obtain ⟨_, -, _, -, _, -, _, -, _, -, rfl, -⟩ := h
      rfl
  | resourceClosureObserved id status receipt updatedAt =>
      simp only [observeClosure, bind_eq_ok, Except.ok.injEq, Prod.mk.injEq] at h
      obtain ⟨_, -, _, -, rfl, -⟩ := h
      rfl
  | resourceReleased resourceId releasedAt =>
      simp only [releaseResource, bind_eq_ok, Except.ok.injEq, Prod.mk.injEq] at h
      obtain ⟨_, -, rfl, -⟩ := h
      rfl
  | actionApplied action =>
      simp only [applyAction, bind_eq_ok, Except.ok.injEq, Prod.mk.injEq] at h
      obtain ⟨_, valid, _, -, _, -, _, -, rfl, -⟩ := h
      have kept := validateLifecycleAction_admissions valid
      exact kept
  | effectPrepared | effectDispatched | effectReconciling | effectObserved => cases other
  | incidentOpened incident =>
      simp only [openIncident, fileIncident, bind_eq_ok, Except.ok.injEq, Prod.mk.injEq] at h
      obtain ⟨_, -, _, -, _, -, rfl, -⟩ := h
      rfl
  | incidentUpdated incident =>
      simp only [updateIncident, fileIncident, bind_eq_ok, Except.ok.injEq, Prod.mk.injEq] at h
      obtain ⟨_, -, _, -, _, -, rfl, -⟩ := h
      rfl
  | incidentResolved incidentId resolvedAt =>
      simp only [resolveIncident, bind_eq_ok, Except.ok.injEq, Prod.mk.injEq] at h
      obtain ⟨_, -, _, -, rfl, -⟩ := h
      rfl
  | _ => cases h

/-- The admissions of the ledger are outstanding after the events so far, and they are of known
effects. -/
def Backs (past : List Event) (s : State) (admissions : Table Unit) : Prop :=
  ∀ actionId, admissions.has actionId = true → Admitted actionId past ∧ s.effects.has actionId = true

/-- An admission of an effect backs the ledger it is entered in. -/
theorem Backs.opens
    {past : List Event} {event : Event} {actionId : String} {admissions : Table Unit}
    {effect : EffectAction}
    (backs : Backs past s admissions) (known : t.effects = s.effects.insert actionId effect)
    (mark : ∀ id, event.admission id = if actionId = id then some true else none) :
  Backs (past ++ [event]) t (admissions.insert actionId ())
  := by
  intro id held
  rw [Table.has_insert] at held
  rw [known, Table.has_insert]
  by_cases own : id = actionId
  · exact ⟨Outstanding.of_opens (by rw [mark, if_pos own.symm]), by simp [own]⟩
  · obtain ⟨outstanding, has⟩ := backs id (by simpa [own] using held)
    refine ⟨Outstanding.append outstanding ?_, by simp [has]⟩
    simp [mark]

/-- An event that the importer accepts observes an effect with an outstanding admission only, and
keeps the ledger backed. -/
theorem Backs.step
    {source : LifecycleMigrationEvent} {event : Event} {past : List Event} (filed : Filed s)
    (backs : Backs past s c.effectAdmissions)
    (h : applyValidatedLifecycleEvent p c s occurredAt source event = .ok (c', t)) :
  (∀ actionId, event.Observes actionId → Admitted actionId past) ∧
    Backs (past ++ [event]) t c'.effectAdmissions
  := by
  cases writes : event.writesEffects with
  | false =>
      have unmarked : ∀ id, event.admission id = none := by
        intro id
        cases marked : event.admission id with
        | none => rfl
        | some opens => simp [Event.writesEffects_of_admission marked] at writes
      obtain ⟨r, applied, same⟩ := applyValidatedLifecycleEvent_refines filed 0 .unset h
      have kept := (State.applyEvent_frame applied).effects writes
      refine ⟨fun id observes => ?_, fun id held => ?_⟩
      · have closes := observes.closes
        simp [unmarked] at closes
      · rw [applyValidatedLifecycleEvent_admissions h writes] at held
        obtain ⟨outstanding, has⟩ := backs id held
        refine ⟨Outstanding.append outstanding (by simp [unmarked]), ?_⟩
        rw [← Table.has_of_mapValues_eq (congrArg State.effects same), kept]
        exact has
  | true =>
      simp only [applyValidatedLifecycleEvent] at h
      cases event with
      | effectPrepared effect =>
          obtain ⟨⟨-, new, -⟩, ledger, rfl⟩ := prepareEffect_ok h
          refine ⟨fun id observes => ?_, fun id held => ?_⟩
          · obtain ⟨_, _, _, same⟩ := observes
            cases same
          · obtain ⟨outstanding, has⟩ := backs id (by rw [ledger] at held; exact held)
            have apart : effect.id ≠ id := by
              rintro rfl
              simp [new] at has
            refine ⟨Outstanding.append outstanding ?_, ?_⟩
            · simp [Event.admission, apart]
            · simp [Table.has_insert, has]
      | effectDispatched actionId dispatchedAt =>
          obtain ⟨effect, known, -, ledger, rfl⟩ := dispatchEffect_ok h
          obtain rfl : effect.id = actionId := filed.effects actionId effect known
          refine ⟨fun id observes => ?_, ?_⟩
          · obtain ⟨_, _, _, same⟩ := observes
            cases same
          · rw [ledger]
            exact backs.opens rfl fun id => rfl
      | effectReconciling actionId reconcilingAt =>
          obtain ⟨effect, action, known, -, -, ledger, rfl⟩ := reconcileEffect_ok h
          obtain rfl : effect.id = actionId := filed.effects actionId effect known
          refine ⟨fun id observes => ?_, ?_⟩
          · obtain ⟨_, _, _, same⟩ := observes
            cases same
          · rw [ledger]
            exact backs.opens rfl fun id => rfl
      | effectObserved actionId status receipt updatedAt =>
          obtain ⟨effect, known, -, admitted, ledger, rfl⟩ := observeEffect_ok h
          obtain rfl : effect.id = actionId := filed.effects actionId effect known
          refine ⟨fun id observes => ?_, fun id held => ?_⟩
          · obtain ⟨_, _, _, same⟩ := observes
            obtain ⟨rfl, -⟩ := Event.effectObserved.inj same
            exact (backs _ admitted).1
          · rw [ledger] at held
            have apart : effect.id ≠ id := by
              rintro rfl
              simp [Table.has, AList.lookup_erase] at held
            obtain ⟨outstanding, has⟩ :=
              backs id (by simpa [Table.has, AList.lookup_erase_ne apart.symm] using held)
            refine ⟨Outstanding.append outstanding ?_, ?_⟩
            · simp [Event.admission, apart]
            · simp [Table.has_insert, has]
      | _ => cases writes

/-- Every observation of a simulated history finds an admission outstanding. -/
theorem Simulates.observed
    {a a' : Table Unit} {s' : State} {events : List LifecycleMigrationEvent} {past : List Event}
    (all : Simulates p a s events a' s') (filed : Filed s)
    (faithful : ∀ event ∈ events, event.stored = event.read) (backs : Backs past s a) :
  Observed past (events.map LifecycleMigrationEvent.committed)
  := by
  induction all generalizing past with
  | nil => exact fun id => Accounted.of_unused (by simp)
  | cons ledger read applied _ ih =>
      obtain ⟨here, backs'⟩ := Backs.step filed (ledger ▸ backs) applied
      have rest := ih (applyValidatedLifecycleEvent_filed filed applied)
        (fun event mem => faithful event (by simp [mem])) backs'
      rw [List.map_cons, committed_of_read (faithful _ (by simp)) read]
      exact fun id => Accounted.cons (here id) (rest id)

end Lifecycle

/-! ### Batches -/

section

variable {s : State} {env : Env} {events : List Event}

/-- Events without observations are accounted for. -/
theorem Observed.of_unobserved
    {past : List Event} (unobserved : ∀ event ∈ events, ∀ actionId, ¬ event.Observes actionId) :
  Observed past events
  := fun actionId => Accounted.of_unused fun event mem => unobserved event mem actionId

/-- An import goes to a project without effects, and every observation it brings finds an admission
outstanding. -/
theorem Call.start_imports
    {segments : List Segment} {value : LifecycleImportInput} {b : Batch} {saga : Saga}
    (faithful : (Call.importHistory value).Faithful)
    (h : (Call.importHistory value).start p s segments env = .ok (some (b, saga))) (past : List Event) :
  s.effects.entries = [] ∧ Observed past b.events
  := by
  have started := Call.start_ok h
  cases started with
  | importHistory _ _ made =>
      obtain ⟨_, _, valid, admitted, events, -, -⟩ := importLifecycleHistory_ok made
      have admitted := validateLifecycleMigration_ok admitted
      obtain ⟨⟨_, simulates⟩, -⟩ := Lifecycle.simulates_of_sequence admitted.simulated
      refine ⟨admitted.pristine.effects, ?_⟩
      rw [events, admitted.events]
      refine fun actionId => Accounted.cons (fun observes => ?_)
        (simulates.observed (Lifecycle.filed_of_pristine admitted.pristine)
          (faithful _ admitted.commands) (fun id held => ?_) actionId)
      · obtain ⟨_, _, _, same⟩ := observes
        cases same
      · simp [Table.has_empty] at held

/-- A pending batch closes the admission of an effect only in the observation of a call about the
effect, with its lock, or in a project without effects. -/
theorem Job.Computed.closes
    {job : Job} {base : List Segment} {batch : Batch} {event : Event} {actionId : String}
    (computed : job.Computed p (fun _ call => call.Faithful) s env)
    (pending : job.stage.pending = some (base, batch))
    (mem : event ∈ batch.events) (closes : event.admission actionId = some false) :
  (job.stage = .observing base batch ∧ job.saga.actionId = actionId) ∨ job.lock = some actionId ∨
    s.effects.entries = []
  := by
  have writes := Event.writesEffects_of_admission closes
  unfold Job.Computed at computed
  split at computed
  · rename_i base' batch' stage
    obtain ⟨rfl, rfl⟩ : base' = base ∧ batch' = batch := by
      simpa [stage, Stage.pending] using pending
    obtain ⟨start, faithful, -, lock⟩ := computed
    cases Call.start_writesEffect start mem writes with
    | prepare action effect applies prepares prepared own =>
        subst prepared
        right; left
        have same : effect.id = actionId := by simpa [Event.admission] using closes
        rw [lock, applies, ← same, own]
        simp [Call.lock, prepares]
    | reconcile id reconcilingAt reconciling =>
        subst reconciling
        simp [Event.admission] at closes
    | imported value imports =>
        rw [imports] at start faithful
        exact .inr (.inr (Call.start_imports faithful start []).1)
  · rename_i base' batch' stage
    obtain ⟨rfl, rfl⟩ : base' = base ∧ batch' = batch := by
      simpa [stage, Stage.pending] using pending
    obtain ⟨call, -, admission⟩ := computed
    obtain ⟨events, -⟩ := dispatchAdmission_ok admission
    obtain rfl := List.mem_singleton.mp (events ▸ mem)
    simp [Event.admission] at closes
  · rename_i base' batch' stage
    obtain ⟨rfl, rfl⟩ : base' = base ∧ batch' = batch := by
      simpa [stage, Stage.pending] using pending
    obtain ⟨receipt, observation⟩ := computed
    obtain ⟨effect', status, document, -, -, events, -⟩ := observeEffect_ok observation
    rw [events] at mem
    rcases List.mem_cons.mp mem with rfl | mem
    · exact .inl ⟨stage, by simpa [Event.admission] using closes⟩
    · rcases mem_observationEvents mem with rfl | rfl <;> cases writes
  · rename_i idle _ _
    unfold Stage.pending at pending
    split at pending <;> simp_all

/-- The observations of a pending batch find admissions outstanding if the call that is about to
observe its effect has one. -/
theorem Job.Computed.observed
    {job : Job} {base : List Segment} {batch : Batch} {past : List Event}
    (computed : job.Computed p (fun _ call => call.Faithful) s env)
    (pending : job.stage.pending = some (base, batch))
    (admitted : ∀ batch, job.stage = .observing base batch → Admitted job.saga.actionId past) :
  Observed past batch.events
  := by
  unfold Job.Computed at computed
  split at computed
  · rename_i base' batch' stage
    obtain ⟨rfl, rfl⟩ : base' = base ∧ batch' = batch := by
      simpa [stage, Stage.pending] using pending
    obtain ⟨start, faithful, -⟩ := computed
    by_cases import_ : ∃ value, job.call = .importHistory value
    · obtain ⟨value, import_⟩ := import_
      rw [import_] at start faithful
      exact (Call.start_imports faithful start past).2
    · refine .of_unobserved fun event mem actionId observes => ?_
      have writes := Event.writesEffects_of_admission observes.closes
      obtain ⟨status, receipt, updatedAt, rfl⟩ := observes
      cases Call.start_writesEffect start mem writes with
      | prepare _ _ _ _ same => cases same
      | reconcile _ _ same => cases same
      | imported value imports => exact import_ ⟨value, imports⟩
  · rename_i base' batch' stage
    obtain ⟨rfl, rfl⟩ : base' = base ∧ batch' = batch := by
      simpa [stage, Stage.pending] using pending
    obtain ⟨call, -, admission⟩ := computed
    obtain ⟨events, -⟩ := dispatchAdmission_ok admission
    refine .of_unobserved fun event mem actionId observes => ?_
    obtain rfl := List.mem_singleton.mp (events ▸ mem)
    obtain ⟨_, _, _, same⟩ := observes
    cases same
  · rename_i base' batch' stage
    obtain ⟨rfl, rfl⟩ : base' = base ∧ batch' = batch := by
      simpa [stage, Stage.pending] using pending
    obtain ⟨receipt, observation⟩ := computed
    obtain ⟨effect', status, document, -, -, events, -⟩ := observeEffect_ok observation
    rw [events]
    refine fun actionId => Accounted.cons (fun observes => ?_) (Accounted.of_unused ?_)
    · obtain ⟨_, _, _, same⟩ := observes
      obtain ⟨rfl, -⟩ := Event.effectObserved.inj same
      exact admitted _ stage
    · intro event mem observes
      obtain ⟨_, _, _, rfl⟩ := observes
      rcases mem_observationEvents mem with same | same <;> cases same
  · rename_i idle _ _
    unfold Stage.pending at pending
    split at pending <;> simp_all

end

/-! ### Calls about effects -/

/-- Is the first append of the call over? -/
def Stage.begun : Stage → Bool
  | .starting .. => false
  | _ => true

/-- Has the call gone on to the adapter of its effect, or may it? -/
def Stage.mayAsk : Stage → Bool
  | .admitted | .reconciling | .answered _ | .observing .. => true
  | _ => false

/-- A call that goes on holds the lock of its effect, and once it is admitted, an admission is
outstanding after the events. -/
structure Job.Entitled (p : Platform) (events : List Event) (job : Job) : Prop where
  lock : job.stage.begun = true → job.lock = some job.saga.actionId
  own : job.stage.begun = true → ∀ call, job.call = .apply call →
    job.saga.actionId = call.ref.actionId p
  admitted : job.stage.mayAsk = true → Admitted job.saga.actionId events

/-- A call that goes on after its first append is about the effect it holds the lock of. -/
theorem Job.Computed.begun
    {s : State} {env : Env} {job job' : Job} {base : List Segment} {batch : Batch} {created : Bool}
    (computed : job.Computed p allow s env) (starting : job.stage = .starting base batch)
    (next : job.after created = some job') :
  job'.lock = some job'.saga.actionId ∧
    (∀ call, job'.call = .apply call → job'.saga.actionId = call.ref.actionId p) ∧
    (job'.stage.mayAsk = true → Admitted job'.saga.actionId batch.events)
  := by
  obtain ⟨call, held, saga, stage⟩ := job
  obtain rfl : stage = .starting base batch := starting
  obtain ⟨start, -, -, lock⟩ := computed
  simp only [Job.after, Option.map_eq_some_iff] at next
  obtain ⟨stage, next, rfl⟩ := next
  cases Call.start_ok start with
  | apply call b made =>
      obtain ⟨prepares, rfl⟩ : (call.prepares && created) = true ∧ Stage.prepared = stage := by
        simpa [Job.next] using next
      rw [Bool.and_eq_true] at prepares
      refine ⟨?_, ?_, by simp [Stage.mayAsk]⟩
      · rw [lock]
        simp [Call.lock, prepares.1]
      · rintro call' same
        obtain rfl := Call.apply.inj same
        rfl
  | reconcile value b effect made =>
      obtain ⟨-, -, events, -⟩ := reconcileAdmission_ok made
      refine ⟨lock, by simp, fun _ => ?_⟩
      rw [events]
      exact Outstanding.single (by simp [Event.admission])
  | _ => simp [Job.next] at next

/-- What goes on after an admission that is appended has an outstanding admission. -/
theorem Job.Computed.dispatches
    {s : State} {env : Env} {job job' : Job} {base : List Segment} {batch : Batch} {created : Bool}
    {events : List Event} (computed : job.Computed p allow s env) (entitled : job.Entitled p events)
    (admitting : job.stage = .admitting base batch) (next : job.after created = some job') :
  job'.call = job.call ∧ job'.lock = job.lock ∧ job'.saga = job.saga ∧
    Admitted job'.saga.actionId batch.events
  := by
  simp only [Job.Computed, admitting] at computed
  obtain ⟨call, applies, admission⟩ := computed
  simp only [Job.after, Option.map_eq_some_iff] at next
  obtain ⟨stage, next, rfl⟩ := next
  refine ⟨rfl, rfl, rfl, ?_⟩
  obtain ⟨events, -⟩ := dispatchAdmission_ok admission
  rw [events]
  refine Outstanding.single ?_
  have own := entitled.own (by simp [admitting, Stage.begun]) call applies
  simp [Event.admission, own]

/-- A call that goes on after an append is about the effect it holds the lock of, and if it may go
to the adapter after the append, the append is an admission. -/
theorem Job.Entitled.after
    {s : State} {env : Env} {job job' : Job} {base : List Segment} {batch : Batch} {created : Bool}
    {events : List Event} (entitled : job.Entitled p events) (computed : job.Computed p allow s env)
    (pending : job.stage.pending = some (base, batch)) (next : job.after created = some job') :
  job'.lock = some job'.saga.actionId ∧
    (∀ call, job'.call = .apply call → job'.saga.actionId = call.ref.actionId p) ∧
    (job'.stage.mayAsk = true → Admitted job'.saga.actionId batch.events)
  := by
  cases stage : job.stage with
  | starting base' batch' =>
      obtain ⟨rfl, rfl⟩ : base' = base ∧ batch' = batch := by
        simpa [stage, Stage.pending] using pending
      exact computed.begun stage next
  | admitting base' batch' =>
      obtain ⟨rfl, rfl⟩ : base' = base ∧ batch' = batch := by
        simpa [stage, Stage.pending] using pending
      obtain ⟨called, held, saga, admitted⟩ := computed.dispatches entitled stage next
      have begun : job.stage.begun = true := by simp [stage, Stage.begun]
      refine ⟨?_, ?_, fun _ => admitted⟩
      · rw [held, saga]
        exact entitled.lock begun
      · rw [called, saga]
        exact entitled.own begun
  | observing base' batch' =>
      simp [Job.after, Job.next, stage] at next
  | _ => simp [stage, Stage.pending] at pending

/-- Every call in progress is entitled to what it goes on to do, and every observation in the
journal has found an admission outstanding. -/
structure World.Entitled (p : Platform) (w : World) : Prop where
  jobs : ∀ i job, w.jobs i = some job → job.Entitled p (eventsOf w.journal)
  observed : Observed [] (eventsOf w.journal)

/-- A step resumes with an admission: a call that may go on to its adapter although nothing was
appended, since its admission was found in the journal, finds an admission outstanding there. -/
def Resumes (w w' : World) : Prop :=
  ∀ i job job', w.jobs i = some job → w'.jobs i = some job' → job.stage.mayAsk = false →
    job'.stage.mayAsk = true → w'.journal = w.journal →
    Admitted job'.saga.actionId (eventsOf w.journal)

/-- A call that is admitted has begun. -/
theorem Stage.begun_of_admitted
    {stage : Stage} (admitted : stage.mayAsk = true) :
  stage.begun = true
  := by
  cases stage <;> first | rfl | cases admitted

/-- The calls stay entitled when an entitled one is written. -/
theorem World.Entitled.setJob
    {w₁ : World} (entitled : w.Entitled p) (journal : w₁.journal = w.journal)
    (jobs : w₁.jobs = w.jobs) (k : Nat) (new : Option Job)
    (own : ∀ job, new = some job → job.Entitled p (eventsOf w.journal)) :
  (w₁.setJob k new).Entitled p
  := by
  have same : (w₁.setJob k new).journal = w.journal := journal
  constructor
  · intro i job running
    rw [same]
    rcases World.jobs_setJob running with ⟨-, made⟩ | ⟨-, there⟩
    · exact own job made
    · exact entitled.jobs i job (jobs ▸ there)
  · rw [same]
    exact entitled.observed

/-- A call that goes on without an append stays entitled, if it may go to its adapter already or may
not yet. -/
theorem Job.Entitled.moved
    {events : List Event} {job : Job} (entitled : job.Entitled p events)
    (begun : job.stage.begun = true)
    (stage : Stage) (kept : stage.mayAsk = true → job.stage.mayAsk = true) :
  Job.Entitled p events { job with stage }
  :=
  ⟨fun _ => entitled.lock begun, fun _ => entitled.own begun,
    fun admitted => entitled.admitted (kept admitted)⟩

/-- An append by another call leaves a call entitled. -/
theorem Job.Entitled.appended
    {s : State} {env : Env} {i k : Nat} {job job₀ : Job} {batch : Batch} {segment : Segment}
    (reachable : Reachable p projectId (fun _ call => call.Faithful) w) (entitled : w.Entitled p)
    (created : Created p projectId (fun _ call => call.Faithful) w job₀ batch segment s env)
    (there : w.jobs k = some job₀) (running : w.jobs i = some job) (apart : i ≠ k) :
  job.Entitled p (eventsOf w.journal ++ batch.events)
  := by
  have before := entitled.jobs i job running
  refine ⟨before.lock, before.own, fun admitted => ?_⟩
  have held := before.lock (Stage.begun_of_admitted admitted)
  have outstanding := before.admitted admitted
  refine Outstanding.append outstanding fun event mem closes => ?_
  rcases created.grounded.computed.closes created.pending mem closes with
    ⟨observing, own⟩ | lock | none_
  · refine reachable.locks running there apart held ?_
    rw [(entitled.jobs k job₀ there).lock (by simp [observing, Stage.begun]), own]
  · exact reachable.locks running there apart held lock
  · obtain ⟨effect, known, -⟩ := State.underWay_of_admitted created.grounded.loaded outstanding
    simp [AList.lookup, none_] at known

/-- A step of a run with faithful imports that resumes with admissions only keeps the calls
entitled. -/
theorem World.Entitled.step
    (entitled : w.Entitled p) (reachable : Reachable p projectId (fun _ call => call.Faithful) w)
    (free : CollisionFree w'.journal)
    (step : Step p projectId (fun _ call => call.Faithful) w w') (resumes : Resumes w w') :
  w'.Entitled p
  := by
  cases step with
  | tick => exact ⟨entitled.jobs, entitled.observed⟩
  | start now k call s env batch saga vacant loaded allowed within fresh computed free =>
      have kept := @World.Entitled.setJob p w { w with now } entitled rfl rfl
      refine kept k _ fun job made => ?_
      obtain rfl := Option.some.inj made
      constructor <;> simp [Stage.begun, Stage.mayAsk]
  | create k job₀ base batch stored segment there pending appended =>
      have free₀ : CollisionFree w.journal := free.of_prefix (List.prefix_append _ _)
      obtain ⟨s, env, created⟩ := reachable.created free₀ there pending appended
      obtain rfl : w.journal = base := by
        simpa [pending] using created.pending.symm
      have computed := created.grounded.computed
      have longer : eventsOf (w.journal ++ [segment]) = eventsOf w.journal ++ batch.events := by
        rw [created.segment_eq]
        simp [eventsOf, Batch.segment]
      have own := entitled.jobs k job₀ there
      constructor
      · intro i job running
        rw [show World.journal _ = w.journal ++ [segment] from rfl, longer]
        rcases World.jobs_setJob running with ⟨-, made⟩ | ⟨apart, old⟩
        · obtain ⟨lock, own, admitted⟩ := own.after computed pending made
          exact ⟨fun _ => lock, fun _ => own, fun may => Outstanding.prepend (admitted may) _⟩
        · exact Job.Entitled.appended reachable entitled created there old apart
      · rw [show World.journal _ = w.journal ++ [segment] from rfl, longer]
        have observed : Observed (eventsOf w.journal) batch.events :=
          computed.observed pending fun batch' stage => own.admitted (by simp [stage, Stage.mayAsk])
        exact fun actionId => Accounted.append (entitled.observed actionId)
          (by simpa using observed actionId)
  | answer k job₀ base batch stored there pending appended =>
      refine entitled.setJob rfl rfl k _ fun job made => ?_
      obtain ⟨s, env, grounded⟩ := reachable.grounded k job₀ base batch there pending
      have own := entitled.jobs k job₀ there
      obtain ⟨lock, own', -⟩ := own.after grounded.computed pending made
      refine ⟨fun _ => lock, fun _ => own', fun admitted => ?_⟩
      cases may : job₀.stage.mayAsk with
      | false => exact resumes k job₀ job there (by simp [World.setJob, made]) may admitted rfl
      | true =>
          -- a call that is about to observe does not go on
          cases stage : job₀.stage <;> simp [stage, Stage.mayAsk, Stage.pending] at may pending
          simp [Job.after, Job.next, stage] at made
  | beginDispatch now k job₀ call s env batch there applies prepared loaded within computed =>
      have kept := @World.Entitled.setJob p w { w with now } entitled rfl rfl
      refine kept k _ fun job made => ?_
      obtain rfl := Option.some.inj made
      exact (entitled.jobs k job₀ there).moved (by simp [prepared, Stage.begun]) _
        (by simp [Stage.mayAsk])
  | dispatch k job₀ answer there admitted =>
      have kept := @World.Entitled.setJob p w
        { w with dispatched := job₀.saga.actionId :: w.dispatched } entitled rfl rfl
      refine kept k _ fun job made => ?_
      obtain rfl := Option.some.inj made
      exact (entitled.jobs k job₀ there).moved (by simp [admitted, Stage.begun]) _
        (by simp [admitted, Stage.mayAsk])
  | reconcile k job₀ receipt there begun =>
      refine entitled.setJob rfl rfl k _ fun job made => ?_
      obtain rfl := Option.some.inj made
      exact (entitled.jobs k job₀ there).moved (by simp [begun, Stage.begun]) _
        (by simp [begun, Stage.mayAsk])
  | observe now k job₀ receipt s env batch there answered loaded within computed =>
      have kept := @World.Entitled.setJob p w { w with now } entitled rfl rfl
      refine kept k _ fun job made => ?_
      obtain rfl := Option.some.inj made
      exact (entitled.jobs k job₀ there).moved (by simp [answered, Stage.begun]) _
        (by simp [answered, Stage.mayAsk])
  | stop k => exact entitled.setJob rfl rfl k none fun _ made => by simp at made

/-! ### Runs -/

/-- A step of a run with faithful imports that resumes with admissions only. -/
def ResumingStep (p : Platform) (projectId : String) (w w' : World) : Prop :=
  Step p projectId (fun _ call => call.Faithful) w w' ∧ Resumes w w'

/-- What such steps lead to is reachable. -/
theorem reachable_of_resuming
    {journal : List Segment} {now : Instant} (initialised : Initialised p projectId journal)
    (run : Relation.ReflTransGen (ResumingStep p projectId) (World.initial journal now) w) :
  Reachable p projectId (fun _ call => call.Faithful) w
  := ⟨journal, now, initialised, run.lift id fun _ _ step => step.1⟩

/-- The calls of an initialised project are entitled. -/
theorem World.Entitled.initial
    {journal : List Segment} (initialised : Initialised p projectId journal) (now : Instant) :
  (World.initial journal now).Entitled p
  := by
  refine ⟨by simp [World.initial], .of_unobserved fun event mem actionId observes => ?_⟩
  obtain ⟨_, _, _, rfl⟩ := observes
  cases initialised with
  | empty => simp [World.initial, eventsOf] at mem
  | established e segment s fence hashed accepted => simp [World.initial, eventsOf, fence] at mem

/-- In every world of a run that resumes with admissions only, the calls are entitled. -/
theorem World.Entitled.run
    {journal : List Segment} {now : Instant} (initialised : Initialised p projectId journal)
    (run : Relation.ReflTransGen (ResumingStep p projectId) (World.initial journal now) w)
    (free : CollisionFree w.journal) :
  w.Entitled p
  := by
  induction run with
  | refl => exact .initial initialised now
  | tail before step ih =>
      have entitled := ih (free.of_prefix (Step.journal_prefix step.1))
      exact entitled.step (reachable_of_resuming initialised before) free step.1 step.2

/-- Observations are admitted: an observation is committed only while its effect is dispatched or
reconciling, an admission of the effect comes before it, and no admission serves two observations,
as another one lies between them. -/
structure World.ObservesAdmitted (p : Platform) (projectId : String) (w : World) : Prop where
  status : ∀ segment actionId status receipt updatedAt s s',
    Moment p projectId w.journal segment (.effectObserved actionId status receipt updatedAt) s s' →
    ∃ effect, s.effects.lookup actionId = some effect ∧
      (effect.status = .dispatched ∨ effect.status = .reconciling)
  admitted : ∀ before after actionId status receipt updatedAt,
    eventsOf w.journal = before ++ .effectObserved actionId status receipt updatedAt :: after →
    ∃ at_, .effectDispatched actionId at_ ∈ before ∨ .effectReconciling actionId at_ ∈ before
  once : ∀ before between after actionId status receipt updatedAt status' receipt' updatedAt',
    eventsOf w.journal = before ++ .effectObserved actionId status receipt updatedAt :: between
      ++ .effectObserved actionId status' receipt' updatedAt' :: after →
    ∃ at_, .effectDispatched actionId at_ ∈ between ∨ .effectReconciling actionId at_ ∈ between

/-- In every run whose imports are faithful, and in which no call goes on to its adapter by an
admission that was found in the journal unless an admission is outstanding there, observations are
admitted. -/
theorem observes_admitted
    {journal : List Segment} {now : Instant} (initialised : Initialised p projectId journal)
    (run : Relation.ReflTransGen (ResumingStep p projectId) (World.initial journal now) w)
    (free : CollisionFree w.journal) :
  w.ObservesAdmitted p projectId
  := by
  have observed := (World.Entitled.run initialised run free).observed
  constructor
  · intro segment actionId status receipt updatedAt s s' moment
    exact moment.underWay observed ⟨_, _, _, rfl⟩
  · intro before after actionId status receipt updatedAt split
    obtain ⟨front, opening, rest, same, opens, -⟩ := observed actionId _ _ _ split ⟨_, _, _, rfl⟩
    obtain rfl : before = front ++ opening :: rest := by simpa using same
    rcases Event.opens_cases opens with ⟨at_, rfl⟩ | ⟨at_, rfl⟩
    · exact ⟨at_, .inl (by simp)⟩
    · exact ⟨at_, .inr (by simp)⟩
  · intro before between after actionId status receipt updatedAt status' receipt' updatedAt' split
    obtain ⟨opening, mem, opens⟩ :=
      (observed actionId).between split (by simp [Event.admission]) ⟨_, _, _, rfl⟩
    rcases Event.opens_cases opens with ⟨at_, rfl⟩ | ⟨at_, rfl⟩
    · exact ⟨at_, .inl mem⟩
    · exact ⟨at_, .inr mem⟩

/-! ### A retry behind another observation -/

/-- A step that appends something resumes nothing. -/
theorem Resumes.of_longer
    (longer : w'.journal ≠ w.journal) :
  Resumes w w'
  := fun _ _ _ _ _ _ _ same => absurd same longer

/-- A step from a world whose calls are all admitted resumes nothing. -/
theorem Resumes.of_admitted
    (admitted : ∀ i job, w.jobs i = some job → job.stage.mayAsk = true) :
  Resumes w w'
  := by
  intro i job job' running _ may
  simp [admitted i job running] at may

/-- A calm step resumes nothing. -/
theorem ResumingStep.of_calm
    (step : Step p projectId (fun _ call => call.Faithful) w w') (calm : Calm w w') :
  ResumingStep p projectId w w'
  := by
  refine ⟨step, ?_⟩
  rcases calm with ⟨longer, -⟩ | ⟨-, apart⟩
  · exact .of_longer longer
  · intro i job job' running running'
    rcases apart i with none_ | none_
    · simp [none_] at running
    · simp [none_] at running'

namespace SampleObservation

open SampleContinuity

/-- Another request to reconcile the effect. -/
def other : ReconcileInput :=
  { request with idempotencyKey := "other" }

/-- The adapter does not know what has become of the effect. -/
def unknown : EffectReceipt :=
  { status := "unknown" }

/-- A reconciliation goes on to its observation: the journal the observation is computed on, the
state it replays to, the segment of the observation, and whether the admission has made a segment of
its own. -/
def observes (journal : List Segment) (value : ReconcileInput) :
    Fallible (List Segment × State × Segment × Bool) := do
  let s ← reduceSegments platform "p" journal
  check (s.namesWithin 9) "an identifier is beyond the bound"
  let answer ← (Call.reconcile value).start platform s journal (.beyond 9 0)
  let (batch, saga) ← need answer "the call has no batch"
  let (_, created) ← appendOnce platform "p" journal batch (headHashOf journal)
  let admitted := journal ++ created.toList
  let s ← reduceSegments platform "p" admitted
  let observation ← observeEffect platform s (.still 0) saga.actionId saga.role unknown
    saga.observeKey saga.requestDigest
  let (_, observed) ← appendOnce platform "p" admitted observation (headHashOf admitted)
  let segment ← need observed "the observation is known"
  .ok (admitted, s, segment, created.isSome)

/-- The steps of a reconciliation lead from one idle world to another. They resume with admissions
if the admission has made a segment of its own. -/
theorem observes_ok
    {journal admitted : List Segment} {value : ReconcileInput} {s : State} {segment : Segment}
    {fresh : Bool} (h : observes journal value = .ok (admitted, s, segment, fresh)) :
  Relation.ReflTransGen
      (fun w w' => Step platform "p" (fun _ call => call.Faithful) w w' ∧ (fresh = true → Resumes w w'))
      (World.initial journal 0) (World.initial (admitted ++ [segment]) 0) ∧
    reduceSegments platform "p" admitted = .ok s ∧
    ∃ status receipt updatedAt rest,
      segment.events = .effectObserved value.actionId status receipt updatedAt :: rest
  := by
  simp only [observes, bind_eq_ok, check_eq_ok, need_eq_ok, Except.ok.injEq, Prod.mk.injEq] at h
  obtain ⟨s₀, loaded, _, names, answer, started, ⟨batch, saga⟩, rfl, ⟨stored, created⟩, appended, s₁,
    loaded', observation, computed, ⟨stored', observed⟩, appended', last, rfl, rfl, rfl, rfl, rfl⟩ := h
  obtain ⟨role, rfl⟩ : ∃ role, saga = value.saga platform role := by
    cases Call.start_ok started with
    | reconcile _ _ effect made => exact ⟨_, rfl⟩
  have beyond : (Env.beyond 9 0).Within 0 0 :=
    ⟨fun _ => le_refl _, fun _ => le_refl _, fun _ _ _ => le_refl _⟩
  have still : (Env.still 0).Within 0 0 :=
    ⟨fun _ => le_refl _, fun _ => le_refl _, fun _ _ _ => le_refl _⟩
  have faithful : (Call.reconcile value).Faithful := trivial
  -- the worlds of the call differ in the journal and in how far it has come
  let job (stage : Stage) : Job :=
    { call := .reconcile value, lock := some value.actionId, saga := value.saga platform role, stage }
  let at_ (journal : List Segment) (stage : Stage) : World :=
    (World.initial journal 0).setJob 0 (some (job stage))
  have running : ∀ journal stage, (at_ journal stage).jobs 0 = some (job stage) := by
    simp [at_, World.setJob]
  have only : ∀ journal stage i job', (at_ journal stage).jobs i = some job' → job' = job stage := by
    intro journal stage i job' there
    rcases World.jobs_setJob there with ⟨-, made⟩ | ⟨-, none_⟩
    · exact (Option.some.inj made).symm
    · simp [World.initial] at none_
  have first : Step platform "p" (fun _ call => call.Faithful) (World.initial journal 0)
      (at_ journal (.starting journal batch)) :=
    .start _ 0 0 (.reconcile value) s₀ (.beyond 9 0) batch _ rfl loaded faithful beyond
      (Env.beyond_fresh names) started (fun i job running => by simp [World.initial] at running)
  have second : Step platform "p" (fun _ call => call.Faithful) (at_ journal (.starting journal batch))
      (at_ (journal ++ created.toList) .reconciling) := by
    cases created with
    | none =>
        have step : Step platform "p" (fun _ call => call.Faithful) _ _ :=
          .answer _ 0 _ journal batch stored (running journal (.starting journal batch)) rfl appended
        simpa [at_, job, World.setJob, World.initial, Function.update_idem, Job.after, Job.next]
          using step
    | some segment =>
        have step : Step platform "p" (fun _ call => call.Faithful) _ _ :=
          .create _ 0 _ journal batch stored segment (running journal (.starting journal batch)) rfl
            appended
        simpa [at_, job, World.setJob, World.initial, Function.update_idem, Job.after, Job.next]
          using step
  have fresh : created.isSome = true → journal ++ created.toList ≠ journal := by
    intro made
    obtain ⟨segment, rfl⟩ := Option.isSome_iff_exists.mp made
    simp
  generalize journal ++ created.toList = admitted at second loaded' appended' fresh
  have third : Step platform "p" (fun _ call => call.Faithful) (at_ admitted .reconciling)
      (at_ admitted (.answered unknown)) := by
    have step : Step platform "p" (fun _ call => call.Faithful) _ _ :=
      .reconcile _ 0 _ unknown (running admitted .reconciling) rfl
    simpa [at_, job, World.setJob, World.initial, Function.update_idem] using step
  have fourth : Step platform "p" (fun _ call => call.Faithful) (at_ admitted (.answered unknown))
      (at_ admitted (.observing admitted observation)) := by
    have step : Step platform "p" (fun _ call => call.Faithful) _ _ :=
      .observe _ 0 0 _ unknown s₁ (.still 0) observation (running admitted (.answered unknown)) rfl
        loaded' still computed
    simpa [at_, job, World.setJob, World.initial, Function.update_idem] using step
  have fifth : Step platform "p" (fun _ call => call.Faithful)
      (at_ admitted (.observing admitted observation)) (World.initial (admitted ++ [last]) 0) := by
    have step : Step platform "p" (fun _ call => call.Faithful) _ _ :=
      .create _ 0 _ admitted observation stored' last
        (running admitted (.observing admitted observation)) rfl appended'
    simpa [at_, job, World.setJob, World.initial, Function.update_idem, Job.after, Job.next] using step
  have admits : ∀ stage, stage.mayAsk = true → ∀ i job', (at_ admitted stage).jobs i = some job' →
      job'.stage.mayAsk = true := by
    intro stage may i job' there
    rw [only admitted stage i job' there]
    exact may
  refine ⟨?_, loaded', ?_⟩
  · have run₁ := Relation.ReflTransGen.single
      (r := fun w w' => Step platform "p" (fun _ call => call.Faithful) w w' ∧
        (created.isSome = true → Resumes w w'))
      ⟨first, fun _ => Resumes.of_admitted fun i job there => by simp [World.initial] at there⟩
    have run₂ := run₁.tail ⟨second, fun made => Resumes.of_longer (fresh made)⟩
    have run₃ := run₂.tail ⟨third, fun _ => Resumes.of_admitted (admits _ rfl)⟩
    have run₄ := run₃.tail ⟨fourth, fun _ => Resumes.of_admitted (admits _ rfl)⟩
    exact run₄.tail ⟨fifth, fun _ => Resumes.of_admitted (admits _ rfl)⟩
  · obtain ⟨effect, status, document, -, -, events, -⟩ := observeEffect_ok computed
    obtain ⟨-, -, -, rfl⟩ := appendOnce_created appended'
    exact ⟨_, _, _, _, events⟩

/-- The journal with the preparation, and with the admission of a reconciliation that has stopped
then. -/
def begins (calls : List (Nat × Call)) : Fallible (List Segment) :=
  commitEach platform "p" 0 [] (SampleContinuity.calls.take 4 ++ calls)

/-- The other reconciliation observes the effect, and the first one is retried. -/
def retries : Fallible (List Segment × List Segment × State × Segment × Bool) := do
  let begun ← begins [(9, .reconcile request)]
  let (once, _, segment, _) ← observes begun other
  let (twice, s, last, fresh) ← observes (once ++ [segment]) request
  .ok (begun, twice, s, last, fresh)

/-- The retry finds the effect in the state that the other observation has left, and the other
reconciliation has an admission of its own. -/
theorem retries_run :
  ((retries.map fun answer => (answer.2.2.2.2,
      ((answer.2.2.1.effects.lookup request.actionId).map (·.status)),
      decide (((answer.2.1 ++ [answer.2.2.2.1]).map Segment.segmentHash).Nodup)))
    = .ok (false, some .unknown, true)) ∧
  ((do
    let begun ← begins []
    let (once, _, segment, fresh) ← observes begun other
    .ok (fresh, decide (((once ++ [segment]).map Segment.segmentHash).Nodup))) : Fallible (Bool × Bool))
    = .ok (true, true)
  := by decide +kernel

end SampleObservation

open SampleObservation SampleContinuity in
/-- The retry of a reconciliation whose admission was found in the journal observes an effect that
another reconciliation has left unknown. -/
theorem observation_of_unknown :
  ¬ ∀ (p : Platform) (projectId : String) (w : World),
    Reachable p projectId (fun _ call => call.Faithful) w → CollisionFree w.journal →
    w.ObservesAdmitted p projectId
  := by
  intro always
  have run := retries_run.1
  cases retried : retries with
  | error message => simp [retried, Except.map] at run
  | ok answer =>
      obtain ⟨begun, twice, s, last, fresh⟩ := answer
      simp only [retried, Except.map, Except.ok.injEq, Prod.mk.injEq, decide_eq_true_eq] at run
      obtain ⟨-, left, free⟩ := run
      simp only [retries, bind_eq_ok, Except.ok.injEq, Prod.mk.injEq] at retried
      obtain ⟨begun', committed, ⟨once, s₁, segment, fresh₁⟩, first, ⟨twice', s₂, last', fresh₂⟩,
        second, rfl, rfl, rfl, rfl, rfl⟩ := retried
      have start : Reachable platform "p" (fun _ call => call.Faithful) (World.initial [] 0) :=
        ⟨[], 0, .empty, .refl⟩
      have reachable := reachable_of_commitEach start (by simp [calls, Call.Faithful]) committed
      obtain ⟨run₁, -, -⟩ := observes_ok first
      obtain ⟨run₂, loaded, status, receipt, updatedAt, rest, events⟩ := observes_ok second
      have reached := (reachable.run (run₁.lift id fun _ _ step => step.1)).run
        (run₂.lift id fun _ _ step => step.1)
      have observes := always platform "p" _ reached free
      have moment : Moment platform "p" (twice' ++ [last']) last'
          (.effectObserved request.actionId status receipt updatedAt) s₂ _ :=
        .mk twice' [] [] rest s₂ rfl events loaded rfl rfl
      obtain ⟨effect, known, under⟩ := observes.status _ _ _ _ _ _ _ moment
      simp only [known, Option.map_some, Option.some.injEq] at left
      rcases under with under | under <;> simp [under] at left

open SampleObservation SampleContinuity in
/-- A reconciliation with an admission of its own observes the effect. -/
theorem observes_admitted_sample :
  ∃ (w : World) (segment : Segment), segment ∈ w.journal ∧
    (∃ event ∈ segment.events, event.Observes request.actionId) ∧ w.ObservesAdmitted platform "p"
  := by
  have run := retries_run.2
  simp only [bind_eq_ok, Except.ok.injEq, Prod.mk.injEq] at run
  obtain ⟨begun, committed, ⟨once, s, segment, fresh⟩, observed, rfl, distinct⟩ := run
  obtain ⟨run, -, status, receipt, updatedAt, rest, events⟩ := observes_ok observed
  have before : Relation.ReflTransGen (ResumingStep platform "p") (World.initial [] 0)
      (World.initial begun 0) :=
    run_of_commitEach (fun w w' => ResumingStep.of_calm) (by simp [calls, Call.Faithful]) committed
  have all := before.trans (run.lift id fun w w' step => ⟨step.1, step.2 rfl⟩)
  have free : ((once ++ [segment]).map Segment.segmentHash).Nodup := of_decide_eq_true distinct
  have event : ∃ event ∈ segment.events, event.Observes request.actionId := by
    refine ⟨.effectObserved request.actionId status receipt updatedAt, ?_, _, _, _, rfl⟩
    rw [events]
    exact List.mem_cons_self
  exact ⟨World.initial (once ++ [segment]) 0, segment, by simp [World.initial], event,
    observes_admitted .empty all free⟩

end Dagrail
