import Dagrail.Service.Content
import Dagrail.Service.LifecycleRecord

/-!
# What an imported event does

For every event the second interpreter accepts, the rules it was held to that later results need,
and the state it leads to, in terms of the operations of the reducer.
-/

namespace Dagrail

namespace Lifecycle

variable {p : Platform} {c c' : LifecycleRecordContext} {s t : State} {occurredAt : Stamp}

/-! ### Roles -/

/-- A binding files the lease. -/
theorem bindRole_ok
    {lease : RoleLease} (h : bindRole c s occurredAt lease = .ok (c', t)) :
  t = { s with leases := s.leases.insert lease.roleId lease }
  := by
  simp only [bindRole, bind_eq_ok, Except.ok.injEq, Prod.mk.injEq] at h
  obtain ⟨_, -, _, -, _, -, -, rfl⟩ := h
  rfl

/-- A transfer files the next lease. -/
theorem transferRole_ok
    {transfer : RoleTransfer} (h : transferRole p c s occurredAt transfer = .ok (c', t)) :
  t = { s with leases := s.leases.insert transfer.next.roleId transfer.next }
  := by
  simp only [transferRole, bind_eq_ok, Except.ok.injEq, Prod.mk.injEq] at h
  obtain ⟨_, -, _, -, _, -, _, -, _, -, _, -, -, rfl⟩ := h
  rfl

/-- A release releases the role. -/
theorem releaseRole_ok
    {roleId : String} {releasedAt : Stamp}
    (h : releaseRole c s occurredAt roleId releasedAt = .ok (c', t)) :
  t = s.releaseRole roleId
  := by
  simp only [releaseRole, bind_eq_ok, need_eq_ok, Except.ok.injEq, Prod.mk.injEq,
    Option.filter_eq_some_iff] at h
  obtain ⟨lease, ⟨held, -⟩, -, rfl⟩ := h
  simp [State.releaseRole, Table.get_of_lookup held]

/-! ### Attempts -/

/-- A started attempt is leased, new, and the next one of a planned node. -/
theorem startAttempt_ok
    {attempt : Attempt} (h : startAttempt c s occurredAt attempt = .ok (c', t)) :
  (attempt.status = .leased ∧ s.attempts.has attempt.id = false ∧
      (s.nodes.get attempt.nodeId).status = .planned ∧
      attempt.number = (s.nodeAttempts.get attempt.nodeId).length + 1) ∧
    t = s.startAttempt attempt
  := by
  simp only [startAttempt, bind_eq_ok, check_eq_ok, Except.ok.injEq, Prod.mk.injEq,
    Bool.and_eq_true, decide_eq_true_eq, Bool.not_eq_true'] at h
  obtain ⟨node, -, _, leased, _, -, _, -, _, fresh, -, rfl⟩ := h
  exact ⟨⟨leased.1.1.1.1.2, fresh.1.1.1, fresh.1.1.2, fresh.2⟩, rfl⟩

/-- A move between statuses is a legal one of an attempt that is not over. -/
theorem changeAttemptStatus_ok
    {attemptId : String} {status : AttemptStatus} {updatedAt : Stamp}
    (h : changeAttemptStatus c s occurredAt attemptId status updatedAt = .ok (c', t)) :
  (∃ attempt, s.attempts.lookup attemptId = some attempt ∧ attempt.status ≠ .terminal ∧
      legalAttemptStatusTransition attempt.status status = true) ∧
    t = s.changeAttemptStatus attemptId status updatedAt
  := by
  simp only [changeAttemptStatus, bind_eq_ok, need_eq_ok, Except.ok.injEq, Prod.mk.injEq,
    Option.filter_eq_some_iff, Bool.and_eq_true, decide_eq_true_eq] at h
  obtain ⟨attempt, ⟨known, move⟩, -, rfl⟩ := h
  exact ⟨⟨attempt, known, move.1.1.1.1, move.1.1.1.2⟩,
    by simp [State.changeAttemptStatus, Table.get_of_lookup known]⟩

/-- A checkpoint is one of a known attempt. -/
theorem recordCheckpoint_ok
    {checkpoint : Checkpoint} (h : recordCheckpoint c s occurredAt checkpoint = .ok (c', t)) :
  t = s.recordCheckpoint checkpoint
  := by
  simp only [recordCheckpoint, bind_eq_ok, need_eq_ok, Except.ok.injEq, Prod.mk.injEq,
    Option.filter_eq_some_iff] at h
  obtain ⟨attempt, ⟨known, -⟩, _, -, _, -, _, -, -, rfl⟩ := h
  simp [State.recordCheckpoint, Table.get_of_lookup known]

/-- A package is one the reducer publishes. -/
theorem publishPackage_ok
    {pack : ExecutionPackage} (n : Nat)
    (h : publishPackage p c s occurredAt pack = .ok (c', t)) :
  ∃ r, s.publishPackage p n pack = .ok r ∧ r.content = t.content
  := by
  simp only [publishPackage, bind_eq_ok, need_eq_ok, check_eq_ok, Except.ok.injEq, Prod.mk.injEq,
    Option.filter_eq_some_iff] at h
  obtain ⟨attempt, ⟨known, -⟩, node, declared, _, bound, _, new, _, valid, -, rfl⟩ := h
  simp only [State.publishPackage, known, declared, need, bound, check, valid, new, if_true,
    ok_bind, Except.ok.injEq, exists_eq_left']
  simp only [State.content, Table.mapValues_insert]
  rfl

/-- A reuse decision is one the reducer records. -/
theorem assessReuse_ok
    {decision : ReuseDecision} (n : Nat)
    (h : assessReuse p c s occurredAt decision = .ok (c', t)) :
  ∃ r, s.assessReuse p n decision = .ok r ∧ r.content = t.content
  := by
  simp only [assessReuse, bind_eq_ok, need_eq_ok, check_eq_ok, Except.ok.injEq, Prod.mk.injEq,
    Option.filter_eq_some_iff] at h
  obtain ⟨pack, stored, assessor, ⟨known, -⟩, node, declared, _, -, _, new, _, valid, -, rfl⟩ := h
  have has : s.attempts.has decision.assessedByAttempt = true := Table.has_iff.mpr ⟨_, known⟩
  simp only [State.assessReuse, stored, has, declared, need, check, valid, new, if_true,
    ok_bind, Except.ok.injEq, exists_eq_left']
  simp only [State.content, Table.mapValues_insert]
  rfl

/-- A decision is one the reducer records. -/
theorem recordDecision_ok
    {decision : DecisionRecord} (n : Nat)
    (h : recordDecision p c s occurredAt decision = .ok (c', t)) :
  ∃ r, s.recordDecision p n decision = .ok r ∧ r.content = t.content
  := by
  simp only [recordDecision, bind_eq_ok, check_eq_ok, Except.ok.injEq, Prod.mk.injEq,
    Bool.and_eq_true] at h
  obtain ⟨_, -, _, ⟨new, -⟩, _, valid, -, rfl⟩ := h
  simp only [State.recordDecision, check, valid, new, if_true, ok_bind, Except.ok.injEq,
    exists_eq_left']
  simp only [State.content, Table.mapValues_insert]
  rfl

/-- A completion is one of a working attempt; a task succeeds from submitted only. -/
theorem finishAttempt_ok
    {value : AttemptFinish} (h : finishAttempt c s occurredAt value = .ok (c', t)) :
  (∃ attempt node, s.attempts.lookup value.attemptId = some attempt ∧
      [AttemptStatus.running, .waiting, .submitted].contains attempt.status = true ∧
      s.nodeDefinition attempt.nodeId = some node ∧
      (node.kind = .task → value.outcomeClass = .success → attempt.status = .submitted)) ∧
    t = s.finishAttempt value.attemptId value.outcome value.outcomeClass value.facts value.updatedAt
  := by
  simp only [finishAttempt, working, bind_eq_ok, need_eq_ok, check_eq_ok, Except.ok.injEq,
    Prod.mk.injEq, Option.filter_eq_some_iff, Bool.and_eq_true] at h
  obtain ⟨attempt, ⟨known, working⟩, node, declared, _, -, _, submitted, _, -, _, -, _, -, -,
    rfl⟩ := h
  refine ⟨⟨attempt, node, known, working.1.1.1, declared, fun task success => ?_⟩, ?_⟩
  · simpa [task, success] using submitted
  · simp [State.finishAttempt, Table.get_of_lookup known]

/-! ### Resources -/

/-- A lease is a new one, waits for its closure, and is within the capacity of its kind. -/
theorem leaseResource_ok
    {resource : ResourceLease} (h : leaseResource c s occurredAt resource = .ok (c', t)) :
  (s.resources.has resource.id = false ∧ resource.status = .active ∧
      resource.closureStatus = .pending ∧ 0 < resource.quantity ∧
      s.leasedQuantity resource.kind + resource.quantity ≤ resourceCapacity s resource.kind) ∧
    t = { s with resources := s.resources.insert resource.id resource }
  := by
  simp only [leaseResource, bind_eq_ok, check_eq_ok, Except.ok.injEq, Prod.mk.injEq,
    Bool.and_eq_true, decide_eq_true_eq, Bool.not_eq_true'] at h
  obtain ⟨attempt, -, node, -, _, bound, _, fresh, _, room, -, rfl⟩ := h
  have positive : 1 ≤ resource.quantity := bound.1.1.1.2
  exact ⟨⟨fresh.1.1, bound.1.1.1.1.1.2, bound.1.1.1.1.2, by omega, room⟩, rfl⟩

/-- A closure observation is one the reducer accepts. -/
theorem observeClosure_ok
    {value : StatusChange ClosureStatus} (h : observeClosure c s occurredAt value = .ok (c', t)) :
  s.observeClosure value.id value.status value.receipt value.updatedAt = .ok t
  := by
  simp only [observeClosure, bind_eq_ok, need_eq_ok, check_eq_ok, Except.ok.injEq, Prod.mk.injEq,
    Option.filter_eq_some_iff, Bool.and_eq_true, decide_eq_true_eq] at h
  obtain ⟨resource, ⟨known, active⟩, _, closure, -, rfl⟩ := h
  simp only [State.observeClosure, known, Option.filter, active.1.1.1.1, decide_true, if_true, need,
    check, closure.1, ok_bind]

/-- A release is one the reducer accepts, of a resource whose closure is confirmed. -/
theorem releaseResource_ok
    {resourceId : String} {releasedAt : Stamp}
    (h : releaseResource c s occurredAt resourceId releasedAt = .ok (c', t)) :
  (∃ resource, s.resources.lookup resourceId = some resource ∧
      resource.closureStatus = .confirmed) ∧
    s.releaseResource resourceId releasedAt = .ok t
  := by
  simp only [releaseResource, bind_eq_ok, need_eq_ok, Except.ok.injEq, Prod.mk.injEq,
    Option.filter_eq_some_iff, Bool.and_eq_true, decide_eq_true_eq] at h
  obtain ⟨resource, ⟨known, closed⟩, -, rfl⟩ := h
  exact ⟨⟨resource, known, closed.1.1.2⟩,
    by simp [State.releaseResource, known, closed.1.1.2, need, check]⟩

/-! ### Actions and effects -/

/-- Actions and effects are filed under their own ids. -/
structure Filed (s : State) : Prop where
  actions : ∀ id action, s.actions.lookup id = some action → action.id = id
  effects : ∀ id effect, s.effects.lookup id = some effect → effect.id = id

/-- Whether records are filed under their ids is seen from the content. -/
theorem Filed.congr
    (filed : Filed s) (same : t.content = s.content) :
  Filed t
  := by
  constructor
  · intro id action found
    obtain ⟨action', found', eq⟩ :=
      Table.lookup_of_mapValues_eq (congrArg State.actions same) found
    exact Eq.trans (congrArg ActionRecord.id eq :) (filed.actions id action' found')
  · intro id effect found
    obtain ⟨effect', found', eq⟩ :=
      Table.lookup_of_mapValues_eq (congrArg State.effects same) found
    exact Eq.trans (congrArg EffectAction.id eq :) (filed.effects id effect' found')

/-- Filing an action under its id keeps records filed. -/
theorem Filed.insert_action
    (filed : Filed s) (action : ActionRecord) :
  Filed { s with actions := s.actions.insert action.id action }
  := by
  refine ⟨fun id a found => ?_, filed.effects⟩
  rw [Table.lookup_insert] at found
  split at found
  · cases found
    symm
    assumption
  · exact filed.actions id a found

/-- Filing an effect under its id keeps records filed. -/
theorem Filed.insert_effect
    (filed : Filed s) (effect : EffectAction) :
  Filed { s with effects := s.effects.insert effect.id effect }
  := by
  refine ⟨filed.actions, fun id e found => ?_⟩
  rw [Table.lookup_insert] at found
  split at found
  · cases found
    symm
    assumption
  · exact filed.effects id e found

/-- An action is filed under its id. -/
theorem applyAction_ok
    {action : ActionRecord} {input : Option Json} (h : applyAction p c s action input = .ok (c', t)) :
  t = { s with actions := s.actions.insert action.id action }
  := by
  simp only [applyAction, bind_eq_ok, Except.ok.injEq, Prod.mk.injEq] at h
  obtain ⟨_, -, _, -, _, -, _, -, -, rfl⟩ := h
  rfl

/-- A prepared effect is new, prepared, and the first one of its attempt. -/
theorem prepareEffect_ok
    {effect : EffectAction} {prepared : Option Json}
    (h : prepareEffect c s occurredAt effect prepared = .ok (c', t)) :
  (effect.status = .prepared ∧ s.effects.has effect.id = false ∧
      s.effectForAttempt effect.attemptId = none) ∧
    c'.effectAdmissions = c.effectAdmissions ∧
    t = { s with effects := s.effects.insert effect.id effect }
  := by
  simp only [prepareEffect, bind_eq_ok, check_eq_ok, Except.ok.injEq, Prod.mk.injEq,
    Bool.and_eq_true, decide_eq_true_eq, Bool.not_eq_true', Option.isNone_iff_eq_none] at h
  obtain ⟨_, -, _, -, _, fields, _, new, _, -, rfl, rfl⟩ := h
  exact ⟨⟨fields.1.1.1.1.1.1.1.2, new.1.1, new.1.2⟩, rfl, rfl⟩

/-- An effect that may be admitted is known with one of the statuses, and so is its action. -/
theorem admissible_ok
    {actionId : String} {at_ : Stamp} {statuses : List EffectStatus}
    {capabilities : List Capability} {effect : EffectAction} {action : ActionRecord}
    (h : admissible s occurredAt actionId at_ statuses capabilities = .ok (effect, action)) :
  s.effects.lookup actionId = some effect ∧ statuses.contains effect.status = true ∧
    s.actions.lookup actionId = some action
  := by
  simp only [admissible, bind_eq_ok, need_eq_ok, Except.ok.injEq, Prod.mk.injEq,
    Option.filter_eq_some_iff, Bool.and_eq_true] at h
  obtain ⟨_, ⟨known, status⟩, _, ⟨filed, -⟩, rfl, rfl⟩ := h
  exact ⟨known, status.1.1.1.1, filed⟩

/-- A dispatch admits a prepared effect. -/
theorem dispatchEffect_ok
    {actionId : String} {dispatchedAt : Stamp}
    (h : dispatchEffect c s occurredAt actionId dispatchedAt = .ok (c', t)) :
  ∃ effect, s.effects.lookup actionId = some effect ∧ effect.status = .prepared ∧
    c'.effectAdmissions = c.effectAdmissions.insert effect.id () ∧
    t = { s with
      effects := s.effects.insert effect.id
        { effect with status := .dispatched, updatedAt := dispatchedAt } }
  := by
  simp only [dispatchEffect, bind_eq_ok, Except.ok.injEq, Prod.mk.injEq, Prod.exists] at h
  obtain ⟨effect, action, admitted, rfl, rfl⟩ := h
  obtain ⟨known, status, -⟩ := admissible_ok admitted
  exact ⟨effect, known, by simpa using status, rfl, rfl⟩

/-- A reconciliation admits an effect that is not confirmed. -/
theorem reconcileEffect_ok
    {actionId : String} {reconcilingAt : Stamp}
    (h : reconcileEffect c s occurredAt actionId reconcilingAt = .ok (c', t)) :
  ∃ effect action, s.effects.lookup actionId = some effect ∧
    s.actions.lookup actionId = some action ∧ effect.status ≠ .confirmed ∧
    c'.effectAdmissions = c.effectAdmissions.insert effect.id () ∧
    t = { s with
      actions := s.actions.insert action.id { action with status := .reconciling }
      effects := s.effects.insert effect.id
        { effect with status := .reconciling, updatedAt := reconcilingAt } }
  := by
  simp only [reconcileEffect, bind_eq_ok, Except.ok.injEq, Prod.mk.injEq, Prod.exists] at h
  obtain ⟨effect, action, admitted, _, -, rfl, rfl⟩ := h
  obtain ⟨known, status, filed⟩ := admissible_ok admitted
  refine ⟨effect, action, known, filed, ?_, rfl, rfl⟩
  rintro confirmed
  simp [confirmed] at status

/-- An observation is one of an admitted effect and uses the admission up. -/
theorem observeEffect_ok
    {value : StatusChange EffectStatus} {receipt : Option Json}
    (h : observeEffect p c s occurredAt value receipt = .ok (c', t)) :
  ∃ effect, s.effects.lookup value.id = some effect ∧
    [EffectStatus.dispatched, .reconciling].contains effect.status = true ∧
    c.effectAdmissions.has value.id = true ∧
    c'.effectAdmissions = c.effectAdmissions.erase value.id ∧
    t = { s with
      effects := s.effects.insert effect.id
        { effect with
          status := value.status, receipt := value.receipt, updatedAt := value.updatedAt }
      actions := match s.actions.lookup effect.id with
        | some action =>
            s.actions.insert action.id { action with status := State.actionStatusOf value.status }
        | none => s.actions }
  := by
  simp only [observeEffect, bind_eq_ok, need_eq_ok, check_eq_ok, Except.ok.injEq, Prod.mk.injEq,
    Option.filter_eq_some_iff, Bool.and_eq_true] at h
  obtain ⟨_, -, _, -, _, -, _, -, _, -, effect, ⟨known, status⟩, _, admitted, rfl, rfl⟩ := h
  exact ⟨effect, known, status.1.1, admitted.1, rfl, rfl⟩

/-! ### Incidents -/

/-- A filed incident. -/
theorem fileIncident_ok
    {type : String} {incident : Incident} (h : fileIncident c s type incident = .ok (c', t)) :
  t = { s with incidents := s.incidents.insert incident.id incident }
  := by
  simp only [fileIncident, bind_eq_ok, Except.ok.injEq, Prod.mk.injEq] at h
  obtain ⟨_, -, -, rfl⟩ := h
  rfl

/-- An opened incident is filed. -/
theorem openIncident_ok
    {incident : Incident} (h : openIncident p c s occurredAt incident = .ok (c', t)) :
  t = { s with incidents := s.incidents.insert incident.id incident }
  := by
  simp only [openIncident, bind_eq_ok] at h
  obtain ⟨_, -, _, -, filed⟩ := h
  exact fileIncident_ok filed

/-- An update is one the reducer accepts. -/
theorem updateIncident_ok
    {incident : Incident} (h : updateIncident p c s occurredAt incident = .ok (c', t)) :
  s.updateIncident incident = .ok t
  := by
  simp only [updateIncident, bind_eq_ok, check_eq_ok, Option.any_eq_true] at h
  obtain ⟨_, -, _, ⟨current, known, -⟩, filed⟩ := h
  have has : s.incidents.has incident.id = true := Table.has_iff.mpr ⟨_, known⟩
  simp [State.updateIncident, check, has, fileIncident_ok filed]

/-- A resolution is one the reducer accepts. -/
theorem resolveIncident_ok
    {incidentId : String} {resolvedAt : Stamp}
    (h : resolveIncident c s occurredAt incidentId resolvedAt = .ok (c', t)) :
  s.resolveIncident incidentId resolvedAt = .ok t
  := by
  simp only [resolveIncident, bind_eq_ok, need_eq_ok, Except.ok.injEq, Prod.mk.injEq,
    Option.filter_eq_some_iff] at h
  obtain ⟨incident, ⟨known, -⟩, _, -, -, rfl⟩ := h
  simp [State.resolveIncident, known, need]

end Lifecycle

end Dagrail
