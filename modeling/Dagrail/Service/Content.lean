import Dagrail.Service.Append
import Mathlib.Tactic.Simps.Basic

/-!
# What replay reads of a state

The sequence numbers that records carry, the results of commands, the head of the journal and the
receipts of imports are written by replay and read by no event but an import. Leaving them out
gives the content of a state, and replay of an event is a function of the content.
-/

namespace Dagrail

/-! ### Records without their sequence numbers -/

/-- The decision without its sequence number. -/
def DecisionRecord.unnumbered (decision : DecisionRecord) : DecisionRecord :=
  { decision with sequence := 0 }

/-- The package without its sequence number. -/
def ExecutionPackage.unnumbered (pack : ExecutionPackage) : ExecutionPackage :=
  { pack with sequence := 0 }

/-- The reuse decision without its sequence number. -/
def ReuseDecision.unnumbered (decision : ReuseDecision) : ReuseDecision :=
  { decision with sequence := 0 }

/-- The action without its sequence number. -/
def ActionRecord.unnumbered (action : ActionRecord) : ActionRecord :=
  { action with sequence := 0 }

/-- The effect without its sequence number. -/
def EffectAction.unnumbered (effect : EffectAction) : EffectAction :=
  { effect with sequence := 0 }

/-- Is the event the receipt of an import? -/
def Event.isImport : Event → Bool
  | .lifecycleHistoryImported _ => true
  | _ => false

namespace State

/-! ### Content -/

/-- The state without sequence numbers, command results, head and import receipts. -/
@[simps]
def content (s : State) : State :=
  { s with
    headSequence := 0
    headHash := ""
    decisions := s.decisions.mapValues DecisionRecord.unnumbered
    evidencePackages := s.evidencePackages.mapValues ExecutionPackage.unnumbered
    reuseDecisions := s.reuseDecisions.mapValues ReuseDecision.unnumbered
    actions := s.actions.mapValues ActionRecord.unnumbered
    effects := s.effects.mapValues EffectAction.unnumbered
    lifecycleMigrations := ∅
    commands := ∅ }

/-- Closing a segment leaves the content as it is. -/
@[simp]
theorem content_close
    (segment : Segment) (s : State) :
  (segment.close s).content = s.content
  := rfl

/-- The content has the declarations of the state. -/
@[simp]
theorem content_nodeDefinition
    (s : State) (nodeId : String) :
  s.content.nodeDefinition nodeId = s.nodeDefinition nodeId
  := rfl

/-- The content has no further content to leave out. -/
@[simp]
theorem content_content
    (s : State) :
  s.content.content = s.content
  := by
  unfold content
  simp only [Table.mapValues_mapValues]
  rfl

/-- A package is published in the content as in the state. -/
theorem publishPackage_content
    (p : Platform) (s : State) (n m : Nat) (pack : ExecutionPackage) :
  (s.content.publishPackage p m pack).map content = (s.publishPackage p n pack).map content
  := by
  simp only [publishPackage, map_bind, content_attempts, content_nodeDefinition, content_projectId,
    content_graphRevision, content_evidencePackages, Table.has_mapValues]
  refine bind_congr fun attempt => bind_congr fun node => bind_congr fun _ => bind_congr fun _ =>
    bind_congr fun _ => ?_
  simp only [Except.map, content, Table.mapValues_insert, Table.mapValues_mapValues]
  rfl

/-- A reuse decision is recorded in the content as in the state. -/
theorem assessReuse_content
    (p : Platform) (s : State) (n m : Nat) (decision : ReuseDecision) :
  (s.content.assessReuse p m decision).map content = (s.assessReuse p n decision).map content
  := by
  simp only [assessReuse, map_bind, content_evidencePackages, Table.lookup_mapValues]
  cases s.evidencePackages.lookup decision.packageId with
  | none => rfl
  | some pack =>
      simp only [Option.map_some, need, ok_bind, content_attempts, content_nodeDefinition,
        content_reuseDecisions, Table.has_mapValues]
      refine bind_congr fun _ => bind_congr fun node => bind_congr fun _ => bind_congr fun _ => ?_
      simp only [Except.map, content, Table.mapValues_insert, Table.mapValues_mapValues]
      rfl

/-- A decision is recorded in the content as in the state. -/
theorem recordDecision_content
    (p : Platform) (s : State) (n m : Nat) (decision : DecisionRecord) :
  (s.content.recordDecision p m decision).map content = (s.recordDecision p n decision).map content
  := by
  simp only [recordDecision, map_bind, content_decisions, Table.has_mapValues]
  refine bind_congr fun _ => bind_congr fun _ => ?_
  simp only [Except.map, content, Table.mapValues_insert, Table.mapValues_mapValues]
  rfl

/-- An action takes over a status in the content as in the state. -/
theorem setActionStatus_content
    (s : State) (actionId : String) (status : ActionStatus) :
  (s.content.setActionStatus actionId status).content =
    (s.setActionStatus actionId status).content
  := by
  simp only [setActionStatus, content_actions, Table.lookup_mapValues]
  cases s.actions.lookup actionId with
  | none => simp
  | some action =>
      simp only [Option.map_some, content, Table.mapValues_insert, Table.mapValues_mapValues]
      rfl

/-- States with one content take over an action status alike. -/
theorem setActionStatus_congr
    {s s' : State} (same : s.content = s'.content) (actionId : String) (status : ActionStatus) :
  (s.setActionStatus actionId status).content = (s'.setActionStatus actionId status).content
  := by
  rw [← setActionStatus_content s, ← setActionStatus_content s', same]

/-- A dispatch is admitted in the content as in the state. -/
theorem dispatchEffect_content
    (s : State) (n m : Nat) (actionId : String) (at_ : Stamp) :
  (s.content.dispatchEffect m actionId at_).map content =
    (s.dispatchEffect n actionId at_).map content
  := by
  simp only [dispatchEffect, map_bind, content_effects, Table.lookup_mapValues]
  cases s.effects.lookup actionId with
  | none => rfl
  | some effect =>
      simp only [Option.map_some, need, ok_bind, Except.map, content, Table.mapValues_insert,
        Table.mapValues_mapValues]
      rfl

/-- A reconciliation is admitted in the content as in the state. -/
theorem reconcileEffect_content
    (s : State) (n m : Nat) (actionId : String) (at_ : Stamp) :
  (s.content.reconcileEffect m actionId at_).map content =
    (s.reconcileEffect n actionId at_).map content
  := by
  simp only [reconcileEffect, map_bind, content_effects, Table.lookup_mapValues]
  cases s.effects.lookup actionId with
  | none => rfl
  | some effect =>
      simp only [Option.map_some, need, ok_bind, Except.map, Except.ok.injEq]
      apply setActionStatus_congr
      simp only [content, Table.mapValues_insert, Table.mapValues_mapValues]
      rfl

/-- An effect is observed in the content as in the state. -/
theorem observeEffect_content
    (s : State) (n m : Nat) (actionId : String) (status : EffectStatus) (receipt : Option Json)
    (updatedAt : Stamp) :
  (s.content.observeEffect m actionId status receipt updatedAt).content =
    (s.observeEffect n actionId status receipt updatedAt).content
  := by
  apply setActionStatus_congr
  rw [content_effects, Table.get_mapValues rfl]
  simp only [content, Table.mapValues_insert, Table.mapValues_mapValues]
  rfl

/-- A node is superseded in the content as in the state. -/
theorem supersedeNode_content
    (committedAt : Stamp) (s : State) (nodeId : String) :
  supersedeNode committedAt s.content nodeId = (supersedeNode committedAt s nodeId).content
  := by
  have latest (t : State) : t.content.latestAttempt nodeId = t.latestAttempt nodeId := rfl
  unfold supersedeNode
  rw [content_nodes]
  cases s.nodes.lookup nodeId with
  | none =>
      simp only [latest]
      cases s.latestAttempt nodeId with
      | none => rfl
      | some attempt => by_cases closed : attempt.status = .terminal <;> simp only [closed] <;> rfl
  | some runtime =>
      -- the attempt does not depend on the status of the node
      have marked :
          { s.content with nodes := s.nodes.insert nodeId { runtime with status := .superseded } } =
            { s with
              nodes := s.nodes.insert nodeId { runtime with status := .superseded } }.content := rfl
      simp only [marked, latest]
      split
      · split <;> rfl
      · rfl

/-- A graph is revised in the content as in the state. -/
theorem reviseGraph_content
    (s : State) (graph : GraphDefinition) (revision : String) (superseded : List String)
    (committedAt : Stamp) :
  s.content.reviseGraph graph revision superseded committedAt =
    (s.reviseGraph graph revision superseded committedAt).content
  := by
  refine Eq.trans ?_ (List.foldl_hom content fun s id => supersedeNode_content committedAt s id)
  rfl

/-- Replay of an event that is no import is a function of the content. -/
theorem applyEvent_content
    (p : Platform) (n m : Nat) (committedAt : Stamp) (s : State) {event : Event}
    (imports : event.isImport = false) :
  (s.content.applyEvent p m committedAt event).map content =
    (s.applyEvent p n committedAt event).map content
  := by
  cases event with
  | lifecycleHistoryImported => simp [Event.isImport] at imports
  | graphRevised graph revision _ superseded _ =>
      simp only [applyEvent, Except.map, reviseGraph_content, content_content]
  | graphImported graph revision _ =>
      exact congrArg Except.ok (content_content (s.importGraph graph revision))
  | roleReleased roleId _ => exact congrArg Except.ok (content_content (s.releaseRole roleId))
  | attemptStarted attempt => exact congrArg Except.ok (content_content (s.startAttempt attempt))
  | attemptLeased attempt => exact congrArg Except.ok (content_content (s.startAttempt attempt))
  | attemptCheckpointed checkpoint =>
      exact congrArg Except.ok (content_content (s.recordCheckpoint checkpoint))
  | attemptStatusChanged attemptId status updatedAt =>
      exact congrArg Except.ok (content_content (s.changeAttemptStatus attemptId status updatedAt))
  | attemptFinished attemptId outcome outcomeClass facts updatedAt =>
      exact congrArg Except.ok
        (content_content (s.finishAttempt attemptId outcome outcomeClass facts updatedAt))
  | evidencePackagePublished pack => exact publishPackage_content p s n m pack
  | evidenceReuseAssessed decision => exact assessReuse_content p s n m decision
  | decisionRecorded decision => exact recordDecision_content p s n m decision
  | effectDispatched id at_ => exact dispatchEffect_content s n m id at_
  | effectReconciling id at_ => exact reconcileEffect_content s n m id at_
  | effectObserved id status receipt at_ =>
      simp only [applyEvent, Except.map, observeEffect_content s n m]
  | actionApplied action =>
      simp only [applyEvent, Except.map, content, Table.mapValues_insert, Table.mapValues_mapValues]
      rfl
  | effectPrepared effect =>
      simp only [applyEvent, Except.map, content, Table.mapValues_insert, Table.mapValues_mapValues]
      rfl
  | nodeAutoCompleted | nodeAutoSkipped =>
      simp only [applyEvent, settleNode, map_bind, content_nodes]
      refine bind_congr fun _ => ?_
      simp only [Except.map, content, Table.mapValues_mapValues]
      rfl
  | resourceClosureObserved =>
      simp only [applyEvent, observeClosure, map_bind, content_resources]
      refine bind_congr fun _ => bind_congr fun _ => ?_
      simp only [Except.map, content, Table.mapValues_mapValues]
      rfl
  | resourceReleased =>
      simp only [applyEvent, releaseResource, map_bind, content_resources]
      refine bind_congr fun _ => bind_congr fun _ => ?_
      simp only [Except.map, content, Table.mapValues_mapValues]
      rfl
  | incidentUpdated =>
      simp only [applyEvent, updateIncident, map_bind, content_incidents]
      refine bind_congr fun _ => ?_
      simp only [Except.map, content, Table.mapValues_mapValues]
      rfl
  | incidentResolved =>
      simp only [applyEvent, resolveIncident, map_bind, content_incidents]
      refine bind_congr fun _ => ?_
      simp only [Except.map, content, Table.mapValues_mapValues]
      rfl
  | unsupported => rfl
  | _ =>
      simp only [applyEvent, Except.map, content, Table.mapValues_mapValues]
      rfl

/-- States with one content accept the same events that are no imports, with one content. -/
theorem applyEvent_of_content_eq
    {p : Platform} {n : Nat} {committedAt : Stamp} {s r s' : State} {event : Event}
    (imports : event.isImport = false) (same : r.content = s.content)
    (h : s.applyEvent p n committedAt event = .ok s') :
  ∃ r', r.applyEvent p n committedAt event = .ok r' ∧ r'.content = s'.content
  := by
  have accepted : (r.applyEvent p n committedAt event).map content = .ok s'.content := by
    rw [← applyEvent_content p n 0 committedAt r imports, same,
      applyEvent_content p n 0 committedAt s imports, h]
    rfl
  cases applied : r.applyEvent p n committedAt event with
  | error e => simp [applied, Except.map] at accepted
  | ok r' => exact ⟨r', rfl, by simpa [applied, Except.map] using accepted⟩

end State

end Dagrail
