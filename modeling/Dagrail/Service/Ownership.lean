import Dagrail.Service.AttemptLaws
import Dagrail.Service.LifecycleClosed

/-!
# Owners of records

In every run whose imported histories read from the journal as the importer read them, attempts,
effects, resources and incidents belong to a role, and an incident of an attempt names the node of
that attempt. While a history is imported this holds of the incidents up to those that the command
at hand has opened and not yet held against their companion.
-/

namespace Dagrail

/-! ### Owned incidents -/

/-- The incident is about an attempt, an effect or a resource. -/
def Incident.Sourced (incident : Incident) : Prop :=
  incident.sourceType = "attempt" ∨ incident.sourceType = "effect" ∨
    incident.sourceType = "resource"

/-- The incident has an owner, and the node of its attempt if it is about one. -/
def Incident.Owned (s : State) (incident : Incident) : Prop :=
  incident.ownerRole ≠ "" ∧ (incident.sourceType = "attempt" → ∃ attempt,
    s.attempts.lookup incident.sourceId = some attempt ∧ attempt.nodeId = incident.nodeId)

/-- The incidents agree on what an incident never changes. -/
structure Incident.SameOrigin (i i' : Incident) : Prop where
  id : i'.id = i.id
  sourceType : i'.sourceType = i.sourceType
  sourceId : i'.sourceId = i.sourceId
  nodeId : i'.nodeId = i.nodeId
  ownerRole : i'.ownerRole = i.ownerRole

variable {s t s' : State} {i i' : Incident}

/-- Whether an incident is owned depends on its origin. -/
theorem Incident.Owned.same
    (owned : i.Owned s) (same : i.SameOrigin i') :
  i'.Owned s
  := by
  unfold Incident.Owned
  rw [same.ownerRole, same.sourceType, same.sourceId, same.nodeId]
  exact owned

/-- Whether an incident is sourced depends on its origin. -/
theorem Incident.Sourced.same
    (sourced : i.Sourced) (same : i.SameOrigin i') :
  i'.Sourced
  := by
  unfold Incident.Sourced
  rw [same.sourceType]
  exact sourced

/-! ### Owned records -/

/-- Attempts, effects, resources and incidents have owners, but for the given incidents. -/
structure State.OwnedBut (but : String → Incident → Prop) (s : State) : Prop where
  attempts : ∀ id attempt, s.attempts.lookup id = some attempt →
    attempt.id = id ∧ attempt.roleId ≠ ""
  effects : ∀ id effect, s.effects.lookup id = some effect → effect.ownerRole ≠ ""
  resources : ∀ id resource, s.resources.lookup id = some resource → resource.roleId ≠ ""
  incidents : ∀ id incident, s.incidents.lookup id = some incident →
    incident.id = id ∧ incident.Sourced ∧ (incident.Owned s ∨ but id incident)

/-- Attempts, effects, resources and incidents have owners. -/
abbrev State.Owned (s : State) : Prop :=
  s.OwnedBut fun _ _ => False

namespace State.OwnedBut

variable {but but' : String → Incident → Prop}

/-- A new project has no records. -/
theorem new
    (projectId : String) :
  (State.new projectId).Owned
  := by
  constructor <;> intro id record known <;> simp [State.new] at known

/-- Only the four tables matter. -/
theorem congr
    (owned : s.OwnedBut but) (attempts : t.attempts = s.attempts) (effects : t.effects = s.effects)
    (resources : t.resources = s.resources) (incidents : t.incidents = s.incidents) :
  t.OwnedBut but
  := by
  obtain ⟨ofAttempts, ofEffects, ofResources, ofIncidents⟩ := owned
  unfold Incident.Owned at ofIncidents
  rw [← attempts] at ofAttempts ofIncidents
  rw [← effects] at ofEffects
  rw [← resources] at ofResources
  rw [← incidents] at ofIncidents
  exact ⟨ofAttempts, ofEffects, ofResources, ofIncidents⟩

/-- An attempt with an owner is filed, on the node it had if it is known. -/
theorem attempt
    (owned : s.OwnedBut but) (attempt : Attempt) (role : attempt.roleId ≠ "")
    (kept : ∀ old, s.attempts.lookup attempt.id = some old → attempt.nodeId = old.nodeId) :
  State.OwnedBut but { s with attempts := s.attempts.insert attempt.id attempt }
  := by
  refine ⟨?_, owned.effects, owned.resources, ?_⟩
  · intro id other known
    rw [Table.lookup_insert] at known
    split at known
    · rename_i here
      obtain rfl := Option.some.inj known
      exact ⟨here.symm, role⟩
    · exact owned.attempts id other known
  · intro id incident known
    obtain ⟨own, sourced, both⟩ := owned.incidents id incident known
    refine ⟨own, sourced, both.imp_left fun half => ⟨half.1, fun source => ?_⟩⟩
    obtain ⟨old, found, there⟩ := half.2 source
    by_cases here : incident.sourceId = attempt.id
    · refine ⟨attempt, ?_, ?_⟩
      · rw [here, Table.lookup_insert, if_pos rfl]
      · rw [here] at found
        rw [kept old found]
        exact there
    · exact ⟨old, by rw [Table.lookup_insert, if_neg here]; exact found, there⟩

/-- A known attempt moves and stays on its node under its role. -/
theorem move
    (owned : s.OwnedBut but) (new : Attempt) {old : Attempt} {id : String}
    (known : s.attempts.lookup id = some old) (same : new.id = old.id)
    (role : new.roleId = old.roleId) (node : new.nodeId = old.nodeId) :
  State.OwnedBut but { s with attempts := s.attempts.insert new.id new }
  := by
  obtain ⟨own, named⟩ := owned.attempts id old known
  apply owned.attempt
  · rw [role]
    exact named
  · intro other found
    rw [same, own, known] at found
    obtain rfl := Option.some.inj found
    exact node

/-- An effect with an owner is filed. -/
theorem effect
    (owned : s.OwnedBut but) (id : String) (effect : EffectAction) (role : effect.ownerRole ≠ "") :
  State.OwnedBut but { s with effects := s.effects.insert id effect }
  := by
  refine ⟨owned.attempts, ?_, owned.resources, owned.incidents⟩
  intro id' other known
  rw [Table.lookup_insert] at known
  split at known
  · obtain rfl := Option.some.inj known
    exact role
  · exact owned.effects id' other known

/-- A resource with an owner is filed. -/
theorem resource
    (owned : s.OwnedBut but) (id : String) (resource : ResourceLease)
    (role : resource.roleId ≠ "") :
  State.OwnedBut but { s with resources := s.resources.insert id resource }
  := by
  refine ⟨owned.attempts, owned.effects, ?_, owned.incidents⟩
  intro id' other known
  rw [Table.lookup_insert] at known
  split at known
  · obtain rfl := Option.some.inj known
    exact role
  · exact owned.resources id' other known

/-- An incident is filed that is owned or excepted. -/
theorem incident
    (owned : s.OwnedBut but) (incident : Incident) (sourced : incident.Sourced)
    (owner : incident.Owned s ∨ but' incident.id incident)
    (others : ∀ id i, id ≠ incident.id → but id i → but' id i) :
  State.OwnedBut but' { s with incidents := s.incidents.insert incident.id incident }
  := by
  refine ⟨owned.attempts, owned.effects, owned.resources, ?_⟩
  intro id other known
  rw [Table.lookup_insert] at known
  split at known
  · rename_i here
    obtain rfl := Option.some.inj known
    exact ⟨here.symm, sourced, here ▸ owner⟩
  · rename_i apart
    obtain ⟨own, sourced', both⟩ := owned.incidents id other known
    exact ⟨own, sourced', both.imp_right (others id other apart)⟩

/-- Released resources keep their owners. -/
theorem releaseResources
    (owned : s.OwnedBut but) (attemptId : String) (at_ : Stamp) :
  (s.releaseResources attemptId at_).OwnedBut but
  := by
  refine ⟨owned.attempts, owned.effects, ?_, owned.incidents⟩
  intro id resource known
  simp only [State.releaseResources, Table.lookup_mapValues, Option.map_eq_some_iff] at known
  obtain ⟨old, found, rfl⟩ := known
  split
  · exact owned.resources id old found
  · exact owned.resources id old found

/-- Superseding a node keeps the owners. -/
theorem supersedeNode
    (owned : s.OwnedBut but) (at_ : Stamp) (nodeId : String) :
  (State.supersedeNode at_ s nodeId).OwnedBut but
  := by
  obtain ⟨nodes, same | ⟨attempt, last, closed⟩⟩ := State.supersedeNode_cases s at_ nodeId
  · rw [same]
    exact owned.congr rfl rfl rfl rfl
  · simp only [State.latestAttempt, Option.bind_eq_some_iff] at last
    obtain ⟨id, -, known⟩ := last
    have moved := owned.move (attempt.superseded at_) known rfl rfl rfl
    have marked : State.OwnedBut but { s with
        nodes, attempts := s.attempts.insert attempt.id (attempt.superseded at_) } :=
      moved.congr rfl rfl rfl rfl
    rw [closed]
    exact marked.releaseResources attempt.id at_

/-- A revised graph keeps the owners. -/
theorem reviseGraph
    (owned : s.OwnedBut but) (graph : GraphDefinition) (revision : String)
    (superseded : List String) (at_ : Stamp) :
  (s.reviseGraph graph revision superseded at_).OwnedBut but
  := by
  unfold State.reviseGraph
  have fold : ∀ {r : State}, r.OwnedBut but →
      (superseded.foldl (State.supersedeNode at_) r).OwnedBut but := by
    induction superseded with
    | nil => exact fun owned => owned
    | cons nodeId rest ih => exact fun owned => ih (owned.supersedeNode at_ nodeId)
  exact fold (owned.congr rfl rfl rfl rfl)

end State.OwnedBut

/-! ### Events -/

/-- What an event has to respect for records to keep having owners. -/
def Event.Owns (s : State) : Event → Prop
  | .attemptStarted attempt | .attemptLeased attempt => attempt.roleId ≠ ""
  | .effectPrepared effect => effect.ownerRole ≠ ""
  | .effectObserved id _ _ _ => s.effects.has id = true
  | .resourceLeased resource => resource.roleId ≠ ""
  | .incidentOpened incident | .incidentUpdated incident => incident.Sourced ∧ incident.Owned s
  | _ => True

variable {p : Platform} {projectId : String} {n : Nat} {at_ : Stamp} {event : Event}
  {but : String → Incident → Prop}

/-- An event that respects the owners keeps them. -/
theorem State.applyEvent_ownedBut
    (owned : s.OwnedBut but) (stable : ∀ id i i', i.SameOrigin i' → but id i → but id i')
    (lawful : event.Lawful s) (owns : event.Owns s) (h : s.applyEvent p n at_ event = .ok s') :
  s'.OwnedBut but
  := by
  cases event with
  | lifecycleHistoryImported receipt =>
      obtain ⟨-, rfl⟩ := importHistory_ok h
      exact owned.congr rfl rfl rfl rfl
  | graphRevised graph revision previous superseded impact =>
      obtain rfl := Except.ok.inj h
      exact owned.reviseGraph graph revision superseded at_
  | attemptStarted attempt | attemptLeased attempt =>
      obtain rfl := Except.ok.inj h
      refine (owned.attempt attempt owns fun old known => ?_).congr rfl rfl rfl rfl
      have unused : s.attempts.has attempt.id = false := lawful.1
      rw [Table.has_iff.mpr ⟨old, known⟩] at unused
      cases unused
  | attemptCheckpointed checkpoint =>
      obtain rfl := Except.ok.inj h
      obtain ⟨attempt, known⟩ := Table.has_iff.mp lawful
      simp only [recordCheckpoint, Table.get_of_lookup known]
      let noted : Attempt :=
        { attempt with checkpointId := checkpoint.id, updatedAt := checkpoint.createdAt }
      have moved := owned.move noted known rfl rfl rfl
      exact moved.congr rfl rfl rfl rfl
  | attemptStatusChanged id status updatedAt =>
      obtain rfl := Except.ok.inj h
      obtain ⟨⟨attempt, known, -⟩, -⟩ := lawful
      simp only [changeAttemptStatus, Table.get_of_lookup known]
      let moved : Attempt := { attempt with status, updatedAt }
      exact owned.move moved known rfl rfl rfl
  | attemptFinished id outcome outcomeClass facts updatedAt =>
      obtain rfl := Except.ok.inj h
      obtain ⟨⟨attempt, known, -⟩, -⟩ := lawful
      simp only [finishAttempt, Table.get_of_lookup known]
      let closed : Attempt := { attempt with status := .terminal, outcome, updatedAt }
      have moved := owned.move closed known rfl rfl rfl
      exact moved.congr rfl rfl rfl rfl
  | nodeAutoCompleted nodeId outcome | nodeAutoSkipped nodeId reason =>
      obtain ⟨-, rfl⟩ := settleNode_ok h
      exact owned.congr rfl rfl rfl rfl
  | evidencePackagePublished pack =>
      obtain ⟨-, -, rfl⟩ := publishPackage_ok h
      exact owned.congr rfl rfl rfl rfl
  | evidenceReuseAssessed decision =>
      obtain ⟨-, rfl⟩ := assessReuse_ok h
      exact owned.congr rfl rfl rfl rfl
  | decisionRecorded decision =>
      obtain ⟨-, -, rfl⟩ := recordDecision_ok h
      exact owned.congr rfl rfl rfl rfl
  | resourceLeased resource =>
      obtain rfl := Except.ok.inj h
      exact owned.resource resource.id resource owns
  | resourceClosureObserved id status receipt updatedAt =>
      obtain ⟨lease, known, -, rfl⟩ := observeClosure_ok h
      exact owned.resource _ _ (owned.resources _ lease known)
  | resourceReleased id releasedAt =>
      obtain ⟨lease, known, -, rfl⟩ := releaseResource_ok h
      exact owned.resource _ _ (owned.resources _ lease known)
  | effectPrepared effect =>
      obtain rfl := Except.ok.inj h
      exact owned.effect effect.id { effect with sequence := n } owns
  | effectDispatched id dispatchedAt =>
      obtain ⟨effect, known, rfl⟩ := dispatchEffect_ok h
      exact owned.effect _ _ (owned.effects _ effect known)
  | effectReconciling id reconcilingAt =>
      obtain ⟨effect, known, rfl⟩ := reconcileEffect_ok h
      let admitted : EffectAction :=
        { effect with status := .reconciling, updatedAt := reconcilingAt, sequence := n }
      have moved := owned.effect id admitted (owned.effects _ effect known)
      rw [setActionStatus_eq]
      exact moved.congr rfl rfl rfl rfl
  | effectObserved id status receipt updatedAt =>
      obtain rfl := Except.ok.inj h
      obtain ⟨effect, known⟩ := Table.has_iff.mp owns
      let observed : EffectAction := { effect with status, receipt, updatedAt, sequence := n }
      have moved := owned.effect id observed (owned.effects _ effect known)
      rw [State.observeEffect, setActionStatus_eq, Table.get_of_lookup known]
      exact moved.congr rfl rfl rfl rfl
  | incidentOpened incident =>
      obtain rfl := Except.ok.inj h
      exact owned.incident incident owns.1 (.inl owns.2) fun _ _ _ excepted => excepted
  | incidentUpdated incident =>
      obtain ⟨-, rfl⟩ := updateIncident_ok h
      exact owned.incident incident owns.1 (.inl owns.2) fun _ _ _ excepted => excepted
  | incidentResolved id resolvedAt =>
      obtain ⟨incident, known, rfl⟩ := resolveIncident_ok h
      obtain ⟨own, sourced, both⟩ := owned.incidents id incident known
      let resolved : Incident := { incident with status := .resolved, updatedAt := resolvedAt }
      have same : incident.SameOrigin resolved := ⟨rfl, rfl, rfl, rfl, rfl⟩
      refine owned.incident resolved (sourced.same same) ?_ fun _ _ _ excepted => excepted
      refine both.imp (fun owner => owner.same same) fun excepted => ?_
      exact stable _ _ _ same (own ▸ excepted)
  | unsupported type => cases h
  | _ =>
      obtain rfl := Except.ok.inj h
      exact owned.congr rfl rfl rfl rfl

/-! ### Imported histories -/

/-- A role that has a capability is named. -/
theorem GraphDefinition.ne_empty_of_roleHasCapability
    {g : Option GraphDefinition} {roleId : String} {capability : Capability}
    (able : GraphDefinition.roleHasCapability g roleId capability = true) :
  roleId ≠ ""
  := by
  unfold roleHasCapability at able
  cases g with
  | none => cases able
  | some g =>
      simp only [Bool.and_eq_true, decide_eq_true_eq] at able
      exact able.1

/-- Who owns what is seen from the content. -/
theorem State.OwnedBut.of_content
    (owned : s.OwnedBut but) (same : t.content = s.content) :
  t.OwnedBut but
  := by
  have attempts : t.attempts = s.attempts := (congrArg State.attempts same :)
  have incidents : t.incidents = s.incidents := (congrArg State.incidents same :)
  have resources : t.resources = s.resources := (congrArg State.resources same :)
  have there := owned.congr (t := { s with incidents := t.incidents, resources := t.resources })
    rfl rfl resources incidents
  refine ⟨?_, ?_, there.resources, ?_⟩
  · rw [attempts]
    exact owned.attempts
  · intro id effect known
    obtain ⟨effect', known', eq⟩ :=
      Table.lookup_of_mapValues_eq (congrArg State.effects same) known
    have role : effect.ownerRole = effect'.ownerRole := (congrArg EffectAction.ownerRole eq :)
    rw [role]
    exact owned.effects id effect' known'
  · unfold Incident.Owned
    rw [attempts]
    exact there.incidents

namespace Lifecycle

variable {c c' : LifecycleRecordContext} {occurredAt : Stamp} {source : LifecycleMigrationEvent}

/-- The incident is one that the command at hand has opened and not yet held against its companion.
-/
def Unproved (c : LifecycleRecordContext) (id : String) (incident : Incident) : Prop :=
  ∃ event, c.incidentEvents.lookup id = some event ∧ event.type = "incident.opened" ∧
    event.incident.SameOrigin incident

/-- Whether an incident is proved depends on its origin. -/
theorem Unproved.same
    {id : String} (same : i.SameOrigin i') (unproved : Unproved c id i) :
  Unproved c id i'
  := by
  obtain ⟨event, found, opened, origin⟩ := unproved
  exact ⟨event, found, opened, same.id.trans origin.id, same.sourceType.trans origin.sourceType,
    same.sourceId.trans origin.sourceId, same.nodeId.trans origin.nodeId,
    same.ownerRole.trans origin.ownerRole⟩

/-- A ledger with the same bodies of incidents has the same unproved ones. -/
theorem owned_of_same
    (owned : s.OwnedBut (Unproved c)) (same : c'.incidentEvents = c.incidentEvents) :
  s.OwnedBut (Unproved c')
  := by
  have unproved : Unproved c' = Unproved c := by
    unfold Unproved
    rw [same]
  rw [unproved]
  exact owned

/-- An incident that is held against its companion is owned if the companion is. -/
theorem owned_of_proved
    {id : String} {event : LifecycleIncidentEvent} (owned : s.OwnedBut (Unproved c))
    (found : c.incidentEvents.lookup id = some event) (owner : event.incident.Owned s)
    (erased : c'.incidentEvents = c.incidentEvents.erase id) :
  s.OwnedBut (Unproved c')
  := by
  refine ⟨owned.attempts, owned.effects, owned.resources, fun id' incident known => ?_⟩
  obtain ⟨own, sourced, both⟩ := owned.incidents id' incident known
  refine ⟨own, sourced, ?_⟩
  rcases both with owner' | ⟨event', found', opened, origin⟩
  · exact .inl owner'
  · by_cases here : id' = id
    · rw [here, found] at found'
      obtain rfl := Option.some.inj found'
      exact .inl (owner.same origin)
    · refine .inr ⟨event', ?_, opened, origin⟩
      rw [erased, AList.lookup_erase_ne here]
      exact found'

/-- When nothing is claimed any more, every incident is owned. -/
theorem owned_of_empty
    {u : Unit} (owned : s.OwnedBut (Unproved c))
    (empty : ensureLifecycleProofLedgerEmpty c' = .ok u)
    (same : c'.incidentEvents = c.incidentEvents) :
  s.Owned
  := by
  have cleared := cleared_of_empty empty
  refine ⟨owned.attempts, owned.effects, owned.resources, fun id incident known => ?_⟩
  obtain ⟨own, sourced, both⟩ := owned.incidents id incident known
  refine ⟨own, sourced, both.imp_right ?_⟩
  rintro ⟨event, found, -⟩
  have none := cleared.events id
  rw [same, Table.has_iff.mpr ⟨event, found⟩] at none
  cases none

/-! ### Companions -/

/-- The companion of a closure belongs to the role of the resource. -/
theorem resourceCompanion_owned
    {resource : ResourceLease} (role : resource.roleId ≠ "") (prior : Option Incident)
    (observedAt deadline : Stamp) :
  (resourceCompanion s resource prior observedAt deadline).Owned s
  := by
  have origin : (resourceCompanion s resource prior observedAt deadline).ownerRole =
        resource.roleId ∧
      (resourceCompanion s resource prior observedAt deadline).sourceType = "resource" := by
    unfold resourceCompanion normalizeIncidentForWriterComparison carryOver
    dsimp only
    split_ifs <;> split <;> try split_ifs
    all_goals exact ⟨rfl, rfl⟩
  refine ⟨?_, fun source => ?_⟩
  · rw [origin.1]
    exact role
  · rw [origin.2] at source
    exact absurd source (by decide)

/-- The companion of an observation belongs to the owner of the effect. -/
theorem effectCompanion_owned
    {effect : EffectAction} (role : effect.ownerRole ≠ "") (actionId : String)
    (prior : Option Incident) (observedAt deadline : Stamp) :
  (effectCompanion s actionId effect prior observedAt deadline).Owned s
  := by
  have origin : (effectCompanion s actionId effect prior observedAt deadline).ownerRole =
        effect.ownerRole ∧
      (effectCompanion s actionId effect prior observedAt deadline).sourceType = "effect" := by
    unfold effectCompanion normalizeIncidentForWriterComparison carryOver
    dsimp only
    split_ifs <;> split <;> try split_ifs
    all_goals exact ⟨rfl, rfl⟩
  refine ⟨?_, fun source => ?_⟩
  · rw [origin.1]
    exact role
  · rw [origin.2] at source
    exact absurd source (by decide)

/-- The companion of a completion belongs to the role of the attempt and names its node. -/
theorem completionCompanion_owned
    {node : NodeDefinition} {attemptId classification : String} {attempt : Attempt}
    (owned : s.OwnedBut but) (known : s.attempts.lookup attemptId = some attempt)
    (there : attempt.nodeId = node.id) (finish : AttemptFinish) (deadline : Stamp) :
  (completionCompanion s node attemptId classification finish deadline).Owned s
  := by
  unfold completionCompanion normalizeIncidentForWriterComparison
  rw [Table.get_of_lookup known]
  split_ifs <;>
    exact ⟨(owned.attempts attemptId attempt known).2, fun _ => ⟨attempt, known, there⟩⟩

/-- A closure action proves the incident of its resource. -/
theorem useResource_owned
    {action : ActionRecord} {input : Json} (owned : s.OwnedBut (Unproved c))
    (h : useResource c s action input = .ok c') :
  s.OwnedBut (Unproved c')
  := by
  simp only [useResource, bind_eq_ok, need_eq_ok, Except.ok.injEq] at h
  obtain ⟨resourceId, -, _, -, resource, known, before, -, observation, -, _, -, _, -, c₁, consumed,
    rfl⟩ := h
  suffices used : s.OwnedBut (Unproved c₁) from owned_of_same used rfl
  simp only [consumeResourceIncidentEvent, bind_eq_ok] at consumed
  obtain ⟨_, -, consumed⟩ := consumed
  by_cases confirmed : observation.status = .confirmed
  · simp only [if_pos confirmed, bind_eq_ok, Except.ok.injEq] at consumed
    obtain ⟨_, -, _, -, rfl⟩ := consumed
    exact owned_of_same owned rfl
  · simp only [if_neg confirmed, bind_eq_ok, need_eq_ok, check_eq_ok, Bool.and_eq_true,
      decide_eq_true_eq, Except.ok.injEq] at consumed
    obtain ⟨_, -, event, filed, deadline, -, _, ⟨-, companion⟩, rfl⟩ := consumed
    refine owned_of_proved owned filed ?_ rfl
    rw [companion]
    exact resourceCompanion_owned (owned.resources resourceId resource known) _ _ _

/-- A completion action proves the incident of its attempt. -/
theorem useCompletion_owned
    {action : ActionRecord} {node : NodeDefinition} {input : Json} {attempt : Attempt}
    (owned : s.OwnedBut (Unproved c)) (known : s.attempts.lookup action.attemptId = some attempt)
    (there : attempt.nodeId = node.id) (h : useCompletion p c s action node input = .ok c') :
  s.OwnedBut (Unproved c')
  := by
  simp only [useCompletion, bind_eq_ok, need_eq_ok, Except.ok.injEq, Prod.exists] at h
  obtain ⟨finish, -, c₁, classification, classified, c₂, consumed, rfl⟩ := h
  suffices used : s.OwnedBut (Unproved c₂) from owned_of_same used rfl
  have owned₁ : s.OwnedBut (Unproved c₁) := by
    unfold completionClassification at classified
    split at classified
    · simp only [bind_eq_ok, Except.ok.injEq, Prod.mk.injEq] at classified
      obtain ⟨_, -, _, -, rfl, -⟩ := classified
      exact owned_of_same owned rfl
    · simp only [bind_eq_ok, Except.ok.injEq, Prod.mk.injEq] at classified
      obtain ⟨_, -, _, -, _, -, rfl, -⟩ := classified
      exact owned
  unfold consumeCompletionIncidentEvent at consumed
  by_cases opens : finish.outcomeClass.opensIncident = true
  · simp only [if_pos opens, bind_eq_ok, need_eq_ok, check_eq_ok, decide_eq_true_eq,
      Option.filter_eq_some_iff, Except.ok.injEq] at consumed
    obtain ⟨event, ⟨filed, -⟩, deadline, -, _, companion, rfl⟩ := consumed
    refine owned_of_proved owned₁ filed ?_ rfl
    rw [companion]
    exact completionCompanion_owned owned known there finish deadline
  · simp only [if_neg opens, bind_eq_ok, Except.ok.injEq] at consumed
    obtain ⟨_, -, rfl⟩ := consumed
    exact owned₁

/-- An action proves the incidents it is held against. -/
theorem validateLifecycleAction_owned
    {action : ActionRecord} {input : Option Json} (owned : s.OwnedBut (Unproved c))
    (h : validateLifecycleAction p c s action input = .ok c') :
  s.OwnedBut (Unproved c')
  := by
  simp only [validateLifecycleAction, bind_eq_ok, need_eq_ok] at h
  obtain ⟨_, -, input, -, node, declared, _, target, _, -, _, -, _, -, h⟩ := h
  have same (kept : c'.incidentEvents = c.incidentEvents) : s.OwnedBut (Unproved c') :=
    owned_of_same owned kept
  by_cases renewal : action.kind = "role.renew"
  · rw [if_pos renewal] at h
    simp only [useRenewal, bind_eq_ok, Except.ok.injEq] at h
    obtain ⟨_, -, _, -, _, -, _, -, rfl⟩ := h
    exact same rfl
  rw [if_neg renewal] at h
  by_cases start : action.kind = "node.start"
  · rw [if_pos start] at h
    simp only [useStart, bind_eq_ok, Except.ok.injEq] at h
    obtain ⟨_, -, _, -, rfl⟩ := h
    exact same rfl
  rw [if_neg start] at h
  by_cases checkpoint : action.kind = "attempt.checkpoint"
  · rw [if_pos checkpoint] at h
    simp only [useCheckpoint, bind_eq_ok, Except.ok.injEq] at h
    obtain ⟨_, -, _, -, _, -, rfl⟩ := h
    exact same rfl
  rw [if_neg checkpoint] at h
  by_cases status : ["attempt.wait", "attempt.resume", "attempt.submit"].contains action.kind = true
  · rw [if_pos status] at h
    simp only [useStatus, bind_eq_ok, Except.ok.injEq] at h
    obtain ⟨_, -, rfl⟩ := h
    exact same rfl
  rw [if_neg status] at h
  by_cases publish : action.kind = "evidence.publish"
  · rw [if_pos publish] at h
    simp only [usePackage, bind_eq_ok, Except.ok.injEq] at h
    obtain ⟨_, -, _, -, rfl⟩ := h
    exact same rfl
  rw [if_neg publish] at h
  by_cases assess : action.kind = "evidence.assess-reuse"
  · rw [if_pos assess] at h
    simp only [useReuse, bind_eq_ok, Except.ok.injEq] at h
    obtain ⟨_, -, _, -, rfl⟩ := h
    exact same rfl
  rw [if_neg assess] at h
  by_cases prepare : action.kind = "effect.prepare"
  · rw [if_pos prepare] at h
    simp only [useEffect, bind_eq_ok, Except.ok.injEq] at h
    obtain ⟨_, -, _, -, rfl⟩ := h
    exact same rfl
  rw [if_neg prepare] at h
  by_cases closure : action.kind = "resource.close" ∨ action.kind = "resource.reconcile"
  · rw [if_pos closure] at h
    exact useResource_owned owned h
  rw [if_neg closure] at h
  by_cases completes : completionKinds.contains action.kind = true
  · rw [if_pos completes] at h
    unfold actionTarget at target
    rw [if_neg renewal, check_eq_ok, Bool.and_eq_true, Option.any_eq_true] at target
    obtain ⟨-, attempt, known, there⟩ := target
    rw [decide_eq_true_eq] at there
    exact useCompletion_owned owned known
      (there.trans (State.nodeDefinition_some declared).1.symm) h
  · rw [if_neg completes] at h
    cases h

end Lifecycle

/-! ### Commands -/

namespace Lifecycle

variable {c c' : LifecycleRecordContext} {occurredAt : Stamp} {source : LifecycleMigrationEvent}

/-- An incident that is opened is unproved, and the others are as they were. -/
theorem openIncident_owned
    {incident : Incident} (owned : s.OwnedBut (Unproved c))
    (h : openIncident p c s occurredAt incident = .ok (c', t)) :
  t.OwnedBut (Unproved c')
  := by
  simp only [openIncident, validateLifecycleIncident, incidentFields, fileIncident, bind_eq_ok,
    check_eq_ok, Bool.and_eq_true, Except.ok.injEq, Prod.mk.injEq] at h
  obtain ⟨_, ⟨_, fields, -⟩, _, -, _, -, rfl, rfl⟩ := h
  have sourced : incident.Sourced := by
    have among := fields.1.1.1.1.1.1.1.1.1.2
    simpa [Incident.Sourced] using among
  refine owned.incident incident sourced (.inr ?_) ?_
  · refine ⟨{ type := "incident.opened", incident, prior := s.incidents.lookup incident.id }, ?_,
      rfl, ⟨rfl, rfl, rfl, rfl, rfl⟩⟩
    rw [Table.lookup_insert, if_pos rfl]
  · rintro id i apart ⟨event, found, opened, origin⟩
    refine ⟨event, ?_, opened, origin⟩
    rw [Table.lookup_insert, if_neg apart]
    exact found

/-- An incident that is updated was proved and keeps its origin. -/
theorem updateIncident_owned
    {incident : Incident} (owned : s.OwnedBut (Unproved c))
    (h : updateIncident p c s occurredAt incident = .ok (c', t)) :
  t.OwnedBut (Unproved c')
  := by
  simp only [updateIncident, sameIncident, fileIncident, bind_eq_ok, check_eq_ok,
    Option.any_eq_true, Bool.and_eq_true, decide_eq_true_eq, Bool.not_eq_true', Except.ok.injEq,
    Prod.mk.injEq] at h
  obtain ⟨_, -, _, ⟨current, known, -, same⟩, _, new, rfl, rfl⟩ := h
  obtain ⟨own, sourced, both⟩ := owned.incidents incident.id current known
  have origin : current.SameOrigin incident :=
    ⟨own.symm, same.1.1.1.1.1.1.symm, same.1.1.1.1.1.2.symm, same.1.1.1.1.2.symm,
      same.1.1.1.2.symm⟩
  have owner : current.Owned s := by
    rcases both with owner | ⟨event, found, -⟩
    · exact owner
    · rw [Table.has_iff.mpr ⟨event, found⟩] at new
      cases new
  refine owned.incident incident (sourced.same origin) (.inl (owner.same origin)) ?_
  rintro id i apart ⟨event, found, opened, origin⟩
  refine ⟨event, ?_, opened, origin⟩
  rw [Table.lookup_insert, if_neg apart]
  exact found

/-- An action that is applied proves the incidents it is held against. -/
theorem applyAction_owned
    {action : ActionRecord} {input : Option Json} (owned : s.OwnedBut (Unproved c))
    (h : applyAction p c s action input = .ok (c', t)) :
  t.OwnedBut (Unproved c')
  := by
  simp only [applyAction, bind_eq_ok, Except.ok.injEq, Prod.mk.injEq] at h
  obtain ⟨c₁, used, _, -, _, -, _, -, rfl, rfl⟩ := h
  have proved := validateLifecycleAction_owned owned used
  have filed := proved.congr (t := { s with actions := s.actions.insert action.id action })
    rfl rfl rfl rfl
  exact owned_of_same filed rfl

/-- An event that is about no body of an incident and no action leaves the bodies as they are. -/
theorem incidentEvents_of_applied
    {event : Event} (plain : event.nativeType ≠ "action.applied")
    (opened : event.nativeType ≠ "incident.opened")
    (updated : event.nativeType ≠ "incident.updated")
    (h : applyValidatedLifecycleEvent p c s occurredAt source event = .ok (c', t)) :
  c'.incidentEvents = c.incidentEvents
  := by
  simp only [applyValidatedLifecycleEvent] at h
  cases event with
  | roleBound lease =>
      simp only [bindRole, bind_eq_ok, Except.ok.injEq, Prod.mk.injEq] at h
      obtain ⟨_, -, _, -, _, -, rfl, -⟩ := h
      rfl
  | roleTransferred transfer =>
      simp only [transferRole, bind_eq_ok, Except.ok.injEq, Prod.mk.injEq] at h
      obtain ⟨_, -, _, -, _, -, _, -, _, -, _, -, rfl, -⟩ := h
      rfl
  | roleReleased roleId releasedAt =>
      simp only [releaseRole, bind_eq_ok, Except.ok.injEq, Prod.mk.injEq] at h
      obtain ⟨_, -, rfl, -⟩ := h
      rfl
  | attemptStarted attempt | attemptLeased attempt =>
      simp only [startAttempt, bind_eq_ok, Except.ok.injEq, Prod.mk.injEq] at h
      obtain ⟨_, -, _, -, _, -, _, -, _, -, rfl, -⟩ := h
      rfl
  | attemptStatusChanged id status updatedAt =>
      simp only [changeAttemptStatus, bind_eq_ok, Except.ok.injEq, Prod.mk.injEq] at h
      obtain ⟨_, -, rfl, -⟩ := h
      rfl
  | attemptCheckpointed checkpoint =>
      simp only [recordCheckpoint, bind_eq_ok, Except.ok.injEq, Prod.mk.injEq] at h
      obtain ⟨_, -, _, -, _, -, _, -, rfl, -⟩ := h
      rfl
  | evidencePackagePublished pack =>
      simp only [publishPackage, bind_eq_ok, Except.ok.injEq, Prod.mk.injEq] at h
      obtain ⟨_, -, _, -, _, -, _, -, _, -, rfl, -⟩ := h
      rfl
  | evidenceReuseAssessed decision =>
      simp only [assessReuse, bind_eq_ok, Except.ok.injEq, Prod.mk.injEq] at h
      obtain ⟨_, -, _, -, _, -, _, -, _, -, _, -, rfl, -⟩ := h
      rfl
  | decisionRecorded decision =>
      simp only [recordDecision, bind_eq_ok, Except.ok.injEq, Prod.mk.injEq] at h
      obtain ⟨_, -, _, -, _, -, rfl, -⟩ := h
      rfl
  | resourceLeased resource =>
      simp only [leaseResource, bind_eq_ok, Except.ok.injEq, Prod.mk.injEq] at h
      obtain ⟨_, -, _, -, _, -, _, -, _, -, rfl, -⟩ := h
      rfl
  | resourceClosureObserved id status receipt updatedAt =>
      simp only [observeClosure, bind_eq_ok, Except.ok.injEq, Prod.mk.injEq] at h
      obtain ⟨_, -, _, -, rfl, -⟩ := h
      rfl
  | resourceReleased id releasedAt =>
      simp only [releaseResource, bind_eq_ok, Except.ok.injEq, Prod.mk.injEq] at h
      obtain ⟨_, -, rfl, -⟩ := h
      rfl
  | effectPrepared effect =>
      simp only [prepareEffect, bind_eq_ok, Except.ok.injEq, Prod.mk.injEq] at h
      obtain ⟨_, -, _, -, _, -, _, -, _, -, rfl, -⟩ := h
      rfl
  | effectDispatched id dispatchedAt =>
      simp only [dispatchEffect, bind_eq_ok, Except.ok.injEq, Prod.mk.injEq] at h
      obtain ⟨_, -, rfl, -⟩ := h
      rfl
  | effectReconciling id reconcilingAt =>
      simp only [reconcileEffect, bind_eq_ok, Except.ok.injEq, Prod.mk.injEq] at h
      obtain ⟨_, -, _, -, rfl, -⟩ := h
      rfl
  | effectObserved id status receipt updatedAt =>
      simp only [observeEffect, bind_eq_ok, Except.ok.injEq, Prod.mk.injEq] at h
      obtain ⟨_, -, _, -, _, -, _, -, _, -, _, -, _, -, rfl, -⟩ := h
      rfl
  | attemptFinished id outcome outcomeClass facts updatedAt =>
      simp only [finishAttempt, bind_eq_ok, Except.ok.injEq, Prod.mk.injEq] at h
      obtain ⟨_, -, _, -, _, -, _, -, _, -, _, -, _, -, rfl, -⟩ := h
      rfl
  | incidentResolved id resolvedAt =>
      simp only [resolveIncident, bind_eq_ok, Except.ok.injEq, Prod.mk.injEq] at h
      obtain ⟨_, -, _, -, rfl, -⟩ := h
      rfl
  | actionApplied => exact absurd rfl plain
  | incidentOpened => exact absurd rfl opened
  | incidentUpdated => exact absurd rfl updated
  | _ => cases h

/-- An event that the importer accepts respects the owners, apart from the body of an incident. -/
theorem owns_of_applied
    {event : Event} (owned : s.OwnedBut but) (opened : event.nativeType ≠ "incident.opened")
    (updated : event.nativeType ≠ "incident.updated")
    (h : applyValidatedLifecycleEvent p c s occurredAt source event = .ok (c', t)) :
  event.Owns s
  := by
  simp only [applyValidatedLifecycleEvent] at h
  cases event with
  | attemptStarted attempt | attemptLeased attempt =>
      simp only [startAttempt, bind_eq_ok, check_eq_ok, Option.any_eq_true] at h
      obtain ⟨_, -, _, -, _, -, _, ⟨capability, -, able⟩, -⟩ := h
      exact GraphDefinition.ne_empty_of_roleHasCapability able
  | effectPrepared effect =>
      simp only [prepareEffect, bind_eq_ok, need_eq_ok, check_eq_ok, Bool.and_eq_true,
        decide_eq_true_eq] at h
      obtain ⟨attempt, known, _, -, _, fields, -⟩ := h
      have role : effect.ownerRole = attempt.roleId := fields.1.1.1.1.1.1.1.1.1.2
      change effect.ownerRole ≠ ""
      rw [role]
      exact (owned.attempts _ attempt known).2
  | effectObserved id status receipt updatedAt =>
      obtain ⟨effect, known, -⟩ := observeEffect_ok h
      exact Table.has_iff.mpr ⟨effect, known⟩
  | resourceLeased resource =>
      simp only [leaseResource, bind_eq_ok, need_eq_ok, check_eq_ok, Bool.and_eq_true,
        decide_eq_true_eq] at h
      obtain ⟨attempt, known, _, -, _, fields, -⟩ := h
      have role : attempt.roleId = resource.roleId := fields.1.1.1.1.1.1.2
      change resource.roleId ≠ ""
      rw [← role]
      exact (owned.attempts _ attempt known).2
  | incidentOpened => exact absurd rfl opened
  | incidentUpdated => exact absurd rfl updated
  | _ => trivial

/-- An event that the importer accepts keeps the owners up to what is unproved. -/
theorem applyValidatedLifecycleEvent_owned
    {event : Event} (filed : Filed s) (owned : s.OwnedBut (Unproved c))
    (h : applyValidatedLifecycleEvent p c s occurredAt source event = .ok (c', t)) :
  t.OwnedBut (Unproved c')
  := by
  let noted : LifecycleRecordContext := { c with eventTypes := c.eventTypes ++ [source.type] }
  have before : s.OwnedBut (Unproved noted) := owned_of_same owned rfl
  by_cases opened : event.nativeType = "incident.opened"
  · obtain ⟨incident, rfl⟩ : ∃ incident, event = .incidentOpened incident := by
      cases event <;> simp [Event.nativeType] at opened
      exact ⟨_, rfl⟩
    have step : openIncident p noted s occurredAt incident = .ok (c', t) := h
    exact openIncident_owned before step
  by_cases updated : event.nativeType = "incident.updated"
  · obtain ⟨incident, rfl⟩ : ∃ incident, event = .incidentUpdated incident := by
      cases event <;> simp [Event.nativeType] at updated
      exact ⟨_, rfl⟩
    have step : updateIncident p noted s occurredAt incident = .ok (c', t) := h
    exact updateIncident_owned before step
  by_cases applied : event.nativeType = "action.applied"
  · obtain ⟨action, rfl⟩ : ∃ action, event = .actionApplied action := by
      cases event <;> simp [Event.nativeType] at applied
      exact ⟨_, rfl⟩
    have step : applyAction p noted s action (source.bound "input") = .ok (c', t) := h
    exact applyAction_owned before step
  · obtain ⟨r, step, content⟩ := applyValidatedLifecycleEvent_refines filed 0 .unset h
    have kept := State.applyEvent_ownedBut owned (fun _ _ _ => Unproved.same) (lawful_of_applied h)
      (owns_of_applied owned opened updated h) step
    exact owned_of_same (kept.of_content content.symm)
      (incidentEvents_of_applied applied opened updated h)

/-- A command that is closed has proved its incidents. -/
theorem owned_of_closed
    (owned : s.OwnedBut (Unproved c)) (h : validateLifecycleRecordClosed c s = .ok ()) :
  s.Owned
  := by
  unfold validateLifecycleRecordClosed at h
  split at h
  · simp only [bind_eq_ok] at h
    obtain ⟨_, -, empty⟩ := h
    exact owned_of_empty owned empty rfl
  · split at h
    · rename_i actionId observation observed
      simp only [closeEffectObservation, bind_eq_ok] at h
      obtain ⟨used, consumed, _, -, empty⟩ := h
      suffices proved : s.OwnedBut (Unproved used) from owned_of_empty proved empty rfl
      simp only [consumeEffectIncidentEvent, bind_eq_ok] at consumed
      obtain ⟨_, -, consumed⟩ := consumed
      by_cases confirmed : observation.status = .confirmed
      · simp only [if_pos confirmed, bind_eq_ok, Except.ok.injEq] at consumed
        obtain ⟨_, -, _, -, rfl⟩ := consumed
        exact owned_of_same owned rfl
      simp only [if_neg confirmed] at consumed
      by_cases reconciling : observation.status = .reconciling
      · simp only [if_pos reconciling, bind_eq_ok, Except.ok.injEq] at consumed
        obtain ⟨_, -, rfl⟩ := consumed
        exact owned
      · simp only [if_neg reconciling, bind_eq_ok, need_eq_ok, check_eq_ok, Bool.and_eq_true,
          decide_eq_true_eq, Option.filter_eq_some_iff, Except.ok.injEq] at consumed
        obtain ⟨_, -, event, filed, effect, ⟨known, -⟩, deadline, -, _, ⟨-, companion⟩, rfl⟩ :=
          consumed
        refine owned_of_proved owned filed ?_ rfl
        rw [companion]
        exact effectCompanion_owned (owned.effects _ effect known) _ _ _ _
    · cases h
    · rename_i incidentId event _ _ single
      simp only [bind_eq_ok, check_eq_ok, Bool.and_eq_true, decide_eq_true_eq] at h
      obtain ⟨_, ⟨updated, -⟩, empty⟩ := h
      -- the one body there is opens no incident
      refine owned_of_empty (c := { c with incidentEvents := c.incidentEvents.erase incidentId }) ?_
        empty rfl
      refine ⟨owned.attempts, owned.effects, owned.resources, fun id incident known => ?_⟩
      obtain ⟨own, sourced, both⟩ := owned.incidents id incident known
      refine ⟨own, sourced, both.imp_right ?_⟩
      rintro ⟨event', found, opened, -⟩
      have among : event' = event := by
        rw [AList.lookup, single] at found
        by_cases here : incidentId = id
        · subst here
          simpa using found.symm
        · rw [List.dlookup_cons_ne _ _ (Ne.symm here)] at found
          cases found
      rw [among, updated] at opened
      exact absurd opened (by decide)
    · simp only [bind_eq_ok] at h
      obtain ⟨_, -, empty⟩ := h
      exact owned_of_empty owned empty rfl
    · cases h

/-- The events of a command keep the owners up to what is unproved. -/
theorem owned_of_events
    {events : List LifecycleMigrationEvent} (filed : Filed s) (owned : s.OwnedBut (Unproved c))
    (h : events.foldlM (applyEvent p occurredAt) (c, s) = .ok (c', s')) :
  Filed s' ∧ s'.OwnedBut (Unproved c')
  := by
  induction events generalizing c s with
  | nil =>
      obtain ⟨rfl, rfl⟩ : c = c' ∧ s = s' := by simpa using h
      exact ⟨filed, owned⟩
  | cons source rest ih =>
      simp only [List.foldlM_cons, bind_eq_ok, applyEvent] at h
      obtain ⟨⟨c₁, t⟩, ⟨event, -, applied⟩, rest⟩ := h
      exact ih (applyValidatedLifecycleEvent_filed filed applied)
        (applyValidatedLifecycleEvent_owned filed owned applied) rest

/-- The commands of a history keep the owners. -/
theorem owned_of_commands
    {commands : List SourceCommand} (filed : Filed s) (owned : s.Owned)
    (h : commands.foldlM (applyCommand p) (c, s) = .ok (c', s')) :
  s'.Owned
  := by
  induction commands generalizing c s with
  | nil =>
      obtain ⟨rfl, rfl⟩ : c = c' ∧ s = s' := by simpa using h
      exact owned
  | cons command rest ih =>
      simp only [List.foldlM_cons, bind_eq_ok, applyCommand] at h
      obtain ⟨⟨c₁, t⟩, ⟨_, -, ⟨c₂, t₂⟩, events, _, closed, same⟩, rest⟩ := h
      obtain ⟨rfl, rfl⟩ : c₂ = c₁ ∧ t₂ = t := by simpa using same
      have start : s.OwnedBut (Unproved (newLifecycleRecordContext c.effectAdmissions)) :=
        ⟨owned.attempts, owned.effects, owned.resources, fun id incident known =>
          (owned.incidents id incident known).imp_right fun both => both.imp_right fun other =>
            other.imp_right False.elim⟩
      obtain ⟨filed', owned'⟩ := owned_of_events filed start events
      exact ih filed' (owned_of_closed owned' closed) rest

/-- A history that is accepted keeps the owners. -/
theorem owned_of_sequence
    {commands : List SourceCommand} (filed : Filed s) (owned : s.Owned)
    (h : simulateLifecycleEventSequence p s commands = .ok s') :
  s'.Owned
  := by
  simp only [simulateLifecycleEventSequence, bind_eq_ok] at h
  obtain ⟨⟨c, t⟩, applied, _, -, same⟩ := h
  obtain rfl : t = s' := by simpa using same
  exact owned_of_commands filed owned applied

end Lifecycle

/-! ### Batches -/

/-- Attempts stay on their nodes, and effects stay known. -/
structure State.Keeps (s t : State) : Prop where
  attempts : ∀ id attempt, s.attempts.lookup id = some attempt → ∃ attempt',
    t.attempts.lookup id = some attempt' ∧ attempt'.nodeId = attempt.nodeId
  effects : ∀ id, s.effects.has id = true → t.effects.has id = true

namespace State.Keeps

/-- States with the same attempts and effects keep them. -/
theorem of_eq
    (attempts : t.attempts = s.attempts) (effects : t.effects = s.effects) :
  s.Keeps t
  := by
  refine ⟨fun id attempt known => ⟨attempt, ?_, rfl⟩, fun id known => ?_⟩
  · rw [attempts]
    exact known
  · rw [effects]
    exact known

/-- What is kept twice is kept. -/
theorem trans
    {r : State} (first : r.Keeps s) (second : s.Keeps t) :
  r.Keeps t
  := by
  refine ⟨fun id attempt known => ?_, fun id known => second.effects id (first.effects id known)⟩
  obtain ⟨attempt', known', same⟩ := first.attempts id attempt known
  obtain ⟨attempt'', known'', same'⟩ := second.attempts id attempt' known'
  exact ⟨attempt'', known'', same'.trans same⟩

/-- An attempt that is filed on the node it had keeps attempts and effects. -/
theorem insert
    (new : Attempt) (attempts : t.attempts = s.attempts.insert new.id new)
    (effects : t.effects = s.effects)
    (kept : ∀ old, s.attempts.lookup new.id = some old → new.nodeId = old.nodeId) :
  s.Keeps t
  := by
  refine ⟨fun id attempt known => ?_, fun id known => effects ▸ known⟩
  rw [attempts, Table.lookup_insert]
  split_ifs with here
  · rw [here] at known
    exact ⟨new, rfl, kept attempt known⟩
  · exact ⟨attempt, known, rfl⟩

/-- A revised graph keeps attempts and effects. -/
theorem reviseGraph
    (owned : s.OwnedBut but) (graph : GraphDefinition) (revision : String)
    (superseded : List String) (at_ : Stamp) :
  s.Keeps (s.reviseGraph graph revision superseded at_)
  := by
  have one : ∀ {r : State} (nodeId : String), r.OwnedBut but →
      r.Keeps (State.supersedeNode at_ r nodeId) := by
    intro r nodeId owned
    have effects : (State.supersedeNode at_ r nodeId).effects = r.effects := by
      rw [State.supersedeNode_eq]
    obtain ⟨-, -, -, attempts⟩ := LiveAttempts.supersedeNode_fields r at_ nodeId
    split at attempts
    · rename_i attempt last
      split_ifs at attempts
      · exact of_eq attempts effects
      · simp only [State.latestAttempt, Option.bind_eq_some_iff] at last
        obtain ⟨id, -, known⟩ := last
        refine insert (attempt.superseded at_) attempts effects fun old found => ?_
        obtain ⟨rfl, -⟩ := owned.attempts id attempt known
        obtain rfl := Option.some.inj (known.symm.trans found)
        rfl
    · exact of_eq attempts effects
  have fold : ∀ {r : State}, r.OwnedBut but →
      r.Keeps (superseded.foldl (State.supersedeNode at_) r) := by
    induction superseded with
    | nil => exact fun _ => of_eq rfl rfl
    | cons nodeId rest ih =>
        exact fun owned => (one nodeId owned).trans (ih (owned.supersedeNode at_ nodeId))
  have start : s.Keeps { s with
      graph := some graph, graphRevision := revision, nodes := State.revisedNodes s.nodes graph } :=
    of_eq rfl rfl
  exact start.trans (fold (owned.congr rfl rfl rfl rfl))

end State.Keeps

/-- Replaying an event keeps attempts and effects. -/
theorem State.applyEvent_keeps
    (owned : s.OwnedBut but) (lawful : event.Lawful s) (h : s.applyEvent p n at_ event = .ok s') :
  s.Keeps s'
  := by
  have frame := applyEvent_frame h
  cases event with
  | graphRevised graph revision previous superseded impact =>
      obtain rfl := Except.ok.inj h
      exact .reviseGraph owned graph revision superseded at_
  | graphImported graph revision digest =>
      obtain rfl := Except.ok.inj h
      exact .of_eq rfl rfl
  | attemptStarted attempt | attemptLeased attempt =>
      obtain rfl := Except.ok.inj h
      refine .insert attempt rfl rfl fun old known => ?_
      have unused : s.attempts.has attempt.id = false := lawful.1
      rw [Table.has_iff.mpr ⟨old, known⟩] at unused
      cases unused
  | attemptCheckpointed checkpoint =>
      obtain rfl := Except.ok.inj h
      obtain ⟨attempt, known⟩ := Table.has_iff.mp lawful
      simp only [recordCheckpoint, Table.get_of_lookup known]
      let noted : Attempt :=
        { attempt with checkpointId := checkpoint.id, updatedAt := checkpoint.createdAt }
      refine .insert noted rfl rfl fun old found => ?_
      obtain ⟨own, -⟩ := owned.attempts _ attempt known
      rw [own, known] at found
      obtain rfl := Option.some.inj found
      rfl
  | attemptStatusChanged id status updatedAt =>
      obtain rfl := Except.ok.inj h
      obtain ⟨⟨attempt, known, -⟩, -⟩ := lawful
      simp only [changeAttemptStatus, Table.get_of_lookup known]
      let moved : Attempt := { attempt with status, updatedAt }
      refine .insert moved rfl rfl fun old found => ?_
      obtain ⟨own, -⟩ := owned.attempts _ attempt known
      rw [own, known] at found
      obtain rfl := Option.some.inj found
      rfl
  | attemptFinished id outcome outcomeClass facts updatedAt =>
      obtain rfl := Except.ok.inj h
      obtain ⟨⟨attempt, known, -⟩, -⟩ := lawful
      simp only [finishAttempt, Table.get_of_lookup known]
      let closed : Attempt := { attempt with status := .terminal, outcome, updatedAt }
      refine .insert closed rfl rfl fun old found => ?_
      obtain ⟨own, -⟩ := owned.attempts _ attempt known
      rw [own, known] at found
      obtain rfl := Option.some.inj found
      rfl
  | nodeAutoCompleted nodeId outcome | nodeAutoSkipped nodeId reason =>
      obtain ⟨-, rfl⟩ := settleNode_ok h
      exact .of_eq rfl rfl
  | effectPrepared effect =>
      obtain rfl := Except.ok.inj h
      exact ⟨fun id attempt known => ⟨attempt, known, rfl⟩, fun id known => by simp [known]⟩
  | effectDispatched id dispatchedAt =>
      obtain ⟨effect, -, rfl⟩ := dispatchEffect_ok h
      exact ⟨fun id attempt known => ⟨attempt, known, rfl⟩, fun id known => by simp [known]⟩
  | effectReconciling id reconcilingAt =>
      obtain ⟨effect, -, rfl⟩ := reconcileEffect_ok h
      rw [setActionStatus_eq]
      exact ⟨fun id attempt known => ⟨attempt, known, rfl⟩, fun id known => by simp [known]⟩
  | effectObserved id status receipt updatedAt =>
      obtain rfl := Except.ok.inj h
      rw [State.observeEffect, setActionStatus_eq]
      exact ⟨fun id attempt known => ⟨attempt, known, rfl⟩, fun id known => by simp [known]⟩
  | _ =>
      obtain ⟨-, attempts, -⟩ := frame.runs rfl
      exact .of_eq attempts (frame.effects rfl)

/-- What an event respects in a state it respects where attempts and effects are kept. -/
theorem Event.Owns.mono
    (owns : event.Owns s) (keeps : s.Keeps t) :
  event.Owns t
  := by
  have incidents : ∀ {incident : Incident}, incident.Sourced ∧ incident.Owned s →
      incident.Sourced ∧ incident.Owned t := by
    rintro incident ⟨sourced, owner, node⟩
    refine ⟨sourced, owner, fun source => ?_⟩
    obtain ⟨attempt, known, there⟩ := node source
    obtain ⟨attempt', known', same⟩ := keeps.attempts _ attempt known
    exact ⟨attempt', known', same.trans there⟩
  cases event with
  | effectObserved id => exact keeps.effects id owns
  | incidentOpened incident | incidentUpdated incident => exact incidents owns
  | _ => exact owns

/-- A lawful batch whose events respect the owners keeps them. -/
theorem LawfulBatch.owned
    {events : List Event} (lawful : LawfulBatch p n at_ s events) (owned : s.Owned)
    (owns : ∀ event ∈ events, event.Owns s)
    (applied : events.foldlM (State.applyEvent p n at_) s = .ok s') :
  s'.Owned
  := by
  induction events generalizing s with
  | nil =>
      obtain rfl := Except.ok.inj applied
      exact owned
  | cons event rest ih =>
      rw [List.foldlM_cons, bind_eq_ok] at applied
      obtain ⟨s₁, first, applied⟩ := applied
      have keeps := State.applyEvent_keeps owned lawful.1 first
      have owned₁ := State.applyEvent_ownedBut owned (fun _ _ _ _ => False.elim) lawful.1
        (owns event List.mem_cons_self) first
      exact ih (lawful.2 s₁ first) owned₁
        (fun event mem => (owns event (List.mem_cons_of_mem _ mem)).mono keeps) applied

/-! ### Calls -/

variable {env : Env} {now : Instant}

/-- A mutation of an owner keeps the origin of the incident. -/
theorem IncidentCall.change_same
    {call : IncidentCall} {actorRole : String} (h : call.change actorRole i s now = .ok i') :
  i.SameOrigin i'
  := by
  cases call with
  | progress note madeProgress =>
      simp only [change, progressIncident, bind_eq_ok] at h
      obtain ⟨_, -, h⟩ := h
      split_ifs at h <;> obtain rfl := Except.ok.inj h <;> exact ⟨rfl, rfl, rfl, rfl, rfl⟩
  | trip reason =>
      simp only [change, tripIncident, bind_eq_ok, Except.ok.injEq] at h
      obtain ⟨_, -, rfl⟩ := h
      exact ⟨rfl, rfl, rfl, rfl, rfl⟩
  | resolve resolution =>
      simp only [change, Dagrail.resolveIncident, bind_eq_ok, Except.ok.injEq] at h
      obtain ⟨_, -, _, -, rfl⟩ := h
      exact ⟨rfl, rfl, rfl, rfl, rfl⟩
  | dispose disposition note =>
      simp only [change, disposeIncident, bind_eq_ok] at h
      obtain ⟨_, -, h⟩ := h
      split_ifs at h <;> obtain rfl := Except.ok.inj h <;> exact ⟨rfl, rfl, rfl, rfl, rfl⟩
  | supersede successorNodeId note =>
      simp only [change, supersedeIncidentValue, bind_eq_ok, Except.ok.injEq] at h
      obtain ⟨_, -, _, -, _, -, rfl⟩ := h
      exact ⟨rfl, rfl, rfl, rfl, rfl⟩

/-- A controller's resolution keeps the origin of the incident. -/
theorem controlResolveIncidentValue_same
    {actorRole : String} {value : IncidentControlResolveInput}
    (h : controlResolveIncidentValue p actorRole value i s now = .ok i') :
  i.SameOrigin i'
  := by
  simp only [controlResolveIncidentValue, bind_eq_ok, Except.ok.injEq] at h
  obtain ⟨_, -, _, -, _, -, _, -, _, -, rfl⟩ := h
  exact ⟨rfl, rfl, rfl, rfl, rfl⟩

/-- The update of an incident that is committed respects the owners. -/
theorem IncidentCommit.owns
    {change : IncidentChange} {incidentId key : String} {b : Batch} (owned : s.Owned)
    (keeps : ∀ i i' now, change i s now = .ok i' → i.SameOrigin i')
    (h : IncidentCommit s change incidentId key b) :
  ∀ event ∈ b.events, event.Owns s
  := by
  obtain ⟨incident, next, now, known, changed, events⟩ := h.changed
  rw [events, List.forall_mem_singleton]
  obtain ⟨-, sourced, both⟩ := owned.incidents incidentId incident known
  have same : incident.SameOrigin { next with updatedAt := .utc now } :=
    let origin := keeps _ _ _ changed
    ⟨origin.id, origin.sourceType, origin.sourceId, origin.nodeId, origin.ownerRole⟩
  exact ⟨sourced.same same, (both.resolve_right id).same same⟩

/-- The events of an action on a node respect the owners. -/
theorem ActionDone.owns
    {ref : ActionRef} {lease : RoleLease} {node : NodeDefinition} {input : Json}
    {answer : PolicyDecision} {done : ActionEffect} (owned : s.Owned)
    (h : ActionDone p s env ref lease node input answer now done) (role : ref.roleId ≠ "")
    (target : s.nodeDefinition ref.nodeId = some node) :
  ∀ event ∈ done.events, event.Owns s
  := by
  cases h with
  | renewal kind made =>
      obtain ⟨ttl, rfl⟩ := renewalEvents_ok made
      rw [List.forall_mem_singleton]
      trivial
  | start kind made =>
      obtain ⟨-, -, rfl⟩ := startEvents_ok made
      rw [List.forall_mem_cons, List.forall_mem_cons]
      refine ⟨role, trivial, fun event mem => ?_⟩
      rw [startLeases, List.mem_map] at mem
      obtain ⟨⟨request, i⟩, -, rfl⟩ := mem
      exact role
  | checkpoint kind made =>
      obtain ⟨attempt, checkpoint, -, -, -, events⟩ := checkpointEvents_ok made
      rw [events, List.forall_mem_singleton]
      trivial
  | publish kind made =>
      obtain ⟨attempt, value, pack, -, -, -, events⟩ := publishEvents_ok made
      rw [events, List.forall_mem_singleton]
      trivial
  | assess kind made =>
      obtain ⟨attempt, value, decision, -, -, -, events⟩ := assessEvents_ok made
      rw [events, List.forall_mem_singleton]
      trivial
  | status kind made =>
      obtain ⟨attempt, -, events⟩ := statusEvents_ok made
      rw [events, List.forall_mem_singleton]
      trivial
  | completion kind made =>
      obtain ⟨attempt, completion, closed, active, -, -, -, -, events⟩ := completionEvents_ok made
      rw [events]
      unfold Completion.events
      intro event mem
      simp only [List.append_assoc, List.mem_append, List.mem_map, List.mem_singleton] at mem
      rcases mem with ⟨record, -, rfl⟩ | rfl | mem
      · trivial
      · trivial
      · split_ifs at mem
        · obtain rfl := List.mem_singleton.mp mem
          obtain ⟨known, here, -⟩ := activeAttempt_ok active
          obtain ⟨own, -⟩ := owned.attempts _ attempt known
          refine ⟨.inl rfl, role, fun _ => ⟨attempt, ?_, ?_⟩⟩
          · rw [← own] at known
            exact known
          · rw [here]
            exact (State.nodeDefinition_some target).1.symm
        · cases mem

/-- A reference whose target is granted names a role. -/
theorem ActionRef.role_of_target
    {ref : ActionRef} {node : NodeDefinition} (h : ref.target s now = .ok node) :
  ref.roleId ≠ ""
  := by
  simp only [target, bind_eq_ok] at h
  obtain ⟨_, -, _, granted, -⟩ := h
  obtain ⟨-, capability, -, able⟩ := requireRoleCapability_ok granted
  exact GraphDefinition.ne_empty_of_roleHasCapability able

/-- The incident of a closure belongs to the role of the resource. -/
theorem closureIncident_owned
    {resource : ResourceLease} (role : resource.roleId ≠ "") (now : Instant) :
  (closureIncident s resource now).Sourced ∧ (closureIncident s resource now).Owned s
  := by
  have origin : (closureIncident s resource now).ownerRole = resource.roleId ∧
      (closureIncident s resource now).sourceType = "resource" := by
    unfold closureIncident
    dsimp only
    split
    · exact ⟨rfl, rfl⟩
    · split_ifs <;> exact ⟨rfl, rfl⟩
  refine ⟨.inr (.inr origin.2), ?_, fun source => ?_⟩
  · rw [origin.1]
    exact role
  · rw [origin.2] at source
    exact absurd source (by decide)

/-- The incident of an observation belongs to the owner of the effect. -/
theorem effectIncident_owned
    {effect : EffectAction} (role : effect.ownerRole ≠ "") (actionId : String) (now : Instant) :
  (effectIncident s actionId effect now).Sourced ∧ (effectIncident s actionId effect now).Owned s
  := by
  have origin : (effectIncident s actionId effect now).ownerRole = effect.ownerRole ∧
      (effectIncident s actionId effect now).sourceType = "effect" := by
    unfold effectIncident
    dsimp only
    split <;> split_ifs <;> exact ⟨rfl, rfl⟩
  refine ⟨.inr (.inl origin.2), ?_, fun source => ?_⟩
  · rw [origin.1]
    exact role
  · rw [origin.2] at source
    exact absurd source (by decide)

/-- The events of an action respect the owners. -/
theorem ActionCall.apply_owns
    {segments : List Segment} {call : ActionCall} {b : Batch} (owned : s.Owned)
    (h : call.apply p s segments env = .ok (some b)) :
  ∀ event ∈ b.events, event.Owns s
  := by
  obtain ⟨-, executed⟩ := apply_ok h
  cases executed with
  | supersede kind made =>
      obtain ⟨⟨note, commit⟩, -⟩ := applyIncidentSupersedeAction_ok made
      exact commit.owns owned fun i i' now changed =>
        @IncidentCall.change_same s i i' now (.supersede call.ref.successorNodeId note) "" changed
  | controlResolve kind made =>
      obtain ⟨⟨value, commit⟩, -⟩ := applyIncidentControlResolveAction_ok made
      exact commit.owns owned fun i i' now changed => controlResolveIncidentValue_same changed
  | transfer kind value made =>
      obtain ⟨ttl, previous, -, -, -, events, -⟩ := transferRole_ok made
      rw [events, List.forall_mem_singleton]
      trivial
  | resource kind lease node authorized target made =>
      obtain ⟨resource, status, receipt, now, closable, -, events, -⟩ := applyResourceAction_ok made
      rw [events]
      simp only [closableResource, bind_eq_ok, need_eq_ok, Option.filter_eq_some_iff,
        Except.ok.injEq] at closable
      obtain ⟨_, ⟨known, -⟩, _, -, _, -, _, -, rfl⟩ := closable
      have incident := @closureIncident_owned s _ (owned.resources _ _ known) now
      intro event mem
      rw [List.cons_append, List.mem_cons, List.mem_append, List.mem_singleton] at mem
      rcases mem with rfl | mem | rfl
      · trivial
      · rcases mem_closureEvents mem with rfl | rfl | rfl | rfl
        · trivial
        · trivial
        · exact incident
        · exact incident
      · trivial
  | effect kind lease node authorized target made =>
      obtain ⟨effect, commit, -, events, -⟩ := applyEffectAction_ok made
      rw [events, List.forall_mem_cons, List.forall_mem_singleton]
      refine ⟨?_, trivial⟩
      change effect.ownerRole ≠ ""
      rw [commit.ownerRole]
      exact ActionRef.role_of_target target
  | action lease node done authorized target made events command =>
      rw [events]
      intro event mem
      rcases List.mem_append.mp mem with mem | mem
      · exact made.owns owned (ActionRef.role_of_target target) (ActionRef.target_ok target).1 event
          mem
      · rw [List.mem_singleton.mp mem]
        trivial

/-- The events of a call that imports no history respect the owners. -/
theorem Call.owns
    {segments : List Segment} {call : Call} {b : Batch} {saga : Saga} (owned : s.Owned)
    (imports : ∀ value, call ≠ .importHistory value)
    (h : call.start p s segments env = .ok (some (b, saga))) :
  ∀ event ∈ b.events, event.Owns s
  := by
  cases Call.start_ok h with
  | bindRole value b made =>
      obtain ⟨ttl, -, -, -, -, -, events, -, -⟩ := bindRole_ok made
      rw [events, List.forall_mem_singleton]
      trivial
  | renewRole value b made =>
      obtain ⟨ttl, -, -, -, -, -, events, -, -⟩ := bindRole_ok (renewRole_ok made)
      rw [events, List.forall_mem_singleton]
      trivial
  | transferRole value b made =>
      obtain ⟨ttl, previous, -, -, -, events, -⟩ := transferRole_ok made
      rw [events, List.forall_mem_singleton]
      trivial
  | releaseRole roleId sessionId key b made =>
      obtain ⟨-, events, -, -⟩ := releaseRole_ok made
      rw [events, List.forall_mem_singleton]
      trivial
  | apply call b made => exact ActionCall.apply_owns owned made
  | incident incidentId actorRole key change b made =>
      exact (IncidentCall.answer_ok made).1.owns owned fun i i' now => IncidentCall.change_same
  | controlIncident incidentId actorRole value key b made =>
      exact (controlResolveIncident_ok made).1.owns owned fun i i' now =>
        controlResolveIncidentValue_same
  | importGraph value b made =>
      obtain ⟨first, valid, events, -, -⟩ := importGraphDefinition_ok made
      rw [events, List.forall_mem_singleton]
      trivial
  | changeGraph value b made =>
      obtain ⟨graph, impact, superseded, impact', patched, events, -, -⟩ := applyGraphChange_ok made
      rw [events, List.forall_mem_singleton]
      trivial
  | autoSkip b made =>
      obtain ⟨nodeId, cut, events, -⟩ := autoSkip_eq_some made
      rw [events, List.forall_mem_singleton]
      trivial
  | autoComplete b made =>
      obtain ⟨node, outcome, ready, declared, kind, events, -⟩ := autoComplete_ok made
      rw [events, List.forall_mem_singleton]
      trivial
  | importHistory value b made => exact absurd rfl (imports value)
  | reconcile value b effect made =>
      obtain ⟨-, -, events, -⟩ := reconcileAdmission_ok made
      rw [events, List.forall_mem_singleton]
      trivial

/-- An imported history that reads from the journal as it was read keeps the owners. -/
theorem importLifecycleHistory_owned
    {segments : List Segment} {value : LifecycleImportInput} {b : Batch} (owned : s.Owned)
    (faithful : (Call.importHistory value).Faithful)
    (h : importLifecycleHistory p s segments env value = .ok (some b))
    (applied : b.events.foldlM (State.applyEvent p n at_) s = .ok s') :
  s'.Owned
  := by
  obtain ⟨_, _, valid, admitted, events, -, -⟩ := importLifecycleHistory_ok h
  have admitted := validateLifecycleMigration_ok admitted
  have filed := Lifecycle.filed_of_pristine admitted.pristine
  obtain ⟨⟨_, simulates⟩, -⟩ := Lifecycle.simulates_of_sequence admitted.simulated
  rw [events, admitted.events, List.foldlM_cons, bind_eq_ok] at applied
  obtain ⟨s₀, taken, replayed⟩ := applied
  obtain ⟨-, rfl⟩ := State.importHistory_ok taken
  obtain ⟨r, replayed', content, -⟩ := simulates.replays n at_ filed (r := { s with
    lifecycleMigrations := s.lifecycleMigrations.insert _ _ }) rfl (faithful _ admitted.commands)
  obtain rfl := Except.ok.inj (replayed.symm.trans replayed')
  exact (Lifecycle.owned_of_sequence filed owned admitted.simulated).of_content content

/-- The first batch of a call that is faithful keeps the owners. -/
theorem Call.owned
    {segments : List Segment} {call : Call} {b : Batch} {saga : Saga} (owned : s.Owned)
    (lawful : LawfulBatch p n at_ s b.events) (faithful : call.Faithful)
    (h : call.start p s segments env = .ok (some (b, saga)))
    (applied : b.events.foldlM (State.applyEvent p n at_) s = .ok s') :
  s'.Owned
  := by
  by_cases imports : ∃ value, call = .importHistory value
  · obtain ⟨value, rfl⟩ := imports
    cases Call.start_ok h with
    | importHistory value b made => exact importLifecycleHistory_owned owned faithful made applied
  · exact lawful.owned owned (Call.owns owned (fun value same => imports ⟨value, same⟩) h) applied

/-- A pending batch of a call that is faithful keeps the owners. -/
theorem Job.Computed.owned
    {job : Job} {base : List Segment} {batch : Batch} (owned : s.Owned)
    (lawful : LawfulBatch p n at_ s batch.events)
    (computed : job.Computed p (fun _ call => call.Faithful) s env)
    (pending : job.stage.pending = some (base, batch))
    (applied : batch.events.foldlM (State.applyEvent p n at_) s = .ok s') :
  s'.Owned
  := by
  unfold Job.Computed at computed
  split at computed
  · rename_i base' batch' stage
    obtain ⟨rfl, rfl⟩ : base' = base ∧ batch' = batch := by
      simpa [stage, Stage.pending] using pending
    exact Call.owned owned lawful computed.2.1 computed.1 applied
  · rename_i base' batch' stage
    obtain ⟨rfl, rfl⟩ : base' = base ∧ batch' = batch := by
      simpa [stage, Stage.pending] using pending
    obtain ⟨call, -, admission⟩ := computed
    obtain ⟨events, -⟩ := dispatchAdmission_ok admission
    refine lawful.owned owned ?_ applied
    rw [events, List.forall_mem_singleton]
    trivial
  · rename_i base' batch' stage
    obtain ⟨rfl, rfl⟩ : base' = base ∧ batch' = batch := by
      simpa [stage, Stage.pending] using pending
    obtain ⟨receipt, observation⟩ := computed
    obtain ⟨effect, status, document, known, -, events, -⟩ := observeEffect_ok observation
    refine lawful.owned owned ?_ applied
    rw [events, List.forall_mem_cons]
    refine ⟨Table.has_iff.mpr ⟨effect, known⟩, fun event mem => ?_⟩
    rcases mem_observationEvents mem with rfl | rfl
    · exact effectIncident_owned (owned.effects _ effect known) _ _
    · trivial
  · rename_i idle _ _
    unfold Stage.pending at pending
    split at pending <;> simp_all

/-! ### Runs -/

/-- In every state a run with faithful imports leads to, records have owners. -/
theorem Reachable.owned
    {w : World} (reachable : Reachable p projectId (fun _ call => call.Faithful) w)
    (free : CollisionFree w.journal) (loaded : reduceSegments p projectId w.journal = .ok s) :
  s.Owned
  := by
  refine Reachable.induction (P := fun w => CollisionFree w.journal → ∀ s,
    reduceSegments p projectId w.journal = .ok s → s.Owned) ?_ ?_ reachable free s loaded
  · rintro journal now initialised - s loaded
    refine reduceSegments_invariant (Q := fun event => ∃ e, event = .authorityEstablished e)
      ?_ ?_ (fun segment _ owned => owned.congr rfl rfl rfl rfl) (.new projectId) loaded
    · intro segment mem event listed
      cases initialised with
      | empty => simp [World.initial] at mem
      | established e first s fence hashed accepted =>
          obtain rfl : segment = first := by simpa [World.initial] using mem
          rw [fence] at listed
          exact ⟨e, List.mem_singleton.mp listed⟩
    · rintro n at_ s event s' ⟨e, rfl⟩ owned applied
      obtain rfl := Except.ok.inj applied
      exact owned
  · intro w w' reached step before free s loaded
    cases step with
    | create i job base batch stored segment running pending appended =>
        have free' : CollisionFree w.journal := free.of_prefix (List.prefix_append _ _)
        obtain ⟨s₀, env, s₁, created, loaded₀, applied, rfl, -⟩ :=
          reached.appended free' running pending appended loaded
        have owned := before free' s₀ loaded₀
        have covered : NodesCovered s₀ := Replayable.nodesCovered ⟨_, _, loaded₀⟩
        have lawful : LawfulBatch p segment.sequence segment.committedAt s₀ batch.events :=
          created.grounded.computed.lawful (reached.liveAttempts free' loaded₀) covered
            created.pending
        have kept := created.grounded.computed.owned owned lawful created.pending applied
        exact kept.congr rfl rfl rfl rfl
    | _ => exact before free s loaded

end Dagrail
