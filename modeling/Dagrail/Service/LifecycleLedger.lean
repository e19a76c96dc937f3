import Dagrail.Service.ResourceLaws

/-!
# Commands of an imported history are closed

Of a command that the importer accepts, whatever the order of its events, every event belongs to
the one action or observation the command is about and names the same target, unless the command is
a single event of a few types. The ledger tells why: what an action uses was claimed by an event
before it, and what it does not use is still claimed when the command is closed.
-/

namespace Dagrail

/-! ### Sizes of tables -/

namespace Table

variable {β : Type} {t : Table β} {k : String}

/-- A new key makes a table larger by one. -/
theorem keys_length_insert
    {b : β} (new : t.has k = false) :
  (t.insert k b).keys.length = t.keys.length + 1
  := by
  have absent : k ∉ t.keys := by
    rw [← AList.mem_keys, ← AList.lookup_isSome]
    simpa [has] using new
  rw [AList.keys_insert, List.erase_of_not_mem absent, List.length_cons]

/-- Erasing a known key makes a table smaller by one. -/
theorem keys_length_erase
    (known : t.has k = true) :
  (t.erase k).keys.length + 1 = t.keys.length
  := by
  have present : k ∈ t.keys := by
    rw [← AList.mem_keys, ← AList.lookup_isSome]
    simpa [has] using known
  rw [AList.keys_erase, List.length_erase_of_mem present]
  have positive := List.length_pos_of_mem present
  omega

/-- Erasing an unknown key leaves the size of a table. -/
theorem keys_length_erase_unknown
    (unknown : t.has k = false) :
  (t.erase k).keys.length = t.keys.length
  := by
  have absent : k ∉ t.keys := by
    rw [← AList.mem_keys, ← AList.lookup_isSome]
    simpa [has] using unknown
  rw [AList.keys_erase, List.erase_of_not_mem absent]

/-- What is left after a key is erased. -/
theorem has_erase
    {k' : String} (known : t.has k' = true) :
  has (t.erase k) k' = true ∨ k = k'
  := by
  by_cases same : k' = k
  · exact .inr same.symm
  · left
    unfold has at known ⊢
    rw [AList.lookup_erase_ne same]
    exact known

end Table

/-! ### Types of events -/

/-- The type of an event that an imported history may contain. -/
def Event.nativeType : Event → String
  | .roleBound _ => "role.bound"
  | .roleTransferred _ => "role.transferred"
  | .roleReleased .. => "role.released"
  | .attemptStarted _ => "attempt.started"
  | .attemptLeased _ => "attempt.leased"
  | .attemptStatusChanged .. => "attempt.status-changed"
  | .attemptCheckpointed _ => "attempt.checkpointed"
  | .attemptFinished .. => "attempt.finished"
  | .evidencePackagePublished _ => "evidence.package-published"
  | .evidenceReuseAssessed _ => "evidence.reuse-assessed"
  | .decisionRecorded _ => "decision.recorded"
  | .resourceLeased _ => "resource.leased"
  | .resourceClosureObserved .. => "resource.closure-observed"
  | .resourceReleased .. => "resource.released"
  | .actionApplied _ => "action.applied"
  | .effectPrepared _ => "effect.prepared"
  | .effectDispatched .. => "effect.dispatched"
  | .effectReconciling .. => "effect.reconciling"
  | .effectObserved .. => "effect.observed"
  | .incidentOpened _ => "incident.opened"
  | .incidentUpdated _ => "incident.updated"
  | .incidentResolved .. => "incident.resolved"
  | _ => ""

/-- A reader of a record gives events of one shape. -/
theorem EventReader.of_read
    {α : Type} [Inhabited α] {d : Decoder α} {f : α → Event} {j : Json} {value : Event}
    (h : (EventReader.of d f).read j = .ok value) :
  ∃ v, f v = value
  := by
  simp only [EventReader.of] at h
  cases decoded : d.decode default j with
  | error message => simp [decoded, Except.map] at h
  | ok v =>
      simp only [decoded, Except.map, Except.ok.injEq] at h
      exact ⟨v, h⟩

/-- Every reader gives events of its type. -/
theorem nativeType_of_reader :
  ∀ entry ∈ eventReaders, ∀ j value, entry.2.read j = .ok value → value.nativeType = entry.1
  := by
  simp only [eventReaders, List.forall_mem_cons]
  refine ⟨?_, ?_, ?_, ?_, ?_, ?_, ?_, ?_, ?_, ?_, ?_, ?_, ?_, ?_, ?_, ?_, ?_, ?_, ?_, ?_, ?_, ?_, ?_⟩
  all_goals first
    | (intro j value h
       obtain ⟨v, rfl⟩ := EventReader.of_read h
       rfl)
    | simp

/-- An event is read as one of its type. -/
theorem LifecycleMigrationEvent.nativeType_of_read
    {source : LifecycleMigrationEvent} {event : Event} (read : source.read = .ok event) :
  event.nativeType = source.type
  := by
  simp only [LifecycleMigrationEvent.read, readAs, bind_eq_ok, need_eq_ok] at read
  obtain ⟨reader, known, read⟩ := read
  obtain ⟨entry, found, rfl⟩ := Option.map_eq_some_iff.mp known
  have type := List.find?_some found
  rw [decide_eq_true_eq] at type
  rw [← type]
  exact nativeType_of_reader entry (List.mem_of_find?_eq_some found) _ _ read

namespace Lifecycle

/-! ### Closed commands -/

/-- The resource that the input of an action names. -/
def resourceOf (input : Option Json) : Option String :=
  input.bind fun input => (refOf "resourceId" input).toOption

/-- The incident that goes with an action. -/
def incidentOf (action : ActionRecord) (input : Option Json) : Option String :=
  if completionKinds.contains action.kind then some ("attempt:" ++ action.attemptId)
  else (resourceOf input).map ("resource:" ++ ·)

/-- Does the event name what the action on the node is about? A checkpoint names it by its content:
the summary and the evidence that the action asked for. -/
def names (node : NodeDefinition) (action : ActionRecord) (input : Option Json) : Event → Bool
  | .roleBound lease => lease.roleId = node.role
  | .attemptStarted attempt => attempt.id = action.attemptId
  | .attemptLeased attempt => attempt.id = action.attemptId
  | .attemptStatusChanged attemptId _ _ => attemptId = action.attemptId
  | .attemptCheckpointed value =>
      input.any fun input => (checkpointInputDecoder.decode {} input).toOption.any fun asked =>
        asked.summary = value.summary && asked.evidenceRefs = value.evidenceRefs
  | .attemptFinished attemptId _ _ _ _ => attemptId = action.attemptId
  | .evidencePackagePublished pack => pack.attemptId = action.attemptId
  | .evidenceReuseAssessed decision => decision.assessedByAttempt = action.attemptId
  | .decisionRecorded decision => decision.attemptId = action.attemptId
  | .resourceLeased resource => resource.attemptId = action.attemptId
  | .resourceClosureObserved resourceId _ _ _ => resourceOf input = some resourceId
  | .resourceReleased resourceId _ => resourceOf input = some resourceId
  | .effectPrepared effect => effect.id = action.id
  | .incidentOpened incident => incidentOf action input = some incident.id
  | .incidentUpdated incident => incidentOf action input = some incident.id
  | .incidentResolved incidentId _ => incidentOf action input = some incidentId
  | _ => false

/-- The events an action goes with, and how many there are: each entry lists the types an event may
have. -/
def requiredCompanions (kind : String) (node : NodeDefinition) : List (List String × Nat) :=
  if kind = "role.renew" then [(["role.bound"], 1)]
  else if kind = "node.start" then
    [(["attempt.started", "attempt.leased"], 1), (["attempt.status-changed"], 1),
      (["resource.leased"], node.resources.length)]
  else if kind = "attempt.checkpoint" then [(["attempt.checkpointed"], 1)]
  else if ["attempt.wait", "attempt.resume", "attempt.submit"].contains kind then
    [(["attempt.status-changed"], 1)]
  else if kind = "evidence.publish" then [(["evidence.package-published"], 1)]
  else if kind = "evidence.assess-reuse" then [(["evidence.reuse-assessed"], 1)]
  else if kind = "effect.prepare" then [(["effect.prepared"], 1)]
  else if kind = "resource.close" ∨ kind = "resource.reconcile" then
    [(["resource.closure-observed"], 1)]
  else if completionKinds.contains kind then
    (["attempt.finished"], 1)
      :: if nodeRequiresDecision node then [(["decision.recorded"], 1)] else []
  else []

/-- The types of the events an action may go with once. -/
def optionalCompanions (kind : String) : List String :=
  if kind = "resource.close" ∨ kind = "resource.reconcile" then
    ["resource.released", "incident.opened", "incident.updated", "incident.resolved"]
  else if completionKinds.contains kind then ["incident.opened"]
  else []

/-- The types of events that make a command on their own. -/
def standaloneTypes : List String :=
  ["role.bound", "role.transferred", "role.released", "effect.dispatched", "effect.reconciling"]

/-- The types of the events. -/
def typesOf (sources : List LifecycleMigrationEvent) : List String :=
  sources.map (·.type)

/-- The events are those of one action, of one observation of an effect, of one incident update, or
one event that stands alone. -/
inductive ClosedCommand (s : State) (sources : List LifecycleMigrationEvent) : Prop where
  | action (source : LifecycleMigrationEvent) (action : ActionRecord) (node : NodeDefinition)
      (mem : source ∈ sources) (read : source.read = .ok (.actionApplied action))
      (declared : s.nodeDefinition action.nodeId = some node)
      (single : (typesOf sources).count "action.applied" = 1)
      (companions : ∀ other ∈ sources, other = source ∨
        ∃ event, other.read = .ok event ∧ names node action (source.bound "input") event = true ∧
          ((∃ entry ∈ requiredCompanions action.kind node, other.type ∈ entry.1) ∨
            other.type ∈ optionalCompanions action.kind))
      (required : ∀ entry ∈ requiredCompanions action.kind node,
        (typesOf sources).countP entry.1.contains = entry.2)
      (optional : ∀ type ∈ optionalCompanions action.kind, (typesOf sources).count type ≤ 1) :
      ClosedCommand s sources
  | observation (source : LifecycleMigrationEvent) (effectId : String) (status : EffectStatus)
      (receipt : Option Json) (updatedAt : Stamp) (mem : source ∈ sources)
      (read : source.read = .ok (.effectObserved effectId status receipt updatedAt))
      (companions : ∀ other ∈ sources, other = source ∨
        (∃ incident, other.read = .ok (.incidentOpened incident) ∧
          incident.id = effectIncidentId effectId) ∨
        ∃ resolvedAt, other.read = .ok (.incidentResolved (effectIncidentId effectId) resolvedAt))
      (single : (typesOf sources).count "effect.observed" = 1) (few : sources.length ≤ 2) :
      ClosedCommand s sources
  | update (source : LifecycleMigrationEvent) (incident : Incident) (only : sources = [source])
      (read : source.read = .ok (.incidentUpdated incident)) : ClosedCommand s sources
  | standalone (source : LifecycleMigrationEvent) (only : sources = [source])
      (type : source.type ∈ standaloneTypes) : ClosedCommand s sources

/-! ### What the ledger claims -/

/-- Every claim in a table was made by one of the events. -/
def Backed {β : Type} (seen : List LifecycleMigrationEvent) (t : Table β)
    (made : String → β → Event → Prop) : Prop :=
  ∀ k v, t.lookup k = some v → ∃ source ∈ seen, ∃ event, source.read = .ok event ∧ made k v event

namespace Backed

variable {β : Type} {seen : List LifecycleMigrationEvent} {t : Table β}
  {made : String → β → Event → Prop} {source : LifecycleMigrationEvent} {event : Event}

theorem empty :
  Backed seen (∅ : Table β) made
  := by
  intro k v found
  simp at found

/-- Claims stay backed when another event follows. -/
theorem after
    (backed : Backed seen t made) (source : LifecycleMigrationEvent) :
  Backed (seen ++ [source]) t made
  := by
  intro k v found
  obtain ⟨by_, mem, rest⟩ := backed k v found
  exact ⟨by_, List.mem_append_left _ mem, rest⟩

/-- An event makes a claim. -/
theorem insert
    (backed : Backed seen t made) (read : source.read = .ok event) {k : String} {v : β}
    (claim : made k v event) :
  Backed (seen ++ [source]) (t.insert k v) made
  := by
  intro k' v' found
  rw [Table.lookup_insert] at found
  split_ifs at found with same
  · subst same
    obtain rfl := Option.some.inj found
    exact ⟨source, by simp, event, read, claim⟩
  · exact backed.after source k' v' found

end Backed

/-- The claims of a command without an action so far. -/
structure Pending (seen : List LifecycleMigrationEvent) (c : LifecycleRecordContext) : Prop where
  actions : c.actionCount = 0
  types : ∀ source ∈ seen, source.type ≠ "action.applied"
  bindings : Backed seen c.roleBindings fun k v event => event = .roleBound v ∧ v.roleId = k
  attempts : Backed seen c.attempts fun k v event =>
    (event = .attemptStarted v ∨ event = .attemptLeased v) ∧ v.id = k
  statuses : Backed seen c.statuses fun k v event =>
    ∃ updatedAt, event = .attemptStatusChanged k v updatedAt
  checkpoints : Backed seen c.checkpoints fun _ v event => event = .attemptCheckpointed v
  packages : Backed seen c.packages fun _ v event => event = .evidencePackagePublished v
  reuseDecisions : Backed seen c.reuseDecisions fun _ v event => event = .evidenceReuseAssessed v
  decisions : Backed seen c.decisions fun _ v event => event = .decisionRecorded v
  resourceLeases : Backed seen c.resourceLeases fun k v event => event = .resourceLeased v ∧ v.id = k
  resourceObservations : Backed seen c.resourceObservations fun k _ event =>
    ∃ status receipt updatedAt, event = .resourceClosureObserved k status receipt updatedAt
  effects : Backed seen c.effects fun k v event => event = .effectPrepared v ∧ v.id = k
  effectObservations : Backed seen c.effectObservations fun k _ event =>
    ∃ status receipt updatedAt, event = .effectObserved k status receipt updatedAt
  finishes : Backed seen c.finishes fun k _ event =>
    ∃ outcome outcomeClass facts updatedAt,
      event = .attemptFinished k outcome outcomeClass facts updatedAt

/-- An empty ledger claims nothing. -/
theorem Pending.new
    (admissions : Table Unit) :
  Pending [] (newLifecycleRecordContext admissions)
  := by
  constructor
  case actions => rfl
  case types => simp
  all_goals exact Backed.empty

/-- The claims stay when an event that is no action follows. -/
theorem Pending.after
    {seen : List LifecycleMigrationEvent} {c : LifecycleRecordContext} (pending : Pending seen c)
    {source : LifecycleMigrationEvent} (plain : source.type ≠ "action.applied") :
  Pending (seen ++ [source]) c
  := by
  constructor
  case actions => exact pending.actions
  case types =>
    intro other mem
    rw [List.mem_append, List.mem_singleton] at mem
    rcases mem with before | rfl
    · exact pending.types other before
    · exact plain
  case bindings => exact pending.bindings.after source
  case attempts => exact pending.attempts.after source
  case statuses => exact pending.statuses.after source
  case checkpoints => exact pending.checkpoints.after source
  case packages => exact pending.packages.after source
  case reuseDecisions => exact pending.reuseDecisions.after source
  case decisions => exact pending.decisions.after source
  case resourceLeases => exact pending.resourceLeases.after source
  case resourceObservations => exact pending.resourceObservations.after source
  case effects => exact pending.effects.after source
  case effectObservations => exact pending.effectObservations.after source
  case finishes => exact pending.finishes.after source

/-! ### What the ledger keeps -/

/-- What the action of a command has used up of its incidents and its release. -/
structure Spent where
  incident : Option String := none
  bodies : Nat := 0
  resolutions : Nat := 0
  resource : Option String := none

/-- The types of the bodies of incidents. -/
def bodyTypes : List String :=
  ["incident.opened", "incident.updated"]

/-- The incidents and releases of the events are in the ledger, but for those used up. -/
structure Kept (seen : List LifecycleMigrationEvent) (c : LifecycleRecordContext) (spent : Spent) :
    Prop where
  bodies : ∀ source ∈ seen, ∀ incident, source.read = .ok (.incidentOpened incident) ∨
    source.read = .ok (.incidentUpdated incident) →
      c.incidentEvents.has incident.id = true ∨ spent.incident = some incident.id
  bodyCount : (typesOf seen).countP bodyTypes.contains = c.incidentEvents.keys.length + spent.bodies
  resolutions : ∀ source ∈ seen, ∀ incidentId resolvedAt,
    source.read = .ok (.incidentResolved incidentId resolvedAt) →
      c.incidentResolutions.has incidentId = true ∨ spent.incident = some incidentId
  resolutionCount : (typesOf seen).count "incident.resolved" =
    c.incidentResolutions.keys.length + spent.resolutions
  releases : ∀ source ∈ seen, ∀ resourceId releasedAt,
    source.read = .ok (.resourceReleased resourceId releasedAt) →
      c.resourceReleases.has resourceId = true ∨ spent.resource = some resourceId

/-- What a ledger says about the action of its command. -/
def headOf (c : LifecycleRecordContext) : Nat × String × String × Option Json :=
  (c.actionCount, c.actionKind, c.actionId, c.actionInput)

/-- The tables of incidents and releases, and the types of the events, are the same. -/
structure SameKept (c c' : LifecycleRecordContext) : Prop where
  types : c'.eventTypes = c.eventTypes
  incidentEvents : c'.incidentEvents = c.incidentEvents
  incidentResolutions : c'.incidentResolutions = c.incidentResolutions
  resourceReleases : c'.resourceReleases = c.resourceReleases

namespace Kept

variable {seen : List LifecycleMigrationEvent} {c c' : LifecycleRecordContext} {spent : Spent}
  {source : LifecycleMigrationEvent} {event : Event}

theorem new
    (admissions : Table Unit) :
  Kept [] (newLifecycleRecordContext admissions) {}
  := by
  constructor <;> simp [typesOf, newLifecycleRecordContext]

/-- Only the tables of incidents and releases matter. -/
theorem congr
    (kept : Kept seen c spent) (events : c'.incidentEvents = c.incidentEvents)
    (resolved : c'.incidentResolutions = c.incidentResolutions)
    (released : c'.resourceReleases = c.resourceReleases) :
  Kept seen c' spent
  := by
  obtain ⟨bodies, bodyCount, resolutions, resolutionCount, releases⟩ := kept
  rw [← events] at bodies bodyCount
  rw [← resolved] at resolutions resolutionCount
  rw [← released] at releases
  exact ⟨bodies, bodyCount, resolutions, resolutionCount, releases⟩

/-- An event that is none of an incident or a release leaves what is kept. -/
theorem after
    (kept : Kept seen c spent) (source : LifecycleMigrationEvent)
    (other : source.type ∉ ["incident.opened", "incident.updated", "incident.resolved",
      "resource.released"]) :
  Kept (seen ++ [source]) c spent
  := by
  simp only [List.mem_cons, List.not_mem_nil, or_false, not_or] at other
  obtain ⟨opened, updated, resolved, released⟩ := other
  constructor
  · intro source' mem incident read
    rw [List.mem_append, List.mem_singleton] at mem
    rcases mem with before | rfl
    · exact kept.bodies source' before incident read
    · rcases read with read | read
      · exact absurd (LifecycleMigrationEvent.nativeType_of_read read).symm opened
      · exact absurd (LifecycleMigrationEvent.nativeType_of_read read).symm updated
  · rw [← kept.bodyCount]
    simp [typesOf, bodyTypes, opened, updated]
  · intro source' mem incidentId resolvedAt read
    rw [List.mem_append, List.mem_singleton] at mem
    rcases mem with before | rfl
    · exact kept.resolutions source' before incidentId resolvedAt read
    · exact absurd (LifecycleMigrationEvent.nativeType_of_read read).symm resolved
  · rw [← kept.resolutionCount]
    simp [typesOf, resolved]
  · intro source' mem resourceId releasedAt read
    rw [List.mem_append, List.mem_singleton] at mem
    rcases mem with before | rfl
    · exact kept.releases source' before resourceId releasedAt read
    · exact absurd (LifecycleMigrationEvent.nativeType_of_read read).symm released

/-- A new body of an incident is kept. -/
theorem file
    (kept : Kept seen c spent) {incident : Incident} {value : LifecycleIncidentEvent}
    (read : source.read = .ok (.incidentOpened incident) ∨
      source.read = .ok (.incidentUpdated incident))
    (new : c.incidentEvents.has incident.id = false) :
  Kept (seen ++ [source]) { c with incidentEvents := c.incidentEvents.insert incident.id value } spent
  := by
  have type : source.type = "incident.opened" ∨ source.type = "incident.updated" :=
    read.imp (fun read => (LifecycleMigrationEvent.nativeType_of_read read).symm)
      fun read => (LifecycleMigrationEvent.nativeType_of_read read).symm
  constructor
  · intro source' mem incident' read'
    rw [List.mem_append, List.mem_singleton] at mem
    rcases mem with before | rfl
    · refine (kept.bodies source' before incident' read').imp (fun filed => ?_) id
      simp [filed]
    · rcases read with read | read <;> rcases read' with read' | read' <;> rw [read] at read' <;>
        cases read' <;> simp
  · have counted := kept.bodyCount
    have grown := Table.keys_length_insert (b := value) new
    change _ = (c.incidentEvents.insert incident.id value).keys.length + _
    rw [grown]
    rcases type with type | type <;> simp [typesOf, bodyTypes, type] at counted ⊢ <;> omega
  · intro source' mem incidentId resolvedAt read'
    rw [List.mem_append, List.mem_singleton] at mem
    rcases mem with before | rfl
    · exact kept.resolutions source' before incidentId resolvedAt read'
    · rcases read with read | read <;> rw [read] at read' <;> cases read'
  · rw [← kept.resolutionCount]
    rcases type with type | type <;> simp [typesOf, type]
  · intro source' mem resourceId releasedAt read'
    rw [List.mem_append, List.mem_singleton] at mem
    rcases mem with before | rfl
    · exact kept.releases source' before resourceId releasedAt read'
    · rcases read with read | read <;> rw [read] at read' <;> cases read'

/-- A new resolution is kept. -/
theorem resolve
    (kept : Kept seen c spent) {incidentId : String} {resolvedAt : Stamp}
    (read : source.read = .ok (.incidentResolved incidentId resolvedAt))
    (new : c.incidentResolutions.has incidentId = false) :
  Kept (seen ++ [source])
    { c with incidentResolutions := c.incidentResolutions.insert incidentId resolvedAt } spent
  := by
  have type : "incident.resolved" = source.type := LifecycleMigrationEvent.nativeType_of_read read
  constructor
  · intro source' mem incident read'
    rw [List.mem_append, List.mem_singleton] at mem
    rcases mem with before | rfl
    · exact kept.bodies source' before incident read'
    · rcases read' with read' | read' <;> rw [read] at read' <;> cases read'
  · rw [← kept.bodyCount]
    simp [typesOf, bodyTypes, ← type]
  · intro source' mem incidentId' resolvedAt' read'
    rw [List.mem_append, List.mem_singleton] at mem
    rcases mem with before | rfl
    · refine (kept.resolutions source' before incidentId' resolvedAt' read').imp (fun filed => ?_) id
      simp [filed]
    · rw [read] at read'
      cases read'
      simp
  · have counted := kept.resolutionCount
    have grown := Table.keys_length_insert (b := resolvedAt) new
    change _ = (c.incidentResolutions.insert incidentId resolvedAt).keys.length + _
    rw [grown]
    simp [typesOf, ← type] at counted ⊢
    omega
  · intro source' mem resourceId releasedAt read'
    rw [List.mem_append, List.mem_singleton] at mem
    rcases mem with before | rfl
    · exact kept.releases source' before resourceId releasedAt read'
    · rw [read] at read'
      cases read'

/-- A release is kept. -/
theorem release
    (kept : Kept seen c spent) {resourceId : String} {releasedAt : Stamp}
    (read : source.read = .ok (.resourceReleased resourceId releasedAt)) :
  Kept (seen ++ [source])
    { c with resourceReleases := c.resourceReleases.insert resourceId () } spent
  := by
  have type : "resource.released" = source.type := LifecycleMigrationEvent.nativeType_of_read read
  constructor
  · intro source' mem incident read'
    rw [List.mem_append, List.mem_singleton] at mem
    rcases mem with before | rfl
    · exact kept.bodies source' before incident read'
    · rcases read' with read' | read' <;> rw [read] at read' <;> cases read'
  · rw [← kept.bodyCount]
    simp [typesOf, bodyTypes, ← type]
  · intro source' mem incidentId resolvedAt read'
    rw [List.mem_append, List.mem_singleton] at mem
    rcases mem with before | rfl
    · exact kept.resolutions source' before incidentId resolvedAt read'
    · rw [read] at read'
      cases read'
  · rw [← kept.resolutionCount]
    simp [typesOf, ← type]
  · intro source' mem resourceId' releasedAt' read'
    rw [List.mem_append, List.mem_singleton] at mem
    rcases mem with before | rfl
    · refine (kept.releases source' before resourceId' releasedAt' read').imp (fun filed => ?_) id
      simp [filed]
    · rw [read] at read'
      cases read'
      simp

end Kept

/-- After an event that is no action, the claims are those before it and its own, and what the
ledger keeps is still kept. -/
theorem claims_of_applied
    {p : Platform} {seen : List LifecycleMigrationEvent} {c c' : LifecycleRecordContext} {s t : State}
    {occurredAt : Stamp} {source : LifecycleMigrationEvent} {event : Event}
    (runs : RunsFiled s) (read : source.read = .ok event) (plain : source.type ≠ "action.applied")
    (h : applyValidatedLifecycleEvent p c s occurredAt source event = .ok (c', t)) :
  (Pending seen c → Pending (seen ++ [source]) c') ∧
    (∀ spent, Kept seen c spent → Kept (seen ++ [source]) c' spent) ∧
    headOf c' = headOf c ∧ c'.eventTypes = c.eventTypes ++ [source.type]
  := by
  have type := LifecycleMigrationEvent.nativeType_of_read read
  simp only [applyValidatedLifecycleEvent] at h
  cases event with
  | roleBound lease =>
      simp only [bindRole, bind_eq_ok, Except.ok.injEq, Prod.mk.injEq] at h
      obtain ⟨_, -, _, -, _, -, rfl, -⟩ := h
      exact ⟨fun pending => { pending.after plain with bindings := pending.bindings.insert read ⟨rfl, rfl⟩ },
        fun _ kept => (kept.after source (by simp [← type, Event.nativeType])).congr rfl rfl rfl, rfl, rfl⟩
  | roleTransferred t =>
      simp only [transferRole, bind_eq_ok, Except.ok.injEq, Prod.mk.injEq] at h
      obtain ⟨_, -, _, -, _, -, _, -, _, -, _, -, rfl, -⟩ := h
      exact ⟨fun pending => { pending.after plain with actions := pending.actions },
        fun _ kept => (kept.after source (by simp [← type, Event.nativeType])).congr rfl rfl rfl, rfl, rfl⟩
  | roleReleased roleId releasedAt =>
      simp only [releaseRole, bind_eq_ok, Except.ok.injEq, Prod.mk.injEq] at h
      obtain ⟨_, -, rfl, -⟩ := h
      exact ⟨fun pending => { pending.after plain with actions := pending.actions },
        fun _ kept => (kept.after source (by simp [← type, Event.nativeType])).congr rfl rfl rfl, rfl, rfl⟩
  | attemptStarted attempt =>
      simp only [startAttempt, bind_eq_ok, Except.ok.injEq, Prod.mk.injEq] at h
      obtain ⟨_, -, _, -, _, -, _, -, _, -, rfl, -⟩ := h
      exact ⟨fun pending => { pending.after plain with attempts := pending.attempts.insert read ⟨.inl rfl, rfl⟩ },
        fun _ kept => (kept.after source (by simp [← type, Event.nativeType])).congr rfl rfl rfl, rfl, rfl⟩
  | attemptLeased attempt =>
      simp only [startAttempt, bind_eq_ok, Except.ok.injEq, Prod.mk.injEq] at h
      obtain ⟨_, -, _, -, _, -, _, -, _, -, rfl, -⟩ := h
      exact ⟨fun pending => { pending.after plain with attempts := pending.attempts.insert read ⟨.inr rfl, rfl⟩ },
        fun _ kept => (kept.after source (by simp [← type, Event.nativeType])).congr rfl rfl rfl, rfl, rfl⟩
  | attemptStatusChanged attemptId status updatedAt =>
      simp only [changeAttemptStatus, bind_eq_ok, need_eq_ok, Option.filter_eq_some_iff,
        Except.ok.injEq, Prod.mk.injEq] at h
      obtain ⟨attempt, ⟨known, -⟩, rfl, -⟩ := h
      rw [runs.attempts _ _ known]
      exact ⟨fun pending => { pending.after plain with statuses := pending.statuses.insert read ⟨updatedAt, rfl⟩ },
        fun _ kept => (kept.after source (by simp [← type, Event.nativeType])).congr rfl rfl rfl, rfl, rfl⟩
  | attemptCheckpointed value =>
      simp only [recordCheckpoint, bind_eq_ok, Except.ok.injEq, Prod.mk.injEq] at h
      obtain ⟨_, -, _, -, _, -, _, -, rfl, -⟩ := h
      exact ⟨fun pending => { pending.after plain with checkpoints := pending.checkpoints.insert read rfl },
        fun _ kept => (kept.after source (by simp [← type, Event.nativeType])).congr rfl rfl rfl, rfl, rfl⟩
  | evidencePackagePublished pack =>
      simp only [publishPackage, bind_eq_ok, Except.ok.injEq, Prod.mk.injEq] at h
      obtain ⟨_, -, _, -, _, -, _, -, _, -, rfl, -⟩ := h
      exact ⟨fun pending => { pending.after plain with packages := pending.packages.insert read rfl },
        fun _ kept => (kept.after source (by simp [← type, Event.nativeType])).congr rfl rfl rfl, rfl, rfl⟩
  | evidenceReuseAssessed decision =>
      simp only [assessReuse, bind_eq_ok, Except.ok.injEq, Prod.mk.injEq] at h
      obtain ⟨_, -, _, -, _, -, _, -, _, -, _, -, rfl, -⟩ := h
      exact ⟨fun pending => { pending.after plain with reuseDecisions := pending.reuseDecisions.insert read rfl },
        fun _ kept => (kept.after source (by simp [← type, Event.nativeType])).congr rfl rfl rfl, rfl, rfl⟩
  | decisionRecorded decision =>
      simp only [recordDecision, bind_eq_ok, Except.ok.injEq, Prod.mk.injEq] at h
      obtain ⟨_, -, _, -, _, -, rfl, -⟩ := h
      exact ⟨fun pending => { pending.after plain with decisions := pending.decisions.insert read rfl },
        fun _ kept => (kept.after source (by simp [← type, Event.nativeType])).congr rfl rfl rfl, rfl, rfl⟩
  | resourceLeased resource =>
      simp only [leaseResource, bind_eq_ok, Except.ok.injEq, Prod.mk.injEq] at h
      obtain ⟨_, -, _, -, _, -, _, -, _, -, rfl, -⟩ := h
      exact ⟨fun pending => { pending.after plain with resourceLeases := pending.resourceLeases.insert read ⟨rfl, rfl⟩ },
        fun _ kept => (kept.after source (by simp [← type, Event.nativeType])).congr rfl rfl rfl, rfl, rfl⟩
  | resourceClosureObserved id status receipt updatedAt =>
      simp only [observeClosure, bind_eq_ok, need_eq_ok, Option.filter_eq_some_iff, Except.ok.injEq,
        Prod.mk.injEq] at h
      obtain ⟨resource, ⟨known, -⟩, _, -, rfl, -⟩ := h
      rw [runs.resources _ _ known]
      exact ⟨fun pending => { pending.after plain with
        resourceObservations :=
          pending.resourceObservations.insert read ⟨status, receipt, updatedAt, rfl⟩ },
        fun _ kept => (kept.after source (by simp [← type, Event.nativeType])).congr rfl rfl rfl, rfl, rfl⟩
  | resourceReleased resourceId releasedAt =>
      simp only [releaseResource, bind_eq_ok, need_eq_ok, Option.filter_eq_some_iff, Except.ok.injEq,
        Prod.mk.injEq] at h
      obtain ⟨resource, ⟨known, -⟩, rfl, -⟩ := h
      rw [runs.resources _ _ known]
      exact ⟨fun pending => { pending.after plain with actions := pending.actions },
        fun _ kept => (kept.release read).congr rfl rfl rfl, rfl, rfl⟩
  | actionApplied action => exact absurd type.symm plain
  | effectPrepared effect =>
      simp only [prepareEffect, bind_eq_ok, Except.ok.injEq, Prod.mk.injEq] at h
      obtain ⟨_, -, _, -, _, -, _, -, _, -, rfl, -⟩ := h
      exact ⟨fun pending => { pending.after plain with effects := pending.effects.insert read ⟨rfl, rfl⟩ },
        fun _ kept => (kept.after source (by simp [← type, Event.nativeType])).congr rfl rfl rfl, rfl, rfl⟩
  | effectDispatched id at_ =>
      simp only [dispatchEffect, bind_eq_ok, Except.ok.injEq, Prod.mk.injEq] at h
      obtain ⟨_, -, rfl, -⟩ := h
      exact ⟨fun pending => { pending.after plain with actions := pending.actions },
        fun _ kept => (kept.after source (by simp [← type, Event.nativeType])).congr rfl rfl rfl, rfl, rfl⟩
  | effectReconciling id at_ =>
      simp only [reconcileEffect, bind_eq_ok, Except.ok.injEq, Prod.mk.injEq] at h
      obtain ⟨_, -, _, -, rfl, -⟩ := h
      exact ⟨fun pending => { pending.after plain with actions := pending.actions },
        fun _ kept => (kept.after source (by simp [← type, Event.nativeType])).congr rfl rfl rfl, rfl, rfl⟩
  | effectObserved id status receipt updatedAt =>
      simp only [observeEffect, bind_eq_ok, Except.ok.injEq, Prod.mk.injEq] at h
      obtain ⟨_, -, _, -, _, -, _, -, _, -, _, -, _, -, rfl, -⟩ := h
      exact ⟨fun pending => { pending.after plain with
        effectObservations :=
          pending.effectObservations.insert read ⟨status, receipt, updatedAt, rfl⟩ },
        fun _ kept => (kept.after source (by simp [← type, Event.nativeType])).congr rfl rfl rfl, rfl, rfl⟩
  | attemptFinished attemptId outcome outcomeClass facts updatedAt =>
      simp only [finishAttempt, bind_eq_ok, need_eq_ok, Option.filter_eq_some_iff, Except.ok.injEq,
        Prod.mk.injEq] at h
      obtain ⟨attempt, ⟨known, -⟩, _, -, _, -, _, -, _, -, _, -, _, -, rfl, -⟩ := h
      rw [runs.attempts _ _ known]
      exact ⟨fun pending => { pending.after plain with
        finishes := pending.finishes.insert read ⟨outcome, outcomeClass, facts, updatedAt, rfl⟩ },
        fun _ kept => (kept.after source (by simp [← type, Event.nativeType])).congr rfl rfl rfl, rfl, rfl⟩
  | incidentOpened incident =>
      simp only [openIncident, fileIncident, bind_eq_ok, check_eq_ok, Except.ok.injEq, Prod.mk.injEq,
        Bool.not_eq_true'] at h
      obtain ⟨_, -, _, -, _, new, rfl, -⟩ := h
      exact ⟨fun pending => { pending.after plain with actions := pending.actions },
        fun _ kept => (kept.file (.inl read) new).congr rfl rfl rfl, rfl, rfl⟩
  | incidentUpdated incident =>
      simp only [updateIncident, fileIncident, bind_eq_ok, check_eq_ok, Except.ok.injEq, Prod.mk.injEq,
        Bool.not_eq_true'] at h
      obtain ⟨_, -, _, -, _, new, rfl, -⟩ := h
      exact ⟨fun pending => { pending.after plain with actions := pending.actions },
        fun _ kept => (kept.file (.inr read) new).congr rfl rfl rfl, rfl, rfl⟩
  | incidentResolved incidentId resolvedAt =>
      simp only [resolveIncident, bind_eq_ok, check_eq_ok, Except.ok.injEq, Prod.mk.injEq,
        Bool.not_eq_true'] at h
      obtain ⟨_, -, _, new, rfl, -⟩ := h
      exact ⟨fun pending => { pending.after plain with actions := pending.actions },
        fun _ kept => (kept.resolve read new).congr rfl rfl rfl, rfl, rfl⟩
  | _ => cases h

/-! ### What an action uses -/

/-- Does the event read as one that names what the action is about? -/
def namedBy (node : NodeDefinition) (action : ActionRecord) (input : Option Json)
    (source : LifecycleMigrationEvent) : Bool :=
  source.read.toOption.any (names node action input)

/-- The number of events of the types that name what the action is about. -/
def namedCount (node : NodeDefinition) (action : ActionRecord) (input : Option Json)
    (seen : List LifecycleMigrationEvent) (types : List String) : Nat :=
  seen.countP fun source => types.contains source.type && namedBy node action input source

/-- Every companion an action requires has come before it. -/
def Companions (node : NodeDefinition) (action : ActionRecord) (input : Option Json)
    (seen : List LifecycleMigrationEvent) (required : List (List String × Nat)) : Prop :=
  ∀ entry ∈ required, entry.2 ≤ namedCount node action input seen entry.1

section

variable {p : Platform} {seen : List LifecycleMigrationEvent} {c c' : LifecycleRecordContext}
  {s : State} {action : ActionRecord} {node : NodeDefinition} {input : Json}

/-- A claim an action uses comes from an event that names what it is about. -/
theorem Backed.companion
    {β : Type} {t : Table β} {made : String → β → Event → Prop} (backed : Backed seen t made)
    {k : String} {v : β} (found : t.lookup k = some v) {types : List String}
    (fits : ∀ event, made k v event →
      event.nativeType ∈ types ∧ names node action (some input) event = true) :
  1 ≤ namedCount node action (some input) seen types
  := by
  obtain ⟨source, mem, event, read, claim⟩ := backed k v found
  obtain ⟨type, named⟩ := fits event claim
  rw [LifecycleMigrationEvent.nativeType_of_read read] at type
  apply List.countP_pos_iff.mpr
  refine ⟨source, mem, ?_⟩
  simp [namedBy, read, type, named, Except.toOption]

attribute [local simp] Event.nativeType names

/-- A single companion. -/
theorem companions_singleton
    {types : List String} {n : Nat} :
  Companions node action (some input) seen [(types, n)] ↔
    n ≤ namedCount node action (some input) seen types
  := by
  simp [Companions]

theorem useRenewal_companions
    (h : useRenewal c node input = .ok c') :
  (Pending seen c → Companions node action (some input) seen [(["role.bound"], 1)]) ∧
    SameKept c c'
  := by
  simp only [useRenewal, bind_eq_ok, need_eq_ok, Except.ok.injEq] at h
  obtain ⟨_, -, _, -, lease, bound, _, -, rfl⟩ := h
  refine ⟨fun pending => companions_singleton.mpr (pending.bindings.companion bound ?_), rfl, rfl, rfl, rfl⟩
  rintro event ⟨rfl, role⟩
  simp [Event.nativeType, names, role]

theorem useCheckpoint_companions
    (h : useCheckpoint c s action input = .ok c') :
  (Pending seen c → Companions node action (some input) seen [(["attempt.checkpointed"], 1)]) ∧
    SameKept c c'
  := by
  simp only [useCheckpoint, bind_eq_ok, need_eq_ok, check_eq_ok, Option.filter_eq_some_iff,
    Except.ok.injEq] at h
  obtain ⟨checkpoint, ⟨filed, -⟩, asked, decoded, _, same, rfl⟩ := h
  refine ⟨fun pending => companions_singleton.mpr (pending.checkpoints.companion filed ?_), rfl, rfl, rfl, rfl⟩
  rintro event rfl
  simp [Event.nativeType, names, decoded, Except.toOption] at same ⊢
  exact same

theorem useStatus_companions
    (h : useStatus c s action = .ok c') :
  (Pending seen c → Companions node action (some input) seen [(["attempt.status-changed"], 1)]) ∧
    SameKept c c'
  := by
  simp only [useStatus, bind_eq_ok, check_eq_ok, Bool.and_eq_true, decide_eq_true_eq,
    Except.ok.injEq] at h
  obtain ⟨_, ⟨-, moved⟩, rfl⟩ := h
  refine ⟨fun pending => companions_singleton.mpr (pending.statuses.companion moved ?_), rfl, rfl, rfl, rfl⟩
  rintro event ⟨updatedAt, rfl⟩
  simp [Event.nativeType, names]

theorem usePackage_companions
    (h : usePackage c action input = .ok c') :
  (Pending seen c → Companions node action (some input) seen [(["evidence.package-published"], 1)]) ∧
    SameKept c c'
  := by
  simp only [usePackage, bind_eq_ok, check_eq_ok, Option.any_eq_true, Except.ok.injEq] at h
  obtain ⟨packageId, -, _, ⟨pack, filed, attempt⟩, rfl⟩ := h
  refine ⟨fun pending => companions_singleton.mpr (pending.packages.companion filed ?_), rfl, rfl, rfl, rfl⟩
  rintro event rfl
  simpa [Event.nativeType, names] using attempt

theorem useReuse_companions
    (h : useReuse c action input = .ok c') :
  (Pending seen c → Companions node action (some input) seen [(["evidence.reuse-assessed"], 1)]) ∧
    SameKept c c'
  := by
  simp only [useReuse, bind_eq_ok, check_eq_ok, Option.any_eq_true, Except.ok.injEq] at h
  obtain ⟨decisionId, -, _, ⟨decision, filed, attempt⟩, rfl⟩ := h
  refine ⟨fun pending => companions_singleton.mpr (pending.reuseDecisions.companion filed ?_), rfl, rfl, rfl, rfl⟩
  rintro event rfl
  simpa [Event.nativeType, names] using attempt

theorem useEffect_companions
    (h : useEffect c s action node = .ok c') :
  (Pending seen c → Companions node action (some input) seen [(["effect.prepared"], 1)]) ∧
    SameKept c c'
  := by
  simp only [useEffect, bind_eq_ok, check_eq_ok, Bool.and_eq_true, Option.any_eq_true,
    Except.ok.injEq] at h
  obtain ⟨_, -, _, ⟨-, effect, filed, -⟩, rfl⟩ := h
  refine ⟨fun pending => companions_singleton.mpr (pending.effects.companion filed ?_), rfl, rfl, rfl, rfl⟩
  rintro event ⟨rfl, id⟩
  simp [Event.nativeType, names, id]

/-- The lease an event claims. -/
def leaseOf (source : LifecycleMigrationEvent) : Option ResourceLease :=
  match source.read with
  | .ok (.resourceLeased resource) => some resource
  | _ => none

/-- The claimed leases are different. -/
theorem Pending.leases_nodup
    (pending : Pending seen c) :
  c.resourceLeases.values.Nodup
  := by
  have ids : c.resourceLeases.values.map (·.id) = c.resourceLeases.keys := by
    simp only [Table.values, List.map_map, AList.keys, List.keys]
    apply List.map_congr_left
    intro entry mem
    have found : c.resourceLeases.lookup entry.1 = some entry.2 := AList.mem_lookup_iff.mpr mem
    obtain ⟨-, -, -, -, -, id⟩ := pending.resourceLeases _ _ found
    exact id
  apply List.Nodup.of_map (·.id)
  rw [ids]
  exact c.resourceLeases.nodupKeys

/-- The leases of the attempt were each claimed by an event of its own. -/
theorem leases_companions
    (pending : Pending seen c) :
  (c.resourceLeases.values.filter fun resource => resource.attemptId = action.attemptId).length ≤
    namedCount node action (some input) seen ["resource.leased"]
  := by
  have claimed : c.resourceLeases.values.filter (fun resource =>
        resource.attemptId = action.attemptId) ⊆
      (seen.filter fun source => ["resource.leased"].contains source.type
        && namedBy node action (some input) source).filterMap leaseOf := by
    intro resource mem
    obtain ⟨listed, attempt⟩ := List.mem_filter.mp mem
    obtain ⟨k, found⟩ := Table.mem_values_iff.mp listed
    obtain ⟨source, before, event, read, rfl, -⟩ := pending.resourceLeases k resource found
    have type := LifecycleMigrationEvent.nativeType_of_read read
    apply List.mem_filterMap.mpr
    refine ⟨source, List.mem_filter.mpr ⟨before, ?_⟩, by simp [leaseOf, read]⟩
    simpa [← type, Event.nativeType, namedBy, read, names, Except.toOption] using attempt
  have fewer := (List.subperm_of_subset (List.Nodup.filter _ pending.leases_nodup) claimed).length_le
  rw [namedCount, List.countP_eq_length_filter]
  exact fewer.trans (List.length_filterMap_le _ _)

theorem useStart_companions
    (h : useStart c s action node = .ok c') :
  (Pending seen c → Companions node action (some input) seen
      [(["attempt.started", "attempt.leased"], 1), (["attempt.status-changed"], 1),
        (["resource.leased"], node.resources.length)]) ∧ SameKept c c'
  := by
  simp only [useStart, bind_eq_ok, check_eq_ok, Bool.and_eq_true, Option.any_eq_true,
    decide_eq_true_eq, Except.ok.injEq] at h
  obtain ⟨_, ⟨⟨-, attempt, introduced, -⟩, running⟩, _, leased, rfl⟩ := h
  refine ⟨fun pending => ?_, rfl, rfl, rfl, rfl⟩
  simp only [Companions, List.forall_mem_cons, List.not_mem_nil, false_implies, implies_true,
    and_true]
  refine ⟨pending.attempts.companion introduced ?_, pending.statuses.companion running ?_, ?_⟩
  · rintro event ⟨rfl | rfl, id⟩ <;> simp [Event.nativeType, names, id]
  · rintro event ⟨updatedAt, rfl⟩
    simp [Event.nativeType, names]
  · rw [← leased]
    exact leases_companions pending

/-- Using up the body of an incident. -/
theorem Kept.spendBody
    (kept : Kept seen c {}) {incidentId : String} (filed : c.incidentEvents.has incidentId = true) :
  Kept seen { c with incidentEvents := c.incidentEvents.erase incidentId }
    { incident := some incidentId, bodies := 1 }
  := by
  have smaller := Table.keys_length_erase filed
  constructor
  · intro source mem incident read
    rcases kept.bodies source mem incident read with held | used
    · exact (Table.has_erase held).imp id fun same => congrArg some same
    · cases used
  · rw [kept.bodyCount]
    change _ + 0 = (c.incidentEvents.erase incidentId).keys.length + 1
    omega
  · intro source mem incidentId' resolvedAt read
    rcases kept.resolutions source mem incidentId' resolvedAt read with held | used
    · exact .inl held
    · cases used
  · exact kept.resolutionCount
  · exact kept.releases

/-- Using up the resolution of an incident, if there is one. -/
theorem Kept.spendResolution
    (kept : Kept seen c {}) (incidentId : String) :
  ∃ n ≤ 1, Kept seen { c with incidentResolutions := c.incidentResolutions.erase incidentId }
    { incident := some incidentId, resolutions := n }
  := by
  have bodies : ∀ source ∈ seen, ∀ incident, source.read = .ok (.incidentOpened incident) ∨
      source.read = .ok (.incidentUpdated incident) → c.incidentEvents.has incident.id = true ∨
        some incidentId = some incident.id := by
    intro source mem incident read
    rcases kept.bodies source mem incident read with held | used
    · exact .inl held
    · cases used
  have resolutions : ∀ source ∈ seen, ∀ incidentId' resolvedAt,
      source.read = .ok (.incidentResolved incidentId' resolvedAt) →
        Table.has (c.incidentResolutions.erase incidentId) incidentId' = true ∨
          some incidentId = some incidentId' := by
    intro source mem incidentId' resolvedAt read
    rcases kept.resolutions source mem incidentId' resolvedAt read with held | used
    · exact (Table.has_erase held).imp id fun same => congrArg some same
    · cases used
  have counted := kept.resolutionCount
  cases resolved : c.incidentResolutions.has incidentId with
  | true =>
      have smaller := Table.keys_length_erase resolved
      refine ⟨1, le_refl _, bodies, kept.bodyCount, resolutions, ?_, kept.releases⟩
      change _ = (c.incidentResolutions.erase incidentId).keys.length + 1
      change _ = c.incidentResolutions.keys.length + 0 at counted
      omega
  | false =>
      have same := Table.keys_length_erase_unknown resolved
      refine ⟨0, by omega, bodies, kept.bodyCount, resolutions, ?_, kept.releases⟩
      change _ = (c.incidentResolutions.erase incidentId).keys.length + 0
      rw [same]
      exact counted

/-- Using up the release of a resource. -/
theorem Kept.spendRelease
    {spent : Spent} (kept : Kept seen c spent) (unused : spent.resource = none) (resourceId : String) :
  Kept seen { c with resourceReleases := c.resourceReleases.erase resourceId }
    { spent with resource := some resourceId }
  := by
  refine ⟨kept.bodies, kept.bodyCount, kept.resolutions, kept.resolutionCount, ?_⟩
  intro source mem resourceId' releasedAt read
  rcases kept.releases source mem resourceId' releasedAt read with held | used
  · exact (Table.has_erase held).imp id fun same => congrArg some same
  · rw [unused] at used
    cases used

/-- What is used up belongs to the action, and no incident has more than one body or resolution. -/
structure Spent.Fits (spent : Spent) (action : ActionRecord) (input : Option Json) : Prop where
  incident : ∀ incidentId, spent.incident = some incidentId →
    incidentOf action input = some incidentId
  bodies : spent.bodies ≤ 1
  resolutions : spent.resolutions ≤ 1
  resource : ∀ resourceId, spent.resource = some resourceId → resourceOf input = some resourceId

/-- Nothing fits every action. -/
theorem Spent.fits_nothing
    (action : ActionRecord) (input : Option Json) :
  ({} : Spent).Fits action input
  := by
  constructor <;> simp

/-- A closure uses up the body or the resolution of the incident of its resource. -/
theorem consumeResourceIncidentEvent_kept
    {resource : ResourceLease} {observation : StatusChange ClosureStatus}
    (h : consumeResourceIncidentEvent c s resource observation = .ok c') :
  (Kept seen c {} → ∃ bodies ≤ 1, ∃ resolutions ≤ 1, Kept seen c'
    { incident := some ("resource:" ++ resource.id), bodies, resolutions }) ∧
  c'.eventTypes = c.eventTypes
  := by
  simp only [consumeResourceIncidentEvent, bind_eq_ok] at h
  obtain ⟨_, -, h⟩ := h
  by_cases confirmed : observation.status = .confirmed
  · simp only [if_pos confirmed, bind_eq_ok, Except.ok.injEq] at h
    obtain ⟨_, -, _, -, rfl⟩ := h
    refine ⟨fun kept => ?_, rfl⟩
    obtain ⟨n, few, spent⟩ := kept.spendResolution ("resource:" ++ resource.id)
    exact ⟨0, by omega, n, few, spent⟩
  · simp only [if_neg confirmed, bind_eq_ok, need_eq_ok, Except.ok.injEq] at h
    obtain ⟨_, -, event, filed, _, -, _, -, rfl⟩ := h
    exact ⟨fun kept =>
      ⟨1, le_refl _, 0, by omega, kept.spendBody (Table.has_iff.mpr ⟨event, filed⟩)⟩, rfl⟩

theorem useResource_companions
    (plain : completionKinds.contains action.kind = false)
    (h : useResource c s action input = .ok c') :
  (Pending seen c → Kept seen c {} → RunsFiled s →
    Companions node action (some input) seen [(["resource.closure-observed"], 1)] ∧
      ∃ spent : Spent, Kept seen c' spent ∧ spent.Fits action (some input)) ∧
    c'.eventTypes = c.eventTypes
  := by
  simp only [useResource, bind_eq_ok, need_eq_ok, Except.ok.injEq] at h
  obtain ⟨resourceId, given, _, -, resource, known, before, -, observation, observed, _, -, _, -, c₁,
    consumed, rfl⟩ := h
  have target : resourceOf (some input) = some resourceId := by
    simp [resourceOf, given, Except.toOption]
  obtain ⟨keeps, types⟩ := consumeResourceIncidentEvent_kept consumed
  refine ⟨fun pending kept runs => ?_, types⟩
  have id := runs.resources _ _ known
  obtain ⟨bodies, few, resolutions, few', kept₁⟩ := keeps kept
  refine ⟨companions_singleton.mpr (pending.resourceObservations.companion observed ?_), _,
    (kept₁.spendRelease rfl resourceId).congr rfl rfl rfl, ?_, few, few', ?_⟩
  · rintro event ⟨status, receipt, updatedAt, rfl⟩
    simp [Event.nativeType, names, target]
  · rintro incidentId used
    obtain rfl := Option.some.inj used
    simp only [incidentOf, plain, target, id]
    rfl
  · rintro resourceId' used
    obtain rfl := Option.some.inj used
    exact target

/-- A completion uses up the body of the incident of its attempt, if it opens one. -/
theorem consumeCompletionIncidentEvent_kept
    {attemptId classification : String} {finish : AttemptFinish}
    (h : consumeCompletionIncidentEvent c s node attemptId finish classification = .ok c') :
  (Kept seen c {} → ∃ spent : Spent, Kept seen c' spent ∧ spent.bodies ≤ 1 ∧
    spent.resolutions = 0 ∧ spent.resource = none ∧
    ∀ incidentId, spent.incident = some incidentId → "attempt:" ++ attemptId = incidentId) ∧
  c'.eventTypes = c.eventTypes
  := by
  unfold consumeCompletionIncidentEvent at h
  by_cases opens : finish.outcomeClass.opensIncident = true
  · simp only [if_pos opens, bind_eq_ok, need_eq_ok, Option.filter_eq_some_iff, Except.ok.injEq] at h
    obtain ⟨event, ⟨filed, -⟩, _, -, _, -, rfl⟩ := h
    exact ⟨fun kept => ⟨_, kept.spendBody (Table.has_iff.mpr ⟨event, filed⟩), le_refl _, rfl, rfl,
      fun incidentId used => Option.some.inj used⟩, rfl⟩
  · simp only [if_neg opens, bind_eq_ok, Except.ok.injEq] at h
    obtain ⟨_, -, rfl⟩ := h
    exact ⟨fun kept => ⟨{}, kept, by simp, rfl, rfl, by simp⟩, rfl⟩

theorem useCompletion_companions
    (completes : completionKinds.contains action.kind = true)
    (h : useCompletion p c s action node input = .ok c') :
  (Pending seen c → Kept seen c {} →
    Companions node action (some input) seen ((["attempt.finished"], 1)
        :: if nodeRequiresDecision node then [(["decision.recorded"], 1)] else []) ∧
      ∃ spent : Spent, Kept seen c' spent ∧ spent.Fits action (some input)) ∧
    c'.eventTypes = c.eventTypes
  := by
  simp only [useCompletion, bind_eq_ok, need_eq_ok, Option.filter_eq_some_iff, Except.ok.injEq,
    Prod.exists] at h
  obtain ⟨finish, ⟨finished, -⟩, c₁, classification, classified, c₂, consumed, rfl⟩ := h
  have finishes : Pending seen c →
      1 ≤ namedCount node action (some input) seen ["attempt.finished"] := by
    intro pending
    apply pending.finishes.companion finished
    rintro event ⟨outcome, outcomeClass, facts, updatedAt, rfl⟩
    simp [Event.nativeType, names]
  have rest : SameKept c c₁ ∧ (nodeRequiresDecision node = true → Pending seen c →
      1 ≤ namedCount node action (some input) seen ["decision.recorded"]) := by
    unfold completionClassification at classified
    by_cases decides : nodeRequiresDecision node = true
    · simp only [if_pos decides, bind_eq_ok, check_eq_ok, Option.any_eq_true, Bool.and_eq_true, decide_eq_true_eq,
        Except.ok.injEq, Prod.mk.injEq] at classified
      obtain ⟨decisionId, -, _, ⟨decision, filed, ⟨attempt, -⟩, -⟩, rfl, -⟩ := classified
      refine ⟨⟨rfl, rfl, rfl, rfl⟩, fun _ pending => pending.decisions.companion filed ?_⟩
      rintro event rfl
      simp [Event.nativeType, names, attempt]
    · simp only [if_neg decides, bind_eq_ok, Except.ok.injEq, Prod.mk.injEq] at classified
      obtain ⟨_, -, _, -, _, -, rfl, -⟩ := classified
      exact ⟨⟨rfl, rfl, rfl, rfl⟩, fun requires => absurd requires decides⟩
  obtain ⟨same, decides⟩ := rest
  obtain ⟨keeps, types⟩ := consumeCompletionIncidentEvent_kept consumed
  refine ⟨fun pending kept => ?_, types.trans same.types⟩
  obtain ⟨spent, kept₂, bodies, resolutions, resource, incident⟩ :=
    keeps (kept.congr same.incidentEvents same.incidentResolutions same.resourceReleases)
  refine ⟨?_, spent, kept₂.congr rfl rfl rfl, ?_, bodies, by omega, ?_⟩
  · intro entry mem
    rcases List.mem_cons.mp mem with rfl | mem
    · exact finishes pending
    · split_ifs at mem with requires
      · obtain rfl := List.mem_singleton.mp mem
        exact decides requires pending
      · cases mem
  · intro incidentId used
    rw [incidentOf, if_pos completes, incident incidentId used]
  · intro resourceId used
    rw [resource] at used
    cases used

/-- The companions an action requires have come before it, and what it uses up fits it. -/
theorem validateLifecycleAction_companions
    {given : Option Json} (h : validateLifecycleAction p c s action given = .ok c') :
  ∃ node, s.nodeDefinition action.nodeId = some node ∧
    (Pending seen c → Kept seen c {} → RunsFiled s →
      Companions node action given seen (requiredCompanions action.kind node) ∧
        ∃ spent : Spent, Kept seen c' spent ∧ spent.Fits action given) ∧
    c'.eventTypes = c.eventTypes
  := by
  simp only [validateLifecycleAction, bind_eq_ok, need_eq_ok, Option.filter_eq_some_iff] at h
  obtain ⟨_, -, input, ⟨rfl, -⟩, node, declared, _, -, _, -, _, -, _, -, h⟩ := h
  refine ⟨node, declared, ?_⟩
  have plain {required}
      (used : (Pending seen c → Companions node action (some input) seen required) ∧ SameKept c c') :
      (Pending seen c → Kept seen c {} → RunsFiled s →
        Companions node action (some input) seen required ∧
          ∃ spent : Spent, Kept seen c' spent ∧ spent.Fits action (some input)) ∧
        c'.eventTypes = c.eventTypes := by
    obtain ⟨companions, same⟩ := used
    refine ⟨fun pending kept _ => ⟨companions pending, {}, ?_, Spent.fits_nothing _ _⟩, same.types⟩
    exact kept.congr same.incidentEvents same.incidentResolutions same.resourceReleases
  unfold requiredCompanions
  by_cases renewal : action.kind = "role.renew"
  · rw [if_pos renewal] at h ⊢
    exact plain (useRenewal_companions h)
  rw [if_neg renewal] at h ⊢
  by_cases start : action.kind = "node.start"
  · rw [if_pos start] at h ⊢
    exact plain (useStart_companions h)
  rw [if_neg start] at h ⊢
  by_cases checkpoint : action.kind = "attempt.checkpoint"
  · rw [if_pos checkpoint] at h ⊢
    exact plain (useCheckpoint_companions h)
  rw [if_neg checkpoint] at h ⊢
  by_cases status : ["attempt.wait", "attempt.resume", "attempt.submit"].contains action.kind = true
  · rw [if_pos status] at h ⊢
    exact plain (useStatus_companions h)
  rw [if_neg status] at h ⊢
  by_cases publication : action.kind = "evidence.publish"
  · rw [if_pos publication] at h ⊢
    exact plain (usePackage_companions h)
  rw [if_neg publication] at h ⊢
  by_cases reuse : action.kind = "evidence.assess-reuse"
  · rw [if_pos reuse] at h ⊢
    exact plain (useReuse_companions h)
  rw [if_neg reuse] at h ⊢
  by_cases preparation : action.kind = "effect.prepare"
  · rw [if_pos preparation] at h ⊢
    exact plain (useEffect_companions h)
  rw [if_neg preparation] at h ⊢
  by_cases closure : action.kind = "resource.close" ∨ action.kind = "resource.reconcile"
  · rw [if_pos closure] at h ⊢
    have other : completionKinds.contains action.kind = false := by
      rcases closure with kind | kind <;> rw [kind] <;> decide
    exact useResource_companions other h
  rw [if_neg closure] at h ⊢
  by_cases completion : completionKinds.contains action.kind = true
  · rw [if_pos completion] at h ⊢
    obtain ⟨companions, types⟩ := useCompletion_companions completion h
    exact ⟨fun pending kept _ => companions pending kept, types⟩
  · rw [if_neg completion] at h
    cases h

end

end Lifecycle

end Dagrail
