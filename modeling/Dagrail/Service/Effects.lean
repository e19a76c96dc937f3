import Dagrail.Service.Resources

/-!
# Effects

An effect is prepared, admitted for dispatch, dispatched by its adapter and observed; an effect
whose outcome is not known is reconciled, which again is an admission, a call of the adapter and
an observation. Each admission and observation is an append of its own. What the adapters answer
is a parameter.
-/

namespace Dagrail

/-! ### Declarations and receipts -/

/-- What an effect node declares in its inputs. -/
structure EffectNodeInput where
  adapter : String := ""
  request : Option Json := none

def effectNodeInputDecoder : Decoder EffectNodeInput :=
  .record
    [{ name := "adapter", decoder := .text id, get := (·.adapter),
       set := fun r v => { r with adapter := v } },
     { name := "request", decoder := .raw, get := (·.request),
       set := fun r v => { r with request := v } }]

/-- What an adapter answers to a preparation. -/
structure PreparedEffect where
  adapterId : String := ""
  binding : Option Json := none

def preparedEffectDecoder : Decoder PreparedEffect :=
  .record
    [{ name := "adapterId", decoder := .text id, get := (·.adapterId),
       set := fun r v => { r with adapterId := v } },
     { name := "binding", decoder := .raw, get := (·.binding),
       set := fun r v => { r with binding := v } }]

/-- The document a preparation is stored as. -/
def PreparedEffect.document (value : PreparedEffect) : Json :=
  .obj [("adapterId", .str value.adapterId), ("binding", value.binding.getD .null)]

/-- What an adapter answers to a dispatch or a reconciliation. -/
structure EffectReceipt where
  status : String := ""
  externalId : String := ""
  transportAccepted : Bool := false
  recipientVisible : Bool := false
  transportStatus : String := ""
  sessionStatus : String := ""
  deliveryStatus : String := ""
  acceptanceStatus : String := ""
  completionStatus : String := ""
  detail : Option Json := none

def effectReceiptDecoder : Decoder EffectReceipt :=
  .record
    [{ name := "status", decoder := .text id, get := (·.status),
       set := fun r v => { r with status := v } },
     { name := "externalId", decoder := .text id, get := (·.externalId),
       set := fun r v => { r with externalId := v } },
     { name := "transportAccepted", decoder := .bool, get := (·.transportAccepted),
       set := fun r v => { r with transportAccepted := v } },
     { name := "recipientVisible", decoder := .bool, get := (·.recipientVisible),
       set := fun r v => { r with recipientVisible := v } },
     { name := "transportStatus", decoder := .text id, get := (·.transportStatus),
       set := fun r v => { r with transportStatus := v } },
     { name := "sessionStatus", decoder := .text id, get := (·.sessionStatus),
       set := fun r v => { r with sessionStatus := v } },
     { name := "deliveryStatus", decoder := .text id, get := (·.deliveryStatus),
       set := fun r v => { r with deliveryStatus := v } },
     { name := "acceptanceStatus", decoder := .text id, get := (·.acceptanceStatus),
       set := fun r v => { r with acceptanceStatus := v } },
     { name := "completionStatus", decoder := .text id, get := (·.completionStatus),
       set := fun r v => { r with completionStatus := v } },
     { name := "detail", decoder := .raw, get := (·.detail),
       set := fun r v => { r with detail := v } }]

/-- A member of a receipt that is left out when it is empty. -/
def textMember (name value : String) : List (String × Json) :=
  if value = "" then [] else [(name, .str value)]

/-- A member of a receipt that is left out when it is false. -/
def flagMember (name : String) (value : Bool) : List (String × Json) :=
  if value then [(name, .bool true)] else []

/-- The document a receipt is stored as. -/
def EffectReceipt.document (value : EffectReceipt) : Json :=
  .obj ([("status", .str value.status)] ++ textMember "externalId" value.externalId
    ++ flagMember "transportAccepted" value.transportAccepted
    ++ flagMember "recipientVisible" value.recipientVisible
    ++ textMember "transportStatus" value.transportStatus
    ++ textMember "sessionStatus" value.sessionStatus
    ++ textMember "deliveryStatus" value.deliveryStatus
    ++ textMember "acceptanceStatus" value.acceptanceStatus
    ++ textMember "completionStatus" value.completionStatus
    ++ match value.detail with
      | some detail => [("detail", detail)]
      | none => [])

/-- The effect status a receipt gives. -/
def receiptStatus (status : String) : Option EffectStatus :=
  if status = "confirmed" then some .confirmed
  else if status = "failed" then some .failed
  else if status = "unknown" then some .unknown
  else if status = "reconciling" then some .reconciling
  else none

/-- A part of a receipt is left out or one of the allowed texts. -/
def validateReceiptState (name value : String) (allowed : List String) : Fallible Unit :=
  check (value = "" || allowed.contains value)
    ("invalid " ++ name ++ " receipt state " ++ value)

/-- The largest receipt in bytes. -/
def maxReceiptBytes : Nat := 64 * 1024

/-- The status and the stored document of a valid receipt. -/
def validateEffectReceipt (p : Platform) (receipt : EffectReceipt) :
    Fallible (EffectStatus × Json) := do
  let status ← need (receiptStatus receipt.status)
    ("invalid effect receipt status " ++ receipt.status)
  check (receipt.detail.all Json.validateAuthority) "effect receipt detail"
  validateReceiptState "transport" receipt.transportStatus
    ["not-attempted", "accepted", "rejected", "unknown"]
  validateReceiptState "session" receipt.sessionStatus ["not-created", "created", "unknown"]
  validateReceiptState "delivery" receipt.deliveryStatus ["pending", "visible", "failed", "unknown"]
  validateReceiptState "acceptance" receipt.acceptanceStatus
    ["pending", "accepted", "returned", "unknown"]
  validateReceiptState "completion" receipt.completionStatus
    ["pending", "completed", "failed", "unknown"]
  let document := receipt.document
  check (p.encodedSize document ≤ maxReceiptBytes) "effect receipt cannot exceed 64 KiB"
  check (p.screenDocument document) "effect receipt contains prohibited material"
  .ok (status, document.canon)

/-! ### Preparation -/

/-- The declaration of an effect node: an adapter and a request that is not `null`. -/
def effectDeclaration (p : Platform) (node : NodeDefinition) : Fallible (String × Json) := do
  let inputs ← need node.inputs "decode effect node inputs: no inputs"
  let declaration ← effectNodeInputDecoder.decode {} inputs
  check (declaration.adapter ≠ "") "effect node requires adapter and request inputs"
  let request ← need declaration.request "effect node requires adapter and request inputs"
  check (request ≠ .null) "effect node request cannot be null"
  check (p.screenDocument request) "effect node request contains prohibited material"
  .ok (declaration.adapter, request)

/-- Prepare the effect of an attempt. The events are those of the state loaded under the lock of
the effect. -/
def applyEffectAction (p : Platform) (s : State) (env : Env) (ref : ActionRef) (input : Json)
    (idempotencyKey requestDigest : String) (node : NodeDefinition) (prepared : PreparedEffect) :
    Fallible (Option Batch) := do
  let attempt ← activeAttempt s ref
  check (s.effectForAttempt attempt.id).isNone
    "attempt already has an effect action; reconcile it before another dispatch"
  let (adapter, request) ← effectDeclaration p node
  let metadata ← need (p.effects.lookup adapter)
    ("effect adapter " ++ adapter ++ " is not registered")
  check (prepared.adapterId = adapter)
    ("effect preparation adapter " ++ prepared.adapterId ++ " does not match declaration " ++ adapter)
  check (prepared.binding.all fun binding =>
      binding.validateAuthority && p.screenDocument binding)
    "effect preparation returned invalid authority data"
  let preparedAt := env.clock 0
  let lease ← validLeaseAt s ref.roleId preparedAt
  check (lease.sessionId = ref.sessionId) "effect preparation finished outside its role lease"
  check (ref.unexpired preparedAt) "action reference expired during effect preparation"
  let effect : EffectAction :=
    { id := ref.actionId p
      nodeId := node.id
      attemptId := attempt.id
      adapterId := adapter
      adapterVersion := metadata.version
      adapterSchemaHash := metadata.schemaHash
      ownerRole := ref.roleId
      status := .prepared
      request := some request
      prepared := some prepared.document.canon
      idempotencyKey
      preparedAt := .utc preparedAt
      updatedAt := .utc preparedAt }
  .ok (some
    { command := ref.command p env idempotencyKey requestDigest
      events :=
        [.effectPrepared effect,
         .actionApplied
          { id := ref.actionId p
            kind := ref.kind
            nodeId := node.id
            attemptId := attempt.id
            status := .prepared
            input := some input.canon }]
      committedAt := preparedAt })

/-- Admit the dispatch of a prepared effect, while the session still holds the role. -/
def dispatchAdmission (p : Platform) (s : State) (env : Env) (ref : ActionRef)
    (idempotencyKey requestDigest : String) : Fallible Batch := do
  let dispatchTime := env.clock 0
  let lease ← validLeaseAt s ref.roleId dispatchTime
  check (lease.sessionId = ref.sessionId)
    ("effect is prepared but dispatch authorization expired; reconcile action " ++ ref.actionId p)
  .ok
    { command :=
        { id := env.newID 0
          kind := "effect.dispatch"
          actorRole := ref.roleId
          idempotencyKey := idempotencyKey ++ "/dispatch"
          objectRef := "effect:" ++ ref.actionId p
          requestDigest }
      events := [.effectDispatched (ref.actionId p) (.utc dispatchTime)]
      committedAt := dispatchTime }

/-- The receipt an observation is made of: an adapter that fails or says nothing leaves the
outcome unknown. -/
def dispatchReceipt (answer : Except String EffectReceipt) : EffectReceipt :=
  match answer with
  | .error message =>
      { status := "unknown", detail := some (.obj [("error", .str message)]) }
  | .ok receipt => if receipt.status = "" then { receipt with status := "unknown" } else receipt

/-! ### Observation -/

/-- The id of the incident of an effect. -/
def effectIncidentId (actionId : String) : String :=
  "effect:" ++ actionId

/-- The incident after an observation that leaves the effect failed or unknown. -/
def effectIncident (s : State) (actionId : String) (effect : EffectAction) (now : Instant) :
    Incident :=
  let fresh : Incident :=
    { id := effectIncidentId actionId
      sourceType := "effect"
      sourceId := actionId
      nodeId := effect.nodeId
      ownerRole := effect.ownerRole
      status := .opened
      classification := "external-effect"
      deadline := .utc (now + Duration.hour)
      attemptBudget := 2
      progressMetric := "new external receipt or deterministic reconcile result"
      dependencyCut := dependencyCut s effect.nodeId
      openedAt := .utc now
      updatedAt := .utc now }
  let next := match s.incidents.lookup (effectIncidentId actionId) with
    | none => fresh
    | some existing =>
        { fresh with
          openedAt := existing.openedAt
          attempts := existing.attempts + 1
          deadline := existing.deadline
          noProgressAttempts := existing.noProgressAttempts
          lastProgress := existing.lastProgress
          lastProgressAt := existing.lastProgressAt
          disposition := existing.disposition
          dispositionBy := existing.dispositionBy
          dispositionAt := existing.dispositionAt }
  if next.attemptBudget ≤ next.attempts then
    { next with status := .circuitOpen, circuitReason := "effect_attempt_budget_exhausted" }
  else next

/-- The incident events that follow an observation. -/
def observationEvents (s : State) (actionId : String) (effect : EffectAction)
    (status : EffectStatus) (now : Instant) : List Event :=
  if status = .unknown ∨ status = .failed then
    [.incidentOpened (effectIncident s actionId effect now)]
  else if status = .confirmed
      ∧ (s.incidents.lookup (effectIncidentId actionId)).any fun i => i.status ≠ .resolved then
    [.incidentResolved (effectIncidentId actionId) (.utc now)]
  else []

/-- Observe an effect. No status of the effect is required here; whoever calls has admitted the
observation before. -/
def observeEffect (p : Platform) (s : State) (env : Env) (actionId actorRole : String)
    (receipt : EffectReceipt) (idempotencyKey requestDigest : String) : Fallible Batch := do
  let (status, document) ← validateEffectReceipt p receipt
  let effect ← need (s.effects.lookup actionId) ("unknown effect action " ++ actionId)
  check ((s.incidents.lookup (effectIncidentId actionId)).all fun i => i.status = .opened)
    "effect observation cannot bypass an incident that is not open"
  let now := env.clock 0
  .ok
    { command :=
        { id := env.newID 0
          kind := "effect.observe"
          actorRole
          idempotencyKey
          objectRef := "effect:" ++ actionId
          requestDigest }
      events :=
        .effectObserved actionId status (some document) (.utc now)
          :: observationEvents s actionId effect status now
      committedAt := now }

/-! ### Reconciliation -/

/-- The adapter of an effect is still the one it was prepared with. -/
def validateEffectAdapterBinding (effect : EffectAction) (metadata : ProviderMetadata) :
    Fallible Unit := do
  check (effect.adapterVersion ≠ "" && effect.adapterSchemaHash ≠ "")
    ("effect " ++ effect.id
      ++ " predates adapter metadata binding and cannot be reconciled automatically")
  check (metadata.id = effect.adapterId && metadata.version = effect.adapterVersion
      && metadata.schemaHash = effect.adapterSchemaHash)
    "effect adapter metadata changed since preparation"

/-- A request to reconcile an effect. The evidence is a document of the given encoded size. -/
structure ReconcileInput where
  actionId : String
  evidence : Option Json := none
  evidenceBytes : Nat := 0
  idempotencyKey : String

/-- The digest of a reconcile request. -/
def ReconcileInput.requestDigest (p : Platform) (value : ReconcileInput) : String :=
  p.hash.requestDigest "effect.reconcile" (value.evidence.getD .null)

/-- Admit a reconciliation: the batch that records it and the effect it is about, or nothing when
a stored command or a confirmed effect answers the request. -/
def reconcileAdmission (p : Platform) (s : State) (env : Env) (value : ReconcileInput) :
    Fallible (Option (Batch × EffectAction)) := do
  check (value.actionId ≠ "" && value.idempotencyKey ≠ "") "action and idempotency key are required"
  check (value.evidenceBytes ≤ maxReceiptBytes) "reconciliation evidence cannot exceed 64 KiB"
  check (value.evidence.all fun evidence =>
      evidence.validateAuthority && p.screenDocument evidence)
    "reconciliation evidence"
  let requestDigest := value.requestDigest p
  let objectRef := "effect:" ++ value.actionId
  match s.commands.lookup value.idempotencyKey with
  | some command => do
      check ((s.effects.lookup value.actionId).any fun effect =>
          command.repeats "effect.observe" effect.ownerRole objectRef requestDigest)
        keyBound
      .ok none
  | none => do
      let effect ← need (s.effects.lookup value.actionId)
        ("unknown effect action " ++ value.actionId)
      check ((s.commands.lookup (value.idempotencyKey ++ "/begin")).all fun command =>
          command.repeats "effect.reconcile" effect.ownerRole objectRef requestDigest)
        "idempotency key is already bound to another reconciliation request"
      let _ ← requireRoleCapability s effect.ownerRole (env.clock 0) [.effectReconcile, .effectApply]
      let _ ← validLeaseAt s effect.ownerRole (env.clock 1)
      if effect.status = .confirmed then .ok none
      else do
        check ((s.incidents.lookup (effectIncidentId value.actionId)).all fun i =>
            i.status = .opened)
          "effect incident is not open and cannot be reopened by reconciliation"
        let metadata ← need (p.effects.lookup effect.adapterId)
          ("effect adapter " ++ effect.adapterId ++ " is not registered")
        validateEffectAdapterBinding effect metadata
        let stored ← need effect.prepared "effect preparation is unavailable"
        let _ ← preparedEffectDecoder.decode {} stored
        let reconcilingTime := env.clock 2
        let _ ← validLeaseAt s effect.ownerRole reconcilingTime
        .ok (some
          ({ command :=
              { id := env.newID 0
                kind := "effect.reconcile"
                actorRole := effect.ownerRole
                idempotencyKey := value.idempotencyKey ++ "/begin"
                objectRef
                requestDigest }
             events := [.effectReconciling value.actionId (.utc reconcilingTime)]
             committedAt := reconcilingTime }, effect))

/-! ### What is committed -/

/-- A preparation that is committed is the first one of an active attempt. -/
structure EffectCommit (p : Platform) (s : State) (ref : ActionRef) (key : String)
    (effect : EffectAction) : Prop where
  attempt : ∃ attempt, activeAttempt s ref = .ok attempt ∧ effect.attemptId = attempt.id ∧
    s.effectForAttempt attempt.id = none
  id : effect.id = ref.actionId p
  status : effect.status = .prepared
  ownerRole : effect.ownerRole = ref.roleId
  prepared : effect.prepared.isSome = true
  idempotencyKey : effect.idempotencyKey = key

/-- The action record of a preparation. -/
def ActionRef.preparation (p : Platform) (ref : ActionRef) (effect : EffectAction) (input : Json) :
    ActionRecord :=
  { id := ref.actionId p
    kind := ref.kind
    nodeId := effect.nodeId
    attemptId := effect.attemptId
    status := .prepared
    input := some input.canon }

/-- A preparation commits the effect and its action. -/
theorem applyEffectAction_ok
    {p : Platform} {s : State} {env : Env} {ref : ActionRef} {input : Json}
    {key requestDigest : String} {node : NodeDefinition} {prepared : PreparedEffect} {b : Batch}
    (h : applyEffectAction p s env ref input key requestDigest node prepared = .ok (some b)) :
  ∃ effect, EffectCommit p s ref key effect ∧ effect.nodeId = node.id ∧
    b.events = [.effectPrepared effect, .actionApplied (ref.preparation p effect input)] ∧
    b.command = ref.command p env key requestDigest
  := by
  simp only [applyEffectAction, bind_eq_ok, need_eq_ok, check_eq_ok, Option.isNone_iff_eq_none,
    Except.ok.injEq, Option.some.injEq] at h
  obtain ⟨attempt, active, _, first, ⟨adapter, request⟩, -, metadata, -, h⟩ := h
  obtain ⟨_, -, _, -, lease, -, _, -, _, -, rfl⟩ := h
  exact ⟨_, ⟨⟨attempt, active, rfl, first⟩, rfl, rfl, rfl, rfl, rfl⟩, rfl, rfl, rfl⟩

/-- An admission of a dispatch is one event about the effect of the action. -/
theorem dispatchAdmission_ok
    {p : Platform} {s : State} {env : Env} {ref : ActionRef} {key requestDigest : String}
    {b : Batch} (h : dispatchAdmission p s env ref key requestDigest = .ok b) :
  b.events = [.effectDispatched (ref.actionId p) (.utc (env.clock 0))] ∧
    b.command =
      { id := env.newID 0
        kind := "effect.dispatch"
        actorRole := ref.roleId
        idempotencyKey := key ++ "/dispatch"
        objectRef := "effect:" ++ ref.actionId p
        requestDigest }
  := by
  simp only [dispatchAdmission, bind_eq_ok, Except.ok.injEq] at h
  obtain ⟨lease, -, _, -, rfl⟩ := h
  exact ⟨rfl, rfl⟩

/-- An observation is about a known effect, and its incident is open, if there is one. -/
theorem observeEffect_ok
    {p : Platform} {s : State} {env : Env} {actionId actorRole : String} {receipt : EffectReceipt}
    {key requestDigest : String} {b : Batch}
    (h : observeEffect p s env actionId actorRole receipt key requestDigest = .ok b) :
  ∃ effect status document, s.effects.lookup actionId = some effect ∧
    receiptStatus receipt.status = some status ∧
    b.events =
      .effectObserved actionId status (some document) (.utc (env.clock 0))
        :: observationEvents s actionId effect status (env.clock 0) ∧
    b.command =
      { id := env.newID 0
        kind := "effect.observe"
        actorRole
        idempotencyKey := key
        objectRef := "effect:" ++ actionId
        requestDigest }
  := by
  simp only [observeEffect, bind_eq_ok, need_eq_ok, Except.ok.injEq] at h
  obtain ⟨⟨status, document⟩, valid, effect, known, _, -, rfl⟩ := h
  simp only [validateEffectReceipt, bind_eq_ok, need_eq_ok, Except.ok.injEq, Prod.mk.injEq] at valid
  obtain ⟨_, read, _, -, _, -, _, -, _, -, _, -, _, -, _, -, _, -, rfl, -⟩ := valid
  exact ⟨effect, _, document, known, read, rfl, rfl⟩

/-- An admission of a reconciliation is one event about a known effect that is not confirmed, under
a key that is not filed. -/
theorem reconcileAdmission_ok
    {p : Platform} {s : State} {env : Env} {value : ReconcileInput} {b : Batch}
    {effect : EffectAction} (h : reconcileAdmission p s env value = .ok (some (b, effect))) :
  s.effects.lookup value.actionId = some effect ∧ effect.status ≠ .confirmed ∧
    b.events = [.effectReconciling value.actionId (.utc (env.clock 2))] ∧
    b.command =
      { id := env.newID 0
        kind := "effect.reconcile"
        actorRole := effect.ownerRole
        idempotencyKey := value.idempotencyKey ++ "/begin"
        objectRef := "effect:" ++ value.actionId
        requestDigest := value.requestDigest p }
  := by
  simp only [reconcileAdmission, bind_eq_ok] at h
  obtain ⟨_, -, _, -, _, -, h⟩ := h
  split at h
  · simp at h
  · simp only [bind_eq_ok, need_eq_ok] at h
    obtain ⟨found, known, _, -, _, -, _, -, h⟩ := h
    split at h
    · simp at h
    · rename_i open_
      simp only [bind_eq_ok, need_eq_ok, Except.ok.injEq, Option.some.injEq, Prod.mk.injEq] at h
      obtain ⟨_, -, _, -, _, -, _, -, _, -, _, -, rfl, rfl⟩ := h
      exact ⟨known, open_, rfl, rfl⟩

/-- The events that follow an observation are about the incident of the effect. -/
theorem mem_observationEvents
    {s : State} {actionId : String} {effect : EffectAction} {status : EffectStatus} {now : Instant}
    {event : Event} (mem : event ∈ observationEvents s actionId effect status now) :
  event = .incidentOpened (effectIncident s actionId effect now) ∨
    event = .incidentResolved (effectIncidentId actionId) (.utc now)
  := by
  unfold observationEvents at mem
  split_ifs at mem
  · exact Or.inl (List.mem_singleton.mp mem)
  · exact Or.inr (List.mem_singleton.mp mem)
  · simp at mem

end Dagrail
