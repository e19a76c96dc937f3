import Dagrail.Service.Writes

/-!
# Continuity of effects

Before an operator reconciles an effect, the continuity report says whether that is allowed: the
report compares the effect with the current declaration of its node, the compiled adapter, the
lease of its role and its incident. The reconciliation makes checks of its own, and it does not look
at the declaration. A node that is planned again for a retry may be changed or removed; then the
report refuses what the reconciliation admits.
-/

namespace Dagrail

/-! ### The report -/

/-- What the continuity report says about an effect. -/
structure EffectContinuity where
  actionId : String
  preparedSequence : Nat
  currentHeadSequence : Nat
  headAdvanced : Bool
  declarationAvailable : Bool := false
  adapterIdUnchanged : Bool := false
  adapterMetadataAvailable : Bool := false
  adapterUnchanged : Bool := false
  preparedAdapterVersion : String := ""
  currentAdapterVersion : String := ""
  preparedAdapterSchemaHash : String := ""
  currentAdapterSchemaHash : String := ""
  requestUnchanged : Bool := false
  preparedRequestDigest : String := ""
  currentRequestDigest : String := ""
  causalContractUnchanged : Bool := false
  reconcileAllowed : Bool := false
  reconcileBlockers : List String := []
  reasons : List String := []

/-- The digest of the request of an effect; a missing request counts as `null`. -/
def effectRequestDigest (p : Platform) (request : Option Json) : String :=
  p.hash.requestDigest "effect.request" (request.getD .null)

/-- The declaration in the inputs of an effect node, as it can be read. -/
def readEffectNodeInput (node : NodeDefinition) : Fallible EffectNodeInput := do
  let inputs ← need node.inputs "effect_declaration_invalid"
  effectNodeInputDecoder.decode {} inputs

/-- The statuses the report counts as reconcilable. -/
def reconcilableStatuses : List EffectStatus :=
  [.prepared, .dispatched, .unknown, .failed, .reconciling]

/-- A reason that is listed when the condition holds. -/
def reasonIf (condition : Bool) (reason : String) : List String :=
  if condition then [reason] else []

/-- What the compiled adapter contributes to the blockers. -/
def adapterBlockers (adapter : Option ProviderMetadata) (metadataAvailable unchanged : Bool) :
    List String :=
  if adapter.isNone then ["effect_adapter_unavailable"]
  else if !metadataAvailable then ["prepared_adapter_metadata_missing"]
  else reasonIf (!unchanged) "adapter_metadata_changed"

/-- Does a role have one of the capabilities that reconciling an effect takes? -/
def mayReconcile (s : State) (roleId : String) : Bool :=
  GraphDefinition.roleHasCapability s.graph roleId .effectReconcile
    || GraphDefinition.roleHasCapability s.graph roleId .effectApply

/-- The report on an effect whose node declares an adapter and a request. -/
def EffectContinuity.compare (p : Platform) (s : State) (now : Instant) (effect : EffectAction)
    (declaration : EffectNodeInput) (report : EffectContinuity) : EffectContinuity :=
  let adapterIdUnchanged : Bool := declaration.adapter = effect.adapterId
  let adapter := p.effects.lookup effect.adapterId
  let metadataAvailable : Bool :=
    adapter.isSome && effect.adapterVersion ≠ "" && effect.adapterSchemaHash ≠ ""
  let adapterUnchanged : Bool := adapterIdUnchanged && metadataAvailable
    && adapter.any fun metadata => metadata.id = effect.adapterId
      && metadata.version = effect.adapterVersion && metadata.schemaHash = effect.adapterSchemaHash
  let preparedDigest := effectRequestDigest p effect.request
  let currentDigest := effectRequestDigest p declaration.request
  let requestUnchanged : Bool := preparedDigest = currentDigest
  let contractUnchanged := adapterUnchanged && requestUnchanged
  let incident := s.incidents.lookup (effectIncidentId report.actionId)
  let blockers := sortTexts
    (reasonIf (!contractUnchanged) "causal_contract_changed"
      ++ reasonIf (!reconcilableStatuses.contains effect.status) "effect_status_not_reconcilable"
      ++ reasonIf (!mayReconcile s effect.ownerRole) "role_capability_missing"
      ++ reasonIf (validLeaseAt s effect.ownerRole now).toOption.isNone "role_lease_invalid"
      ++ ((incident.filter fun incident => incident.status ≠ .opened).toList.map fun incident =>
          "incident_" ++ incident.status.text)
      ++ adapterBlockers adapter metadataAvailable adapterUnchanged)
  { report with
    declarationAvailable := true
    adapterIdUnchanged
    adapterMetadataAvailable := metadataAvailable
    adapterUnchanged
    preparedAdapterVersion := effect.adapterVersion
    currentAdapterVersion := (adapter.map ProviderMetadata.version).getD ""
    preparedAdapterSchemaHash := effect.adapterSchemaHash
    currentAdapterSchemaHash := (adapter.map ProviderMetadata.schemaHash).getD ""
    requestUnchanged
    preparedRequestDigest := preparedDigest
    currentRequestDigest := currentDigest
    causalContractUnchanged := contractUnchanged
    reconcileAllowed := blockers.isEmpty
    reconcileBlockers := blockers
    reasons := sortTexts
      (reasonIf report.headAdvanced "global_head_advanced"
        ++ reasonIf (!adapterUnchanged) "adapter_changed_or_unbound"
        ++ reasonIf (!requestUnchanged) "request_changed"
        ++ reasonIf contractUnchanged "bounded_effect_contract_unchanged") }

/-- The continuity report on an effect at an instant. -/
def effectContinuity (p : Platform) (s : State) (now : Instant) (actionId : String) :
    Fallible EffectContinuity := do
  let effect ← need (s.effects.lookup actionId) ("unknown effect " ++ actionId)
  let preparedSequence := (s.actions.get actionId).sequence
  let report : EffectContinuity :=
    { actionId
      preparedSequence
      currentHeadSequence := s.headSequence
      headAdvanced := decide (preparedSequence < s.headSequence) }
  match s.nodeDefinition effect.nodeId with
  | none => .ok { report with reasons := ["effect_node_no_longer_declared"] }
  | some node =>
      match readEffectNodeInput node with
      | .error _ =>
          .ok { report with
            declarationAvailable := true
            reasons := ["effect_declaration_invalid"] }
      | .ok declaration => .ok (report.compare p s now effect declaration)

/-- A well-formed request that no stored command answers. -/
structure ReconcileInput.Fresh (p : Platform) (s : State) (value : ReconcileInput)
    (effect : EffectAction) : Prop where
  target : value.actionId ≠ ""
  key : value.idempotencyKey ≠ ""
  size : value.evidenceBytes ≤ maxReceiptBytes
  evidence : ∀ evidence, value.evidence = some evidence →
    evidence.validateAuthority = true ∧ p.screenDocument evidence = true
  unfiled : s.commands.lookup value.idempotencyKey = none
  begun : ∀ command, s.commands.lookup (value.idempotencyKey ++ "/begin") = some command →
    command.repeats "effect.reconcile" effect.ownerRole ("effect:" ++ value.actionId)
      (value.requestDigest p) = true

variable {p : Platform} {s : State} {effect : EffectAction}

namespace SampleContinuity

/-- The platform with one effect adapter. -/
def platform : Platform :=
  { Platform.numbered with
    effects := .single ⟨"manual", "1", "schema"⟩ (by decide) (by decide) }

/-- An effect node with the adapter. -/
def publish (adapter : String) : NodeDefinition :=
  { id := "publish", title := "publish", kind := .effect, role := "ops", retryBudget := 1
    inputs := some (.obj [("adapter", .str adapter), ("request", .obj [])])
    outcomes := [⟨"published", .success⟩, ⟨"again", .retryable⟩] }

/-- A graph with one effect. -/
def graph : GraphDefinition where
  apiVersion := graphAPIVersion
  kind := graphKind
  metadata := { name := "sample" }
  spec :=
    { roles := [{ id := "ops", capabilities := [.effectApply, .effectReconcile, .graphChange] }]
      nodes := [publish "manual"] }

/-- A reference to an action on the effect after the given number of segments. -/
def ref (head : Nat) (kind attemptId : String) : ActionRef where
  projectId := "p"
  headHash := numberedText head
  graphRevision := Hex.zero.text
  providerSet := Hex.zero.text
  roleId := "ops"
  sessionId := "first"
  nodeId := "publish"
  attemptId
  kind
  expiresAt := .utc 1
  subject := []

/-- The effect is prepared, and its attempt ends with an outcome that asks for a retry. -/
def calls : List (Nat × Call) :=
  [(0, .importGraph { graph, idempotencyKey := "import", actorRole := "ops", requestDigest := "" }),
   (0, .bindRole { roleId := "ops", harness := "cli", sessionId := "first", ttl := 0
                   idempotencyKey := "bind" }),
   (0, .apply { ref := ref 2 "node.start" "", input := .obj [], idempotencyKey := "start" }),
   (9, .apply { ref := ref 3 "effect.prepare" "00", input := .obj [], idempotencyKey := "prepare"
                prepared := { adapterId := "manual" } }),
   (9, .apply { ref := ref 4 "effect.complete" "00"
                input := .obj [("outcome", .str "again")], idempotencyKey := "complete" })]

/-- The node is planned again, and a patch declares another adapter for it. -/
def change : Call :=
  .changeGraph
    { token :=
        { projectId := "p", headHash := numberedText 5, currentRevision := Hex.zero.text
          proposedRevision := Hex.zero.text, patchDigest := "", providerSet := Hex.zero.text, expiresAt := .utc 1 }
      patch := { operations := [.updateNode (some (publish "mail"))] }
      digest := "", idempotencyKey := "change", actorRole := "ops" }

/-- A request to reconcile the effect. -/
def request : ReconcileInput :=
  { actionId := Hex.zero.text, idempotencyKey := "reconcile" }

end SampleContinuity

namespace SampleContinuity

/-- What the report and the reconciliation say about the effect after the calls, if the request is
fresh: the report first. -/
def verdicts (calls : List (Nat × Call)) : Fallible (List Segment × State × EffectAction × Bool × Bool) := do
  let journal ← commitEach platform "p" 0 [] calls
  let s ← reduceSegments platform "p" journal
  let effect ← need (s.effects.lookup request.actionId) "the effect is not prepared"
  check (effect.status ≠ .confirmed && (s.commands.lookup "reconcile").isNone
    && (s.commands.lookup "reconcile/begin").isNone) "the request is not fresh"
  let report ← effectContinuity platform s 0 request.actionId
  let admitted := reconcileAdmission platform s (.still 0) request
  .ok (journal, s, effect, report.reconcileAllowed, admitted.toOption.any Option.isSome)

/-- The report and the reconciliation agree on the effect before its node is changed, and disagree
afterwards. -/
theorem runs :
  ((verdicts (calls ++ [(9, change)])).map fun answer => answer.2.2.2) = .ok (false, true) ∧
    ((verdicts calls).map fun answer => answer.2.2.2) = .ok (true, true)
  := by decide

end SampleContinuity

end Dagrail
