import Dagrail.Domain.Authority
import Dagrail.Foundation.Decode
import Dagrail.Foundation.Schema
import Dagrail.Service.Decision
import Dagrail.Service.Evidence

/-!
# Action inputs

Every kind of action has a schema its input must satisfy, and most have a decoder that reads the
input into a record.
-/

namespace Dagrail

/-! ### Decoders -/

/-- An evidence reference. -/
def evidenceRefDecoder : Decoder EvidenceRef :=
  .record
    [{ name := "digest", decoder := .text id, get := (·.digest), set := fun r v => { r with digest := v } },
     { name := "type", decoder := .text id, get := (·.type), set := fun r v => { r with type := v } },
     { name := "size", decoder := .int, get := (·.size), set := fun r v => { r with size := v } },
     { name := "uri", decoder := .text id, get := (·.uri), set := fun r v => { r with uri := v } }]

/-- The facts of a closed node. -/
def factsDecoder : Decoder PredicateFacts :=
  .record
    [{ name := "decision", decoder := .texts, get := (·.decision),
       set := fun r v => { r with decision := v } },
     { name := "evidence", decoder := .texts, get := (·.evidence),
       set := fun r v => { r with evidence := v } },
     { name := "policy", decoder := .texts, get := (·.policy),
       set := fun r v => { r with policy := v } }]

/-- A renewal asks for a number of seconds, zero when it does not say. -/
def renewalDecoder : Decoder Int :=
  .record [{ name := "ttlSeconds", decoder := .int, get := id, set := fun _ v => v }]

/-- What a checkpoint request carries. -/
structure CheckpointInput where
  summary : String := ""
  evidenceRefs : List EvidenceRef := []

def checkpointInputDecoder : Decoder CheckpointInput :=
  .record
    [{ name := "summary", decoder := .text id, get := (·.summary),
       set := fun r v => { r with summary := v } },
     { name := "evidenceRefs", decoder := .list default evidenceRefDecoder, get := (·.evidenceRefs),
       set := fun r v => { r with evidenceRefs := v } }]

def completionDecoder : Decoder CompletionInput :=
  .record
    [{ name := "outcome", decoder := .text id, get := (·.outcome),
       set := fun r v => { r with outcome := v } },
     { name := "outcomeRef", decoder := .text id, get := (·.outcomeRef),
       set := fun r v => { r with outcomeRef := v } },
     { name := "facts", decoder := factsDecoder, get := (·.facts),
       set := fun r v => { r with facts := v } },
     { name := "evidenceRefs", decoder := .list default evidenceRefDecoder, get := (·.evidenceRefs),
       set := fun r v => { r with evidenceRefs := v } },
     { name := "classification", decoder := .text id, get := (·.classification),
       set := fun r v => { r with classification := v } }]

/-- The items of a list of documents, each kept as it is. -/
def documents : Decoder (List Json) :=
  (Decoder.list none Decoder.raw).iso (fun items => items.map fun j => j.getD .null)
    fun items => items.map some

def gateDecoder : Decoder GateInput :=
  .record
    [{ name := "input", decoder := .raw, get := (·.input), set := fun r v => { r with input := v } },
     { name := "evidence", decoder := documents, get := (·.evidence),
       set := fun r v => { r with evidence := v } },
     { name := "evidenceRefs", decoder := .list default evidenceRefDecoder, get := (·.evidenceRefs),
       set := fun r v => { r with evidenceRefs := v } }]

/-- What a closure request carries. -/
structure ResourceClosureInput where
  status : String := ""
  receipt : Option Json := none

def closureDecoder : Decoder ResourceClosureInput :=
  .record
    [{ name := "status", decoder := .text id, get := (·.status),
       set := fun r v => { r with status := v } },
     { name := "receipt", decoder := .raw, get := (·.receipt),
       set := fun r v => { r with receipt := v } }]

/-- What a transfer action carries. -/
structure RoleControlTransferInput where
  harness : String := ""
  sessionId : String := ""
  ttlSeconds : Int := 0
  reason : String := ""

def roleControlTransferDecoder : Decoder RoleControlTransferInput :=
  .record
    [{ name := "harness", decoder := .text id, get := (·.harness),
       set := fun r v => { r with harness := v } },
     { name := "sessionId", decoder := .text id, get := (·.sessionId),
       set := fun r v => { r with sessionId := v } },
     { name := "ttlSeconds", decoder := .int, get := (·.ttlSeconds),
       set := fun r v => { r with ttlSeconds := v } },
     { name := "reason", decoder := .text id, get := (·.reason),
       set := fun r v => { r with reason := v } }]

/-- What a controller says about an incident it resolves. -/
structure IncidentControlResolveInput where
  disposition : String := ""
  resolution : String := ""
  note : String := ""

def incidentControlResolveDecoder : Decoder IncidentControlResolveInput :=
  .record
    [{ name := "disposition", decoder := .text id, get := (·.disposition),
       set := fun r v => { r with disposition := v } },
     { name := "resolution", decoder := .text id, get := (·.resolution),
       set := fun r v => { r with resolution := v } },
     { name := "note", decoder := .text id, get := (·.note),
       set := fun r v => { r with note := v } }]

/-- The note of a supersede action. -/
def noteDecoder : Decoder String :=
  .record [{ name := "note", decoder := .text id, get := id, set := fun _ v => v }]

def artifactProvenanceDecoder : Decoder ArtifactProvenance :=
  .record
    [{ name := "producer", decoder := .text id, get := (·.producer),
       set := fun r v => { r with producer := v } },
     { name := "revision", decoder := .text id, get := (·.revision),
       set := fun r v => { r with revision := v } },
     { name := "invocationDigest", decoder := .text id, get := (·.invocationDigest),
       set := fun r v => { r with invocationDigest := v } }]

def artifactRefDecoder : Decoder ArtifactRef :=
  .record
    [{ name := "digest", decoder := .text id, get := (·.digest), set := fun r v => { r with digest := v } },
     { name := "type", decoder := .text id, get := (·.type), set := fun r v => { r with type := v } },
     { name := "size", decoder := .int, get := (·.size), set := fun r v => { r with size := v } },
     { name := "uri", decoder := .text id, get := (·.uri), set := fun r v => { r with uri := v } },
     { name := "provenance", decoder := artifactProvenanceDecoder, get := (·.provenance),
       set := fun r v => { r with provenance := v } }]

def protectedInputDecoder : Decoder ProtectedInput :=
  .record
    [{ name := "name", decoder := .text id, get := (·.name), set := fun r v => { r with name := v } },
     { name := "digest", decoder := .text id, get := (·.digest),
       set := fun r v => { r with digest := v } }]

/-- A truth value that may be absent. -/
def optionalBool : Decoder (Option Bool) := .optional false .bool

def observationsInputDecoder : Decoder ExecutionObservationsInput :=
  .record
    [{ name := "exact", decoder := optionalBool, get := (·.exact),
       set := fun r v => { r with exact := v } },
     { name := "clean", decoder := optionalBool, get := (·.clean),
       set := fun r v => { r with clean := v } },
     { name := "depthComplete", decoder := optionalBool, get := (·.depthComplete),
       set := fun r v => { r with depthComplete := v } },
     { name := "sourceUnmodified", decoder := optionalBool, get := (·.sourceUnmodified),
       set := fun r v => { r with sourceUnmodified := v } },
     { name := "resourcesClosed", decoder := optionalBool, get := (·.resourcesClosed),
       set := fun r v => { r with resourcesClosed := v } }]

/-- The request before any member is read. -/
instance : Inhabited PublishExecutionPackageInput :=
  ⟨{ candidate := default, prospectiveTree := default, commandGraphDigest := ""
     protectedInputs := [], observations := {}, artifacts := [] }⟩

def publishDecoder : Decoder PublishExecutionPackageInput :=
  .record
    [{ name := "candidate", decoder := artifactRefDecoder, get := (·.candidate),
       set := fun r v => { r with candidate := v } },
     { name := "prospectiveTree", decoder := artifactRefDecoder, get := (·.prospectiveTree),
       set := fun r v => { r with prospectiveTree := v } },
     { name := "commandGraphDigest", decoder := .text id, get := (·.commandGraphDigest),
       set := fun r v => { r with commandGraphDigest := v } },
     { name := "protectedInputs", decoder := .list default protectedInputDecoder,
       get := (·.protectedInputs), set := fun r v => { r with protectedInputs := v } },
     { name := "observations", decoder := observationsInputDecoder, get := (·.observations),
       set := fun r v => { r with observations := v } },
     { name := "artifacts", decoder := .list default artifactRefDecoder, get := (·.artifacts),
       set := fun r v => { r with artifacts := v } }]

def policyBindingDecoder : Decoder PolicyBinding :=
  .record
    [{ name := "id", decoder := .text id, get := (·.id), set := fun r v => { r with id := v } },
     { name := "version", decoder := .text id, get := (·.version),
       set := fun r v => { r with version := v } },
     { name := "schemaHash", decoder := .text id, get := (·.schemaHash),
       set := fun r v => { r with schemaHash := v } }]

/-- The request before any member is read. -/
instance : Inhabited ReuseAssessmentInput :=
  ⟨{ packageId := "", policy := default, candidateDigest := "", prospectiveTreeDigest := ""
     commandGraphDigest := "", protectedInputs := [] }⟩

def reuseDecoder : Decoder ReuseAssessmentInput :=
  .record
    [{ name := "packageId", decoder := .text id, get := (·.packageId),
       set := fun r v => { r with packageId := v } },
     { name := "policy", decoder := policyBindingDecoder, get := (·.policy),
       set := fun r v => { r with policy := v } },
     { name := "candidateDigest", decoder := .text id, get := (·.candidateDigest),
       set := fun r v => { r with candidateDigest := v } },
     { name := "prospectiveTreeDigest", decoder := .text id, get := (·.prospectiveTreeDigest),
       set := fun r v => { r with prospectiveTreeDigest := v } },
     { name := "commandGraphDigest", decoder := .text id, get := (·.commandGraphDigest),
       set := fun r v => { r with commandGraphDigest := v } },
     { name := "protectedInputs", decoder := .list default protectedInputDecoder,
       get := (·.protectedInputs), set := fun r v => { r with protectedInputs := v } }]

/-! ### Schemas -/

/-- A digest. -/
def digestSchema : Schema := .text 0 none validDigest

def evidenceRefSchema : Schema :=
  .object ["digest", "type", "size"] []
    [("digest", .bounded 1 256), ("type", .bounded 1 128), ("size", .integer 0 none),
     ("uri", .bounded 0 2048)]

/-- A list of evidence references. -/
def evidenceRefsSchema : Schema := .array 0 128 evidenceRefSchema

/-- The URI of an artifact, which may be empty. -/
def artifactURISchema (p : Platform) : Schema :=
  .text 0 (some 2048) fun uri => uri = "" || p.uriFormat uri

def provenanceSchema : Schema :=
  .object ["producer"] []
    [("producer", .bounded 1 256), ("revision", .bounded 0 256), ("invocationDigest", digestSchema)]

def artifactSchema (p : Platform) : Schema :=
  .object ["digest", "type", "size", "provenance"] []
    [("digest", digestSchema), ("type", .bounded 1 128), ("size", .integer 0 none),
     ("uri", artifactURISchema p), ("provenance", provenanceSchema)]

/-- The protected inputs of an execution. -/
def protectedInputsSchema : Schema :=
  .array 1 128 (.object ["name", "digest"] [] [("name", .bounded 1 128), ("digest", digestSchema)])

/-- The text an outcome is referred to by when its id is long. -/
def outcomeBindingRef (p : Platform) (nodeId outcomeId : String) : String :=
  "outcome:" ++ p.hash.joined [nodeId, outcomeId]

/-- The longest id that is shown inline. -/
def preWaitInlineIDBytes : Nat := 2048

def incidentClassifications : List String :=
  ["work-product", "policy", "fixture", "infrastructure", "evidence", "external-effect", "unknown"]

def incidentDispositions : List String :=
  ["retry", "rollback", "lkg", "quarantine", "off-critical-path", "escalate"]

def incidentControlDispositions : List String :=
  ["rollback", "lkg", "quarantine", "off-critical-path"]

/-- The schema of a completion: an outcome of the node, by id or by reference. -/
def completionSchema (p : Platform) (node : NodeDefinition) : Schema :=
  let ids := node.outcomes.map Outcome.id
  let texts : Schema := .map (.text 0 none fun _ => true)
  .object [] ["outcome", "outcomeRef"]
    [("outcome", .enum (ids.filter fun id => id.utf8ByteSize ≤ preWaitInlineIDBytes)),
     ("outcomeRef", .enum (ids.map (outcomeBindingRef p node.id))),
     ("facts", .object [] [] [("decision", texts), ("evidence", texts), ("policy", texts)]),
     ("evidenceRefs", evidenceRefsSchema),
     ("classification", .enum incidentClassifications)]

/-- The schema of an action input. -/
def actionInputSchema (p : Platform) (kind : String) (node : NodeDefinition) : Schema :=
  match kind with
  | "role.renew" => .object [] [] [("ttlSeconds", .integer 60 (some 86400))]
  | "attempt.checkpoint" =>
      .object ["summary"] []
        [("summary", .bounded 1 2048), ("evidenceRefs", evidenceRefsSchema)]
  | "attempt.finish" | "task.complete" | "review.resolve" | "decision.record"
  | "effect.complete" => completionSchema p node
  | "gate.evaluate" =>
      .object ["input"] []
        [("input", .anything), ("evidence", .array 0 128 .anything),
         ("evidenceRefs", .array 0 128 .anything)]
  | "resource.close" | "resource.reconcile" =>
      .object ["status", "receipt"] []
        [("status", .enum ["confirmed", "failed", "unknown"]), ("receipt", .notNull)]
  | "evidence.publish" =>
      .object
        ["candidate", "prospectiveTree", "commandGraphDigest", "protectedInputs", "observations",
          "artifacts"] []
        [("candidate", artifactSchema p), ("prospectiveTree", artifactSchema p),
         ("commandGraphDigest", digestSchema), ("protectedInputs", protectedInputsSchema),
         ("observations",
           .object ["exact", "clean", "depthComplete", "sourceUnmodified", "resourcesClosed"] []
             [("exact", .boolean), ("clean", .boolean), ("depthComplete", .boolean),
              ("sourceUnmodified", .boolean), ("resourcesClosed", .boolean)]),
         ("artifacts", .array 0 256 (artifactSchema p))]
  | "evidence.assess-reuse" =>
      .object
        ["packageId", "policy", "candidateDigest", "prospectiveTreeDigest", "commandGraphDigest",
          "protectedInputs"] []
        [("packageId", .text 0 none fun id =>
            id.toList.take 5 = "epkg_".toList && validBareHash (String.ofList (id.toList.drop 5))),
         ("policy",
           .object ["id", "version", "schemaHash"] []
             [("id", .bounded 1 128), ("version", .bounded 1 128), ("schemaHash", digestSchema)]),
         ("candidateDigest", digestSchema), ("prospectiveTreeDigest", digestSchema),
         ("commandGraphDigest", digestSchema), ("protectedInputs", protectedInputsSchema)]
  | _ => .object [] [] []

def incidentSupersedeInputSchema : Schema :=
  .object ["note"] [] [("note", .bounded 1 1024)]

def incidentControlResolveInputSchema : Schema :=
  .object ["disposition", "resolution", "note"] []
    [("disposition", .enum incidentControlDispositions), ("resolution", .bounded 1 1024),
     ("note", .bounded 1 1024)]

def roleControlTransferInputSchema : Schema :=
  .object ["harness", "sessionId", "ttlSeconds", "reason"] []
    [("harness", .text 1 none fun _ => true), ("sessionId", .text 1 none fun _ => true),
     ("ttlSeconds", .integer 1 (some 86400)), ("reason", .bounded 1 1024)]

/-- Refuse an input that does not satisfy its schema. -/
def validateAllowedActionInput (schema : Schema) (input : Json) : Fallible Unit :=
  check (schema.validate input) "action input does not match allowed action schema"

end Dagrail
