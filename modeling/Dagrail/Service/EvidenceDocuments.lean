import Dagrail.Domain.Calendar
import Dagrail.Foundation.Members
import Dagrail.Service.LifecycleManifest
import Dagrail.Service.Payload

/-!
# The documents of execution evidence

What is written into the journal for an execution package and for a reuse decision
(`internal/domain/evidence.go`), and that each reads back as it was written.
-/

namespace Dagrail

open Decoder

namespace ArtifactProvenance

/-- The members of the document. -/
def entries (provenance : ArtifactProvenance) : List (String × Option Json) :=
  [("producer", some (.str provenance.producer)),
   ("revision", Json.textOrOmit provenance.revision),
   ("invocationDigest", Json.textOrOmit provenance.invocationDigest)]

/-- What is written for a provenance. -/
def document (provenance : ArtifactProvenance) : Json :=
  .obj (Json.present provenance.entries)

/-- It reads back as it was written. -/
theorem read_document
    (provenance : ArtifactProvenance) :
  artifactProvenanceDecoder.read default provenance.document = .ok provenance
  := by
  have binds : Json.Binds provenance.entries :=
    Json.binds_of_names
      ["producer", "revision", "invocationDigest"]
      rfl (by decide +kernel)
  change readFields _ _ _ = _
  refine readFields_said binds "producer" (some (.str provenance.producer)) rfl
    (by simp [entries]) (readValues_some rfl) ?_
  refine readFields_said binds "revision" (Json.textOrOmit provenance.revision) rfl
    (by simp [entries]) (readValues_textOrOmit _ _ _ _ _ rfl) ?_
  refine readFields_said binds "invocationDigest" (Json.textOrOmit provenance.invocationDigest) rfl
    (by simp [entries]) (readValues_textOrOmit _ _ _ _ _ rfl) ?_
  rfl

end ArtifactProvenance

namespace ArtifactRef

/-- The members of the document. -/
def entries (artifact : ArtifactRef) : List (String × Option Json) :=
  [("digest", some (.str artifact.digest)),
   ("type", some (.str artifact.type)),
   ("size", some (.num artifact.size)),
   ("uri", Json.textOrOmit artifact.uri),
   ("provenance", some artifact.provenance.document)]

/-- What is written for an artifact. -/
def document (artifact : ArtifactRef) : Json :=
  .obj (Json.present artifact.entries)

/-- It reads back as it was written. -/
theorem read_document
    (artifact : ArtifactRef) :
  artifactRefDecoder.read default artifact.document = .ok artifact
  := by
  have binds : Json.Binds artifact.entries :=
    Json.binds_of_names
      ["digest", "type", "size", "uri", "provenance"]
      rfl (by decide +kernel)
  change readFields _ _ _ = _
  refine readFields_said binds "digest" (some (.str artifact.digest)) rfl
    (by simp [entries]) (readValues_some rfl) ?_
  refine readFields_said binds "type" (some (.str artifact.type)) rfl
    (by simp [entries]) (readValues_some rfl) ?_
  refine readFields_said binds "size" (some (.num artifact.size)) rfl
    (by simp [entries]) (readValues_some rfl) ?_
  refine readFields_said binds "uri" (Json.textOrOmit artifact.uri) rfl
    (by simp [entries]) (readValues_textOrOmit _ _ _ _ _ rfl) ?_
  refine readFields_said binds "provenance" (some artifact.provenance.document) rfl
    (by simp [entries]) (readValues_some artifact.provenance.read_document) ?_
  rfl

end ArtifactRef

namespace ProtectedInput

/-- The members of the document. -/
def entries (value : ProtectedInput) : List (String × Option Json) :=
  [("name", some (.str value.name)),
   ("digest", some (.str value.digest))]

/-- What is written for a protected input. -/
def document (value : ProtectedInput) : Json :=
  .obj (Json.present value.entries)

/-- It reads back as it was written. -/
theorem read_document
    (value : ProtectedInput) :
  protectedInputDecoder.read default value.document = .ok value
  := by
  have binds : Json.Binds value.entries :=
    Json.binds_of_names
      ["name", "digest"]
      rfl (by decide +kernel)
  change readFields _ _ _ = _
  refine readFields_said binds "name" (some (.str value.name)) rfl
    (by simp [entries]) (readValues_some rfl) ?_
  refine readFields_said binds "digest" (some (.str value.digest)) rfl
    (by simp [entries]) (readValues_some rfl) ?_
  rfl

end ProtectedInput

namespace ExecutionObservations

/-- The members of the document. -/
def entries (o : ExecutionObservations) : List (String × Option Json) :=
  [("exact", some (.bool o.exact)),
   ("clean", some (.bool o.clean)),
   ("depthComplete", some (.bool o.depthComplete)),
   ("sourceUnmodified", some (.bool o.sourceUnmodified)),
   ("resourcesClosed", some (.bool o.resourcesClosed))]

/-- What is written for observations. -/
def document (o : ExecutionObservations) : Json :=
  .obj (Json.present o.entries)

/-- It reads back as it was written. -/
theorem read_document
    (o : ExecutionObservations) :
  observationsDecoder.read default o.document = .ok o
  := by
  have binds : Json.Binds o.entries :=
    Json.binds_of_names
      ["exact", "clean", "depthComplete", "sourceUnmodified", "resourcesClosed"]
      rfl (by decide +kernel)
  change readFields _ _ _ = _
  refine readFields_said binds "exact" (some (.bool o.exact)) rfl
    (by simp [entries]) (readValues_some rfl) ?_
  refine readFields_said binds "clean" (some (.bool o.clean)) rfl
    (by simp [entries]) (readValues_some rfl) ?_
  refine readFields_said binds "depthComplete" (some (.bool o.depthComplete)) rfl
    (by simp [entries]) (readValues_some rfl) ?_
  refine readFields_said binds "sourceUnmodified" (some (.bool o.sourceUnmodified)) rfl
    (by simp [entries]) (readValues_some rfl) ?_
  refine readFields_said binds "resourcesClosed" (some (.bool o.resourcesClosed)) rfl
    (by simp [entries]) (readValues_some rfl) ?_
  rfl

end ExecutionObservations

namespace PolicyBinding

/-- The members of the document. -/
def entries (policy : PolicyBinding) : List (String × Option Json) :=
  [("id", some (.str policy.id)),
   ("version", some (.str policy.version)),
   ("schemaHash", some (.str policy.schemaHash))]

/-- What is written for a policy. -/
def document (policy : PolicyBinding) : Json :=
  .obj (Json.present policy.entries)

/-- It reads back as it was written. -/
theorem read_document
    (policy : PolicyBinding) :
  policyBindingDecoder.read default policy.document = .ok policy
  := by
  have binds : Json.Binds policy.entries :=
    Json.binds_of_names
      ["id", "version", "schemaHash"]
      rfl (by decide +kernel)
  change readFields _ _ _ = _
  refine readFields_said binds "id" (some (.str policy.id)) rfl
    (by simp [entries]) (readValues_some rfl) ?_
  refine readFields_said binds "version" (some (.str policy.version)) rfl
    (by simp [entries]) (readValues_some rfl) ?_
  refine readFields_said binds "schemaHash" (some (.str policy.schemaHash)) rfl
    (by simp [entries]) (readValues_some rfl) ?_
  rfl

end PolicyBinding

namespace ExecutionCore

/-- The members of the document. -/
def entries (core : ExecutionCore) : List (String × Option Json) :=
  [("candidateDigest", some (.str core.candidateDigest)),
   ("prospectiveTreeDigest", some (.str core.prospectiveTreeDigest)),
   ("commandGraphDigest", some (.str core.commandGraphDigest)),
   ("nodeContractDigest", some (.str core.nodeContractDigest)),
   ("protectedInputs", some (.arr (core.protectedInputs.map ProtectedInput.document)))]

/-- What is written for a core. -/
def document (core : ExecutionCore) : Json :=
  .obj (Json.present core.entries)

/-- It reads back as it was written. -/
theorem read_document
    (core : ExecutionCore) :
  executionCoreDecoder.read default core.document = .ok core
  := by
  have binds : Json.Binds core.entries :=
    Json.binds_of_names
      ["candidateDigest", "prospectiveTreeDigest", "commandGraphDigest", "nodeContractDigest",
       "protectedInputs"]
      rfl (by decide +kernel)
  change readFields _ _ _ = _
  refine readFields_said binds "candidateDigest" (some (.str core.candidateDigest)) rfl
    (by simp [entries]) (readValues_some rfl) ?_
  refine readFields_said binds "prospectiveTreeDigest" (some (.str core.prospectiveTreeDigest)) rfl
    (by simp [entries]) (readValues_some rfl) ?_
  refine readFields_said binds "commandGraphDigest" (some (.str core.commandGraphDigest)) rfl
    (by simp [entries]) (readValues_some rfl) ?_
  refine readFields_said binds "nodeContractDigest" (some (.str core.nodeContractDigest)) rfl
    (by simp [entries]) (readValues_some rfl) ?_
  refine readFields_said binds "protectedInputs"
    (some (.arr (core.protectedInputs.map ProtectedInput.document))) rfl
    (by simp [entries]) (readValues_some (read_list ProtectedInput.read_document _ _)) ?_
  rfl

end ExecutionCore

namespace ExecutionPackage

/-- The members of the document. -/
def entries (pack : ExecutionPackage) : List (String × Option Json) :=
  [("apiVersion", some (.str pack.apiVersion)),
   ("kind", some (.str pack.kind)),
   ("id", some (.str pack.id)),
   ("projectId", some (.str pack.projectId)),
   ("graphRevision", some (.str pack.graphRevision)),
   ("nodeId", some (.str pack.nodeId)),
   ("attemptId", some (.str pack.attemptId)),
   ("nodeContractDigest", some (.str pack.nodeContractDigest)),
   ("candidate", some pack.candidate.document),
   ("prospectiveTree", some pack.prospectiveTree.document),
   ("commandGraphDigest", some (.str pack.commandGraphDigest)),
   ("protectedInputs", some (.arr (pack.protectedInputs.map ProtectedInput.document))),
   ("observations", some pack.observations.document),
   ("artifacts", some (Json.listOrNull (pack.artifacts.map (List.map ArtifactRef.document)))),
   ("coreDigest", some (.str pack.coreDigest)),
   ("createdAt", some (.str pack.createdAt.format)),
   ("sequence", Json.numberOrOmit pack.sequence)]

/-- What is written for a package. -/
def document (pack : ExecutionPackage) : Json :=
  .obj (Json.present pack.entries)

/-- It reads back as it was written, when its time does. -/
theorem read_document
    (pack : ExecutionPackage) (stamp : Stamp.ofText pack.createdAt.format = pack.createdAt) :
  executionPackageDecoder.read default pack.document = .ok pack
  := by
  have binds : Json.Binds pack.entries :=
    Json.binds_of_names
      ["apiVersion", "kind", "id", "projectId", "graphRevision", "nodeId", "attemptId",
       "nodeContractDigest", "candidate", "prospectiveTree", "commandGraphDigest",
       "protectedInputs", "observations", "artifacts", "coreDigest", "createdAt", "sequence"]
      rfl (by decide +kernel)
  have artifacts : ∀ old, (Decoder.list? default artifactRefDecoder).read old
      (Json.listOrNull (pack.artifacts.map (List.map ArtifactRef.document)))
        = .ok pack.artifacts := by
    intro old
    cases pack.artifacts with
    | none => rfl
    | some items => exact read_list? ArtifactRef.read_document old items
  change readFields _ _ _ = _
  refine readFields_said binds "apiVersion" (some (.str pack.apiVersion)) rfl
    (by simp [entries]) (readValues_some rfl) ?_
  refine readFields_said binds "kind" (some (.str pack.kind)) rfl
    (by simp [entries]) (readValues_some rfl) ?_
  refine readFields_said binds "id" (some (.str pack.id)) rfl
    (by simp [entries]) (readValues_some rfl) ?_
  refine readFields_said binds "projectId" (some (.str pack.projectId)) rfl
    (by simp [entries]) (readValues_some rfl) ?_
  refine readFields_said binds "graphRevision" (some (.str pack.graphRevision)) rfl
    (by simp [entries]) (readValues_some rfl) ?_
  refine readFields_said binds "nodeId" (some (.str pack.nodeId)) rfl
    (by simp [entries]) (readValues_some rfl) ?_
  refine readFields_said binds "attemptId" (some (.str pack.attemptId)) rfl
    (by simp [entries]) (readValues_some rfl) ?_
  refine readFields_said binds "nodeContractDigest" (some (.str pack.nodeContractDigest)) rfl
    (by simp [entries]) (readValues_some rfl) ?_
  refine readFields_said binds "candidate" (some pack.candidate.document) rfl
    (by simp [entries]) (readValues_some pack.candidate.read_document) ?_
  refine readFields_said binds "prospectiveTree" (some pack.prospectiveTree.document) rfl
    (by simp [entries]) (readValues_some pack.prospectiveTree.read_document) ?_
  refine readFields_said binds "commandGraphDigest" (some (.str pack.commandGraphDigest)) rfl
    (by simp [entries]) (readValues_some rfl) ?_
  refine readFields_said binds "protectedInputs"
    (some (.arr (pack.protectedInputs.map ProtectedInput.document))) rfl
    (by simp [entries]) (readValues_some (read_list ProtectedInput.read_document _ _)) ?_
  refine readFields_said binds "observations" (some pack.observations.document) rfl
    (by simp [entries]) (readValues_some pack.observations.read_document) ?_
  refine readFields_said binds "artifacts"
    (some (Json.listOrNull (pack.artifacts.map (List.map ArtifactRef.document)))) rfl
    (by simp [entries]) (readValues_some (artifacts _)) ?_
  refine readFields_said binds "coreDigest" (some (.str pack.coreDigest)) rfl
    (by simp [entries]) (readValues_some rfl) ?_
  refine readFields_said binds "createdAt" (some (.str pack.createdAt.format)) rfl
    (by simp [entries]) (readValues_some (congrArg Except.ok stamp)) ?_
  refine readFields_said binds "sequence" (Json.numberOrOmit pack.sequence) rfl
    (by simp [entries]) (readValues_numberOrOmit _ _ _ _ _ rfl) ?_
  cases pack
  rfl

end ExecutionPackage

namespace ReuseDecision

/-- The members of the document. -/
def entries (decision : ReuseDecision) : List (String × Option Json) :=
  [("apiVersion", some (.str decision.apiVersion)),
   ("kind", some (.str decision.kind)),
   ("id", some (.str decision.id)),
   ("packageId", some (.str decision.packageId)),
   ("assessedByAttemptId", some (.str decision.assessedByAttempt)),
   ("policy", some decision.policy.document),
   ("originalCoreDigest", some (.str decision.originalCoreDigest)),
   ("currentCore", some decision.currentCore.document),
   ("currentCoreDigest", some (.str decision.currentCoreDigest)),
   ("result", some (.str decision.result)),
   ("reasons", some (.arr (decision.reasons.map .str))),
   ("createdAt", some (.str decision.createdAt.format)),
   ("sequence", Json.numberOrOmit decision.sequence)]

/-- What is written for a decision. -/
def document (decision : ReuseDecision) : Json :=
  .obj (Json.present decision.entries)

/-- It reads back as it was written, when its time does. -/
theorem read_document
    (decision : ReuseDecision)
    (stamp : Stamp.ofText decision.createdAt.format = decision.createdAt) :
  reuseDecisionDecoder.read default decision.document = .ok decision
  := by
  have binds : Json.Binds decision.entries :=
    Json.binds_of_names
      ["apiVersion", "kind", "id", "packageId", "assessedByAttemptId", "policy",
       "originalCoreDigest", "currentCore", "currentCoreDigest", "result", "reasons", "createdAt",
       "sequence"]
      rfl (by decide +kernel)
  change readFields _ _ _ = _
  refine readFields_said binds "apiVersion" (some (.str decision.apiVersion)) rfl
    (by simp [entries]) (readValues_some rfl) ?_
  refine readFields_said binds "kind" (some (.str decision.kind)) rfl
    (by simp [entries]) (readValues_some rfl) ?_
  refine readFields_said binds "id" (some (.str decision.id)) rfl
    (by simp [entries]) (readValues_some rfl) ?_
  refine readFields_said binds "packageId" (some (.str decision.packageId)) rfl
    (by simp [entries]) (readValues_some rfl) ?_
  refine readFields_said binds "assessedByAttemptId" (some (.str decision.assessedByAttempt)) rfl
    (by simp [entries]) (readValues_some rfl) ?_
  refine readFields_said binds "policy" (some decision.policy.document) rfl
    (by simp [entries]) (readValues_some decision.policy.read_document) ?_
  refine readFields_said binds "originalCoreDigest" (some (.str decision.originalCoreDigest)) rfl
    (by simp [entries]) (readValues_some rfl) ?_
  refine readFields_said binds "currentCore" (some decision.currentCore.document) rfl
    (by simp [entries]) (readValues_some decision.currentCore.read_document) ?_
  refine readFields_said binds "currentCoreDigest" (some (.str decision.currentCoreDigest)) rfl
    (by simp [entries]) (readValues_some rfl) ?_
  refine readFields_said binds "result" (some (.str decision.result)) rfl
    (by simp [entries]) (readValues_some rfl) ?_
  refine readFields_said binds "reasons" (some (.arr (decision.reasons.map .str))) rfl
    (by simp [entries]) (readValues_some (read_list (fun _ => rfl) _ _)) ?_
  refine readFields_said binds "createdAt" (some (.str decision.createdAt.format)) rfl
    (by simp [entries]) (readValues_some (congrArg Except.ok stamp)) ?_
  refine readFields_said binds "sequence" (Json.numberOrOmit decision.sequence) rfl
    (by simp [entries]) (readValues_numberOrOmit _ _ _ _ _ rfl) ?_
  cases decision
  rfl

end ReuseDecision

end Dagrail
