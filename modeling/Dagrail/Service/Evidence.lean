import Mathlib.Data.List.Sort
import Dagrail.Foundation.Outcome
import Dagrail.Service.Platform

/-!
# Execution evidence

An execution package records what one attempt ran on; a reuse decision records whether that
execution may stand for another. Both are built from a request, and both are checked again by the
same validators when the journal is replayed.
-/

namespace Dagrail

def executionPackageAPIVersion : String := "dagrail.io/v1alpha1"

def executionPackageKind : String := "ExecutionPackage"

def reuseDecisionKind : String := "ReuseDecision"

/-- The URI schemes an artifact may use. -/
def allowedSchemes : List String :=
  ["file", "http", "https", "s3", "gs", "az", "git", "oci"]

/-- A digest field. -/
def validateDigest (value : String) : Fallible Unit :=
  check (validDigest value) "digest must be lowercase sha256:<64 hex>"

/-- The URI of an artifact: absolute, with an allowed scheme, without userinfo, query or
fragment. -/
def validateArtifactURI (p : Platform) (uri : String) : Fallible Unit := do
  check (uri.length ≤ 2048) "artifact URI cannot exceed 2048 characters"
  let parsed ← need (p.parseURL uri)
    "artifact URI must be absolute and cannot contain userinfo, query or fragment"
  check (parsed.scheme ≠ "" && !parsed.hasUser
      && !(uri.toList.contains '?') && !(uri.toList.contains '#'))
    "artifact URI must be absolute and cannot contain userinfo, query or fragment"
  check (allowedSchemes.contains parsed.scheme.toLower)
    ("artifact URI scheme " ++ parsed.scheme ++ " is not allowed")

/-- An artifact reference. -/
def validateArtifact (p : Platform) (value : ArtifactRef) : Fallible Unit := do
  validateDigest value.digest
  check (!blank value.type && value.type.utf8ByteSize ≤ 128 && decide (0 ≤ value.size)
      && !blank value.provenance.producer && value.provenance.producer.utf8ByteSize ≤ 256
      && value.provenance.revision.utf8ByteSize ≤ 256)
    "artifact requires type, non-negative size and provenance producer"
  if value.provenance.invocationDigest = "" then .ok ()
  else validateDigest value.provenance.invocationDigest
  if value.uri = "" then .ok () else validateArtifactURI p value.uri

/-- Protected inputs sorted by name, each name once. -/
def normalizeProtectedInputs (values : List ProtectedInput) : Fallible (List ProtectedInput) := do
  check (values ≠ []) "at least one protected input is required"
  check (values.length ≤ 128) "protected inputs cannot exceed 128 entries"
  let result := values.insertionSort fun a b => a.name ≤ b.name
  result.forM fun value => do
    check (!blank value.name && value.name.utf8ByteSize ≤ 128)
      "protected input name must be 1..128 bytes"
    validateDigest value.digest
  check (decide (result.map ProtectedInput.name).Nodup)
    "protected input is duplicated"
  .ok result

/-- The text artifacts are sorted by. -/
def ArtifactRef.sortKey (a : ArtifactRef) : String :=
  a.digest ++ "\x00" ++ a.type ++ "\x00" ++ a.uri

/-- Artifacts sorted by digest, type and URI, each combination once. -/
def normalizeArtifacts (p : Platform) (values : List ArtifactRef) :
    Fallible (List ArtifactRef) := do
  check (values.length ≤ 256) "artifacts cannot exceed 256 entries"
  let result := values.insertionSort fun a b => a.sortKey ≤ b.sortKey
  result.forM (validateArtifact p)
  check (decide (result.map fun a => (a.digest, a.type, a.uri)).Nodup) "artifact is duplicated"
  .ok result

/-! ### Validation -/

/-- The core of a package. -/
def ExecutionPackage.core (pack : ExecutionPackage) : ExecutionCore :=
  { candidateDigest := pack.candidate.digest
    prospectiveTreeDigest := pack.prospectiveTree.digest
    commandGraphDigest := pack.commandGraphDigest
    nodeContractDigest := pack.nodeContractDigest
    protectedInputs := pack.protectedInputs }

/-- Is the package one that the builder could have made for the node? -/
def validateExecutionPackageRecord (p : Platform) (pack : ExecutionPackage)
    (node : NodeDefinition) : Fallible Unit := do
  check (pack.apiVersion = executionPackageAPIVersion && pack.kind = executionPackageKind)
    "execution package has unsupported apiVersion or kind"
  validateArtifact p pack.candidate
  validateArtifact p pack.prospectiveTree
  validateDigest pack.commandGraphDigest
  let protectedInputs ← normalizeProtectedInputs pack.protectedInputs
  check (protectedInputs = pack.protectedInputs)
    "execution package protected inputs are not canonical"
  let artifacts ← normalizeArtifacts p (pack.artifacts.getD [])
  check (some artifacts = pack.artifacts) "execution package artifacts are not canonical"
  check (p.hash.nodeContractDigest node = pack.nodeContractDigest)
    "execution package node contract digest is invalid"
  check (p.hash.coreDigest pack.core = pack.coreDigest)
    "execution package core digest is invalid"
  check pack.createdAt.parse.isSome "execution package createdAt is invalid"
  check (pack.id = p.hash.executionPackageID pack) "execution package ID is invalid"

/-- Whether the current core allows the execution of the package to be reused, and why. -/
def reuseResult (pack : ExecutionPackage) (current : ExecutionCore) : String × List String :=
  let reasons :=
    (if current.candidateDigest ≠ pack.candidate.digest then ["candidate_changed"] else [])
    ++ (if current.prospectiveTreeDigest ≠ pack.prospectiveTree.digest then
      ["prospective_tree_changed"] else [])
    ++ (if current.commandGraphDigest ≠ pack.commandGraphDigest then
      ["command_graph_changed"] else [])
    ++ (if current.protectedInputs ≠ pack.protectedInputs then
      ["protected_inputs_changed"] else [])
    ++ (if current.nodeContractDigest ≠ pack.nodeContractDigest then
      ["node_contract_changed"] else [])
  if reasons = [] then ("reuse_execution", ["protected_core_unchanged"])
  else ("rerun_required", reasons)

/-- Is the decision one that the builder could have made for the package and its node? -/
def validateReuseDecisionRecord (p : Platform) (decision : ReuseDecision)
    (pack : ExecutionPackage) (node : NodeDefinition) : Fallible Unit := do
  check (decision.apiVersion = executionPackageAPIVersion && decision.kind = reuseDecisionKind)
    "reuse decision has unsupported apiVersion or kind"
  check (!blank decision.policy.id && !blank decision.policy.version)
    "reuse decision policy binding requires id and version"
  check (decision.policy.id.utf8ByteSize ≤ 128 && decision.policy.version.utf8ByteSize ≤ 128)
    "reuse decision policy id and version cannot exceed 128 bytes"
  validateDigest decision.policy.schemaHash
  validateDigest decision.currentCore.candidateDigest
  validateDigest decision.currentCore.prospectiveTreeDigest
  validateDigest decision.currentCore.commandGraphDigest
  validateDigest decision.currentCore.nodeContractDigest
  let protectedInputs ← normalizeProtectedInputs decision.currentCore.protectedInputs
  check (protectedInputs = decision.currentCore.protectedInputs)
    "reuse decision protected inputs are not canonical"
  check (p.hash.nodeContractDigest node = decision.currentCore.nodeContractDigest)
    "reuse decision node contract digest is invalid"
  check (p.hash.coreDigest decision.currentCore = decision.currentCoreDigest
      && pack.coreDigest = decision.originalCoreDigest)
    "reuse decision core digest is invalid"
  check (reuseResult pack decision.currentCore = (decision.result, decision.reasons))
    "reuse decision result or reasons are invalid"
  check decision.createdAt.parse.isSome "reuse decision createdAt is invalid"
  check (decision.id = p.hash.reuseDecisionID decision) "reuse decision ID is invalid"

/-! ### Building -/

/-- The observations of a publish request, each of which must be given. -/
structure ExecutionObservationsInput where
  exact : Option Bool := none
  clean : Option Bool := none
  depthComplete : Option Bool := none
  sourceUnmodified : Option Bool := none
  resourcesClosed : Option Bool := none

/-- A request to publish an execution package. -/
structure PublishExecutionPackageInput where
  candidate : ArtifactRef
  prospectiveTree : ArtifactRef
  commandGraphDigest : String
  protectedInputs : List ProtectedInput
  observations : ExecutionObservationsInput
  artifacts : List ArtifactRef

/-- A request to assess the reuse of a package. -/
structure ReuseAssessmentInput where
  packageId : String
  policy : PolicyBinding
  candidateDigest : String
  prospectiveTreeDigest : String
  commandGraphDigest : String
  protectedInputs : List ProtectedInput

/-- The five observations of a request, when all are given. -/
def ExecutionObservationsInput.complete (o : ExecutionObservationsInput) :
    Option ExecutionObservations :=
  match o.exact, o.clean, o.depthComplete, o.sourceUnmodified, o.resourcesClosed with
  | some exact, some clean, some depthComplete, some sourceUnmodified, some resourcesClosed =>
      some { exact, clean, depthComplete, sourceUnmodified, resourcesClosed }
  | _, _, _, _, _ => none

/-- The package of a publish request. The builder applies the replay validator to its result. -/
def buildExecutionPackage (p : Platform) (s : State) (node : NodeDefinition) (attempt : Attempt)
    (value : PublishExecutionPackageInput) (now : Instant) : Fallible ExecutionPackage := do
  validateArtifact p value.candidate
  validateArtifact p value.prospectiveTree
  validateDigest value.commandGraphDigest
  let protectedInputs ← normalizeProtectedInputs value.protectedInputs
  let artifacts ← normalizeArtifacts p value.artifacts
  let observations ← need value.observations.complete
    ("execution observations require exact, clean, depthComplete, sourceUnmodified and "
      ++ "resourcesClosed")
  let nodeDigest := p.hash.nodeContractDigest node
  let core : ExecutionCore :=
    { candidateDigest := value.candidate.digest
      prospectiveTreeDigest := value.prospectiveTree.digest
      commandGraphDigest := value.commandGraphDigest
      nodeContractDigest := nodeDigest
      protectedInputs }
  let result : ExecutionPackage :=
    { apiVersion := executionPackageAPIVersion
      kind := executionPackageKind
      id := ""
      projectId := s.projectId
      graphRevision := s.graphRevision
      nodeId := node.id
      attemptId := attempt.id
      nodeContractDigest := nodeDigest
      candidate := value.candidate
      prospectiveTree := value.prospectiveTree
      commandGraphDigest := value.commandGraphDigest
      protectedInputs
      observations
      artifacts := some artifacts
      coreDigest := p.hash.coreDigest core
      createdAt := .utc now }
  let result := { result with id := p.hash.executionPackageID result }
  validateExecutionPackageRecord p result node
  .ok result

/-- The decision of an assessment request. The builder applies the replay validator to its
result. -/
def buildReuseDecision (p : Platform) (s : State) (assessor : Attempt)
    (value : ReuseAssessmentInput) (now : Instant) : Fallible ReuseDecision := do
  let pack ← need (s.evidencePackages.lookup value.packageId)
    ("unknown execution package " ++ value.packageId)
  check (!blank value.policy.id && !blank value.policy.version)
    "policy binding requires id and version"
  check (value.policy.id.utf8ByteSize ≤ 128 && value.policy.version.utf8ByteSize ≤ 128)
    "policy id and version cannot exceed 128 bytes"
  validateDigest value.policy.schemaHash
  validateDigest value.candidateDigest
  validateDigest value.prospectiveTreeDigest
  validateDigest value.commandGraphDigest
  let protectedInputs ← normalizeProtectedInputs value.protectedInputs
  let node ← need (s.nodeDefinition pack.nodeId)
    ("execution package node " ++ pack.nodeId ++ " is no longer declared")
  let currentCore : ExecutionCore :=
    { candidateDigest := value.candidateDigest
      prospectiveTreeDigest := value.prospectiveTreeDigest
      commandGraphDigest := value.commandGraphDigest
      nodeContractDigest := p.hash.nodeContractDigest node
      protectedInputs }
  let (result, reasons) := reuseResult pack currentCore
  let decision : ReuseDecision :=
    { apiVersion := executionPackageAPIVersion
      kind := reuseDecisionKind
      id := ""
      packageId := pack.id
      assessedByAttempt := assessor.id
      policy := value.policy
      originalCoreDigest := pack.coreDigest
      currentCore
      currentCoreDigest := p.hash.coreDigest currentCore
      result
      reasons
      createdAt := .utc now }
  let decision := { decision with id := p.hash.reuseDecisionID decision }
  validateReuseDecisionRecord p decision pack node
  .ok decision

/-- A built package is bound to the project, graph, node and attempt it was built for, and
passes the replay validator. -/
theorem buildExecutionPackage_spec
    {p : Platform} {s : State} {node : NodeDefinition} {attempt : Attempt}
    {value : PublishExecutionPackageInput} {now : Instant} {pack : ExecutionPackage}
    (built : buildExecutionPackage p s node attempt value now = .ok pack) :
  pack.projectId = s.projectId ∧ pack.graphRevision = s.graphRevision ∧
    pack.nodeId = node.id ∧ pack.attemptId = attempt.id ∧
    validateExecutionPackageRecord p pack node = .ok ()
  := by
  unfold buildExecutionPackage at built
  simp only [bind_eq_ok] at built
  obtain ⟨_, _, _, _, _, _, inputs, _, artifacts, _, observations, _, _, valid, rest⟩ := built
  obtain rfl := Except.ok.inj rest
  exact ⟨rfl, rfl, rfl, rfl, valid⟩

/-- A built reuse decision speaks about a stored package whose node is declared, names its
assessor, and passes the replay validator. -/
theorem buildReuseDecision_spec
    {p : Platform} {s : State} {assessor : Attempt} {value : ReuseAssessmentInput}
    {now : Instant} {decision : ReuseDecision}
    (built : buildReuseDecision p s assessor value now = .ok decision) :
  decision.assessedByAttempt = assessor.id ∧ ∃ pack node,
    s.evidencePackages.lookup value.packageId = some pack ∧ decision.packageId = pack.id ∧
    s.nodeDefinition pack.nodeId = some node ∧
    validateReuseDecisionRecord p decision pack node = .ok ()
  := by
  unfold buildReuseDecision at built
  simp only [bind_eq_ok, need_eq_ok] at built
  obtain ⟨pack, stored, _, _, _, _, _, _, _, _, _, _, _, _, inputs, _, node, declared, _, valid,
    rest⟩ := built
  obtain rfl := Except.ok.inj rest
  exact ⟨rfl, pack, node, stored, rfl, declared, valid⟩

end Dagrail
