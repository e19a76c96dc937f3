import Mathlib.Data.List.Sort
import Dagrail.Foundation.Outcome
import Dagrail.Service.Platform

/-!
# Decision records

Reviews and decisions record the choice of a role; gates record the choice of a policy provider.
A record is bound to its project, graph, node and attempt, names the closed key and source of the
node's decision contract, and carries its outcome as the fact under that key.
-/

namespace Dagrail

/-- What a completion request carries. -/
structure CompletionInput where
  outcome : String := ""
  outcomeRef : String := ""
  facts : PredicateFacts := {}
  evidenceRefs : List EvidenceRef := []
  classification : String := ""

/-- What a gate request carries. -/
structure GateInput where
  input : Option Json := none
  evidence : List Json := []
  evidenceRefs : List EvidenceRef := []

/-- What a policy provider answers. -/
structure PolicyDecision where
  outcome : String
  facts : List (String × String) := []

/-- Evidence references are few, complete and distinct. -/
def validateEvidenceRefs (values : List EvidenceRef) : Fallible Unit := do
  check (values.length ≤ 128) "evidence refs cannot exceed 128 entries"
  check (values.all (fun e => e.digest ≠ "" && e.type ≠ "" && decide (0 ≤ e.size))
      && decide (values.map EvidenceRef.digest).Nodup)
    "evidence refs require unique digest, type and non-negative size"

/-- Evidence references sorted by digest. -/
def normalizeDecisionEvidence (values : List EvidenceRef) : List EvidenceRef :=
  values.insertionSort fun a b => a.digest ≤ b.digest

/-- Does the node declare the outcome? -/
def declaresOutcome (node : NodeDefinition) (outcome : String) : Bool :=
  node.outcomes.any fun o => o.id = outcome

/-- The key and source of the node's decision contract, or the defaults. -/
def decisionContract (node : NodeDefinition) : String × DecisionSource :=
  match node.decision with
  | none => ("verdict", .llm)
  | some d => (d.key, d.source)

/-- The record of a role's choice. The outcome becomes the decision fact under the contract's
key; a fact that says otherwise is refused. -/
def buildRoleDecision (p : Platform) (s : State) (node : NodeDefinition) (attempt : Attempt)
    (actorRole : String) (value : CompletionInput) (input : Json) (now : Instant) :
    Fallible DecisionRecord := do
  let (key, source) := decisionContract node
  check (source ≠ .provider) "provider decisions must use gate.evaluate"
  let existing := value.facts.decision.get key
  check (existing = "" || existing = value.outcome)
    ("decision fact " ++ key ++ "=" ++ existing ++ " conflicts with outcome " ++ value.outcome)
  let facts := { value.facts with decision := value.facts.decision.insert key value.outcome }
  let record : DecisionRecord :=
    { id := ""
      projectId := s.projectId
      graphRevision := s.graphRevision
      nodeId := node.id
      attemptId := attempt.id
      roleId := actorRole
      key
      source
      outcome := value.outcome
      facts
      evidenceRefs := normalizeDecisionEvidence value.evidenceRefs
      inputDigest := p.hash.decisionInputDigest input
      createdAt := .utc now }
  .ok { record with id := p.hash.decisionRecordID record }

/-- The policy facts of a gate decision: the outcome under the contract's key, then whatever the
provider's own facts say, which may overwrite it. -/
def policyFacts (key outcome : String) (extras : List (String × String)) : Table String :=
  extras.foldl (fun facts (k, v) => facts.insert k v) ((∅ : Table String).insert key outcome)

/-- The record of a policy provider's choice. -/
def buildGateDecision (p : Platform) (s : State) (node : NodeDefinition) (attempt : Attempt)
    (actorRole : String) (value : GateInput) (raw : Json) (answer : PolicyDecision)
    (now : Instant) : Fallible DecisionRecord := do
  let contract ← need (node.decision.filter fun d => d.source = .provider)
    ("gate node " ++ node.id ++ " has no provider decision contract")
  check value.input.isSome "gate input is required"
  validateEvidenceRefs value.evidenceRefs
  let provider ← need (p.policies.lookup contract.providerId)
    ("policy provider " ++ contract.providerId ++ " is not registered")
  check (!blank answer.outcome) "policy outcome is required"
  check (declaresOutcome node answer.outcome)
    ("policy outcome " ++ answer.outcome ++ " is not declared by gate " ++ node.id)
  check (answer.facts.all fun (k, v) => k ≠ "" && v ≠ "")
    "policy facts require non-empty keys and values"
  let record : DecisionRecord :=
    { id := ""
      projectId := s.projectId
      graphRevision := s.graphRevision
      nodeId := node.id
      attemptId := attempt.id
      roleId := actorRole
      key := contract.key
      source := .provider
      outcome := answer.outcome
      facts := { policy := policyFacts contract.key answer.outcome answer.facts }
      evidenceRefs := normalizeDecisionEvidence value.evidenceRefs
      inputDigest := p.hash.decisionInputDigest raw
      provider := some
        { id := provider.id, version := provider.version, schemaHash := provider.schemaHash }
      createdAt := .utc now }
  .ok { record with id := p.hash.decisionRecordID record }

/-- Is the record one that replay takes over? -/
def validateDecisionRecord (p : Platform) (record : DecisionRecord) (s : State) :
    Fallible Unit := do
  check (record.projectId = s.projectId && record.graphRevision = s.graphRevision
      && record.id ≠ "" && record.nodeId ≠ "" && record.attemptId ≠ "" && record.roleId ≠ ""
      && record.key ≠ "" && record.source ≠ .other "" && record.outcome ≠ "")
    "decision record authority binding is incomplete"
  let node ← need (s.nodeDefinition record.nodeId)
    "decision record references an invalid node, attempt or outcome"
  let attempt ← need (s.attempts.lookup record.attemptId)
    "decision record references an invalid node, attempt or outcome"
  check (attempt.nodeId = node.id && attempt.roleId = record.roleId && node.role = record.roleId
      && [NodeKind.review, .decision, .gate].contains node.kind
      && declaresOutcome node record.outcome)
    "decision record references an invalid node, attempt or outcome"
  check ((record.key, record.source) = decisionContract node
      && [DecisionSource.human, .llm, .provider].contains record.source)
    "decision record does not match the node decision contract"
  if record.source = .provider then
    check (record.facts.policy.get record.key = record.outcome)
      "provider decision fact does not match its outcome"
  else
    check (record.facts.decision.get record.key = record.outcome)
      "decision fact does not match its outcome"
  validateEvidenceRefs record.evidenceRefs
  check (record.inputDigest.toList.take 7 = digestPrefix.toList
      && record.inputDigest.utf8ByteSize = 71) "decision input digest is invalid"
  if record.source = .provider then do
    let binding ← need record.provider "provider decision binding is incomplete"
    let contract ← need node.decision "provider decision binding is incomplete"
    check (binding.id ≠ "" && binding.version ≠ "" && binding.schemaHash ≠ ""
        && binding.id = contract.providerId) "provider decision binding is incomplete"
  else
    check record.provider.isNone "non-provider decision cannot carry a provider binding"
  check record.createdAt.parse.isSome "decision createdAt is invalid"
  check (record.id = p.hash.decisionRecordID record) "decision record ID is invalid"

end Dagrail
