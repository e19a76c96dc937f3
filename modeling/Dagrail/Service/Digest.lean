import Dagrail.Foundation.Text
import Dagrail.Service.Event

/-!
# Digests

Every digest of the program is the SHA-256 hash of the canonical JSON text of a record under a
separator that names its purpose. The hash is a parameter of the development: a function from the
record and its purpose to a hash text. Nothing is assumed about collisions.
-/

namespace Dagrail

/-- The part of a node that execution evidence is bound to. -/
structure NodeContract where
  id : String
  kind : NodeKind
  objective : String
  inputs : Option Json
  outcomes : List Outcome
  resources : List ResourceRequest
deriving DecidableEq

/-- A record under the separator it is hashed with. -/
inductive Preimage where
  | graph (g : GraphDefinition)
  | establishment (e : AuthorityEstablishment)
  | retirement (r : AuthorityRetirement)
  | nodeContract (c : NodeContract)
  | executionCore (c : ExecutionCore)
  | executionPackage (p : ExecutionPackage)
  | reuseDecision (d : ReuseDecision)
  | decisionRecord (r : DecisionRecord)
  | decisionInput (j : Json)
  | request (separator : String) (j : Json)
  | joined (text : String)
  | providers (refs : List ProviderRef)
  | segment (s : Segment)

/-- The hash function: the hash of the canonical text of a record under its separator. -/
abbrev HashFunction := Preimage → Hex

namespace HashFunction

variable (hash : HashFunction)

/-- The revision of a graph. -/
def graphRevision (g : GraphDefinition) : String :=
  (hash (.graph g)).text

/-- The digest of the part of a node that evidence is bound to. -/
def nodeContractDigest (node : NodeDefinition) : String :=
  (hash (.nodeContract
    { id := node.id, kind := node.kind, objective := node.objective, inputs := node.inputs
      outcomes := node.outcomes, resources := node.resources })).digest

/-- The digest of a protected core. -/
def coreDigest (core : ExecutionCore) : String :=
  (hash (.executionCore core)).digest

/-- The id of an execution package: a hash of the package without id, time and sequence. -/
def executionPackageID (pack : ExecutionPackage) : String :=
  "epkg_" ++ (hash (.executionPackage
    { pack with id := "", createdAt := .unset, sequence := 0 })).text

/-- The id of a reuse decision: a hash of the decision without id, time and sequence. -/
def reuseDecisionID (decision : ReuseDecision) : String :=
  "reuse_" ++ (hash (.reuseDecision
    { decision with id := "", createdAt := .unset, sequence := 0 })).text

/-- The id of a decision record: a hash of the record without id and sequence. -/
def decisionRecordID (record : DecisionRecord) : String :=
  "decision_" ++ (hash (.decisionRecord { record with id := "", sequence := 0 })).text

/-- The digest of the input of a decision. -/
def decisionInputDigest (input : Json) : String :=
  (hash (.decisionInput input.canon)).digest

/-- The hash of several texts, joined by zero characters. -/
def joined (parts : List String) : String :=
  (hash (.joined ("\x00".intercalate parts))).text

/-- The fingerprint of the providers a graph binds. -/
def providerFingerprint (g : Option GraphDefinition) : String :=
  (hash (.providers (match g with | some g => g.spec.providers | none => []))).text

/-- The digest of a request. -/
def requestDigest (separator : String) (request : Json) : String :=
  (hash (.request separator request.canon)).digest

/-- The hash of a segment: of everything in it but the hash itself. -/
def segmentHash (s : Segment) : String :=
  (hash (.segment { s with segmentHash := "" })).text

end HashFunction

end Dagrail
