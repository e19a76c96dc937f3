import Dagrail.Service.EvidenceDocuments
import Dagrail.Service.EvidenceOrder
import Dagrail.Service.Writes

/-!
# The reuse of an execution

Whether an execution may stand for another is decided on the protected cores of the two
(`internal/service/evidence.go`). What is built for a request does not depend on the order of the
request, and the reducer accepts it after it was written and read back.
-/

namespace Dagrail

/-! ### What a valid record says -/

/-- The hash tells two cores apart. -/
def HashFunction.Separates (hash : HashFunction) (core core' : ExecutionCore) : Prop :=
  hash (.executionCore core) = hash (.executionCore core') → core = core'

/-- Cores that the hash tells apart have the same digest only when they are the same. -/
theorem HashFunction.Separates.coreDigest_eq_iff
    {hash : HashFunction} {core core' : ExecutionCore} (separates : hash.Separates core core') :
  hash.coreDigest core = hash.coreDigest core' ↔ core = core'
  := by
  constructor
  · intro same
    exact separates (Hex.digest_injective same)
  · rintro rfl
    rfl

/-- An execution is reused exactly when its core is the current one. -/
theorem reuseResult_iff
    (pack : ExecutionPackage) (current : ExecutionCore) :
  (reuseResult pack current).1 = "reuse_execution" ↔ pack.core = current
  := by
  unfold reuseResult
  extract_lets reasons
  by_cases unchanged : reasons = []
  · rw [if_pos unchanged]
    simp only [reasons, List.append_eq_nil_iff, ite_eq_right_iff, List.cons_ne_nil, imp_false,
      ne_eq, not_not] at unchanged
    obtain ⟨⟨⟨⟨candidate, tree⟩, commands⟩, inputs⟩, contract⟩ := unchanged
    have same : pack.core = current := by
      cases current
      simp_all only [ExecutionPackage.core]
    exact ⟨fun _ => same, fun _ => rfl⟩
  · rw [if_neg unchanged]
    have rerun : "rerun_required" ≠ "reuse_execution" := by decide
    refine ⟨fun other => absurd other rerun, ?_⟩
    rintro rfl
    exact absurd (by simp [reasons, ExecutionPackage.core]) unchanged

/-- A valid package has the digest of its core, and a time. -/
theorem validateExecutionPackageRecord_ok
    {p : Platform} {pack : ExecutionPackage} {node : NodeDefinition}
    (valid : validateExecutionPackageRecord p pack node = .ok ()) :
  p.hash.coreDigest pack.core = pack.coreDigest ∧ pack.createdAt.parse.isSome = true
  := by
  unfold validateExecutionPackageRecord at valid
  simp only [bind_eq_ok, check_eq_ok, decide_eq_true_eq] at valid
  obtain ⟨_, -, _, -, _, -, _, -, inputs, -, _, -, artifacts, -, _, -, _, -, _, core, _, time, -⟩ :=
    valid
  exact ⟨core, time⟩

/-- A valid decision has the digest of the current core and the digest of the package, and its
result is the one for these. -/
theorem validateReuseDecisionRecord_ok
    {p : Platform} {decision : ReuseDecision} {pack : ExecutionPackage} {node : NodeDefinition}
    (valid : validateReuseDecisionRecord p decision pack node = .ok ()) :
  p.hash.coreDigest decision.currentCore = decision.currentCoreDigest ∧
    pack.coreDigest = decision.originalCoreDigest ∧
    (reuseResult pack decision.currentCore).1 = decision.result ∧
    decision.createdAt.parse.isSome = true
  := by
  unfold validateReuseDecisionRecord at valid
  simp only [bind_eq_ok, check_eq_ok, decide_eq_true_eq, Bool.and_eq_true] at valid
  obtain ⟨_, -, _, -, _, -, _, -, _, -, _, -, _, -, _, -, inputs, -, _, -, _, -, _, digests, _,
    result, _, time, -⟩ := valid
  exact ⟨digests.1, digests.2, congrArg Prod.fst result, time⟩

/-! ### Built records -/

/-- A package is built with the time of the call. -/
theorem buildExecutionPackage_ok
    {p : Platform} {s : State} {node : NodeDefinition} {attempt : Attempt}
    {value : PublishExecutionPackageInput} {now : Instant} {pack : ExecutionPackage}
    (built : buildExecutionPackage p s node attempt value now = .ok pack) :
  pack.createdAt = .utc now ∧ validateExecutionPackageRecord p pack node = .ok () ∧
    ∃ inputs artifacts, normalizeProtectedInputs value.protectedInputs = .ok inputs ∧
      normalizeArtifacts p value.artifacts = .ok artifacts
  := by
  unfold buildExecutionPackage at built
  simp only [bind_eq_ok] at built
  obtain ⟨_, _, _, _, _, _, inputs, normal, artifacts, listed, observations, _, _, valid, rest⟩ :=
    built
  obtain rfl := Except.ok.inj rest
  exact ⟨rfl, valid, inputs, artifacts, normal, listed⟩

/-- A decision is built for a stored package with the time of the call. -/
theorem buildReuseDecision_ok
    {p : Platform} {s : State} {assessor : Attempt} {value : ReuseAssessmentInput}
    {now : Instant} {decision : ReuseDecision}
    (built : buildReuseDecision p s assessor value now = .ok decision) :
  decision.createdAt = .utc now ∧
    (∃ inputs, normalizeProtectedInputs value.protectedInputs = .ok inputs) ∧
    ∃ pack node, s.evidencePackages.lookup value.packageId = some pack ∧
      decision.packageId = pack.id ∧ s.nodeDefinition pack.nodeId = some node ∧
      validateReuseDecisionRecord p decision pack node = .ok ()
  := by
  unfold buildReuseDecision at built
  simp only [bind_eq_ok, need_eq_ok] at built
  obtain ⟨pack, stored, _, _, _, _, _, _, _, _, _, _, _, _, inputs, normal, node, declared, _,
    valid, rest⟩ := built
  obtain rfl := Except.ok.inj rest
  exact ⟨rfl, ⟨inputs, normal⟩, pack, node, stored, rfl, declared, valid⟩

/-- The time of a valid record reads back from its text. -/
theorem Stamp.ofText_format_of_parse
    {stamp : Stamp} {now : Instant} (written : stamp = .utc now)
    (valid : stamp.parse.isSome = true) :
  Stamp.ofText stamp.format = stamp
  := by
  subst written
  have years : Time.representable now = true := by
    by_contra early
    simp [Stamp.parse, Stamp.parseZoned, early] at valid
  exact Stamp.ofText_format years

/-! ### The order of a request -/

/-- The request with its inputs and artifacts in another order. -/
structure PublishExecutionPackageInput.Reorders (value' value : PublishExecutionPackageInput) :
    Prop where
  inputs : value'.protectedInputs.Perm value.protectedInputs
  artifacts : value'.artifacts.Perm value.artifacts
  others : value' = { value with
    protectedInputs := value'.protectedInputs, artifacts := value'.artifacts }

/-- The request with its inputs in another order. -/
structure ReuseAssessmentInput.Reorders (value' value : ReuseAssessmentInput) : Prop where
  inputs : value'.protectedInputs.Perm value.protectedInputs
  others : value' = { value with protectedInputs := value'.protectedInputs }

/-- The same package is built for a request in another order. -/
theorem buildExecutionPackage_of_reorders
    {p : Platform} (printable : p.URLsPrintable) {s : State} {node : NodeDefinition}
    {attempt : Attempt} {value value' : PublishExecutionPackageInput} {now : Instant}
    {pack : ExecutionPackage} (order : value'.Reorders value)
    (built : buildExecutionPackage p s node attempt value now = .ok pack) :
  buildExecutionPackage p s node attempt value' now = .ok pack
  := by
  obtain ⟨-, -, inputs, artifacts, normal, listed⟩ := buildExecutionPackage_ok built
  have normal' := normalizeProtectedInputs_of_perm order.inputs normal
  have listed' := normalizeArtifacts_of_perm printable order.artifacts listed
  rw [order.others]
  unfold buildExecutionPackage at built ⊢
  rw [normal, listed] at built
  simp only [normal', listed']
  exact built

/-- The same decision is built for a request in another order. -/
theorem buildReuseDecision_of_reorders
    {p : Platform} {s : State} {assessor : Attempt} {value value' : ReuseAssessmentInput}
    {now : Instant} {decision : ReuseDecision} (order : value'.Reorders value)
    (built : buildReuseDecision p s assessor value now = .ok decision) :
  buildReuseDecision p s assessor value' now = .ok decision
  := by
  obtain ⟨-, ⟨inputs, normal⟩, -⟩ := buildReuseDecision_ok built
  have normal' := normalizeProtectedInputs_of_perm order.inputs normal
  rw [order.others]
  unfold buildReuseDecision at built ⊢
  rw [normal] at built
  simp only [normal']
  exact built

/-! ### Stored packages -/

/-- Every stored package is under its own id and valid for some node. -/
def State.PackagesValid (p : Platform) (s : State) : Prop :=
  ∀ id pack, s.evidencePackages.lookup id = some pack →
    pack.id = id ∧ ∃ node, validateExecutionPackageRecord p pack node = .ok ()

/-- An event stores a valid package or none. -/
theorem State.applyEvent_evidencePackages
    {p : Platform} {s s' : State} {n : Nat} {at_ : Stamp} {event : Event}
    (h : s.applyEvent p n at_ event = .ok s') :
  s'.evidencePackages = s.evidencePackages ∨
    ∃ pack node, validateExecutionPackageRecord p pack node = .ok () ∧
      s'.evidencePackages = s.evidencePackages.insert pack.id { pack with sequence := n }
  := by
  cases event with
  | graphRevised graph revision previous superseded impact =>
      obtain rfl := Except.ok.inj h
      rw [reviseGraph_eq]
      exact .inl rfl
  | nodeAutoCompleted | nodeAutoSkipped =>
      obtain ⟨-, rfl⟩ := settleNode_ok h
      exact .inl rfl
  | lifecycleHistoryImported =>
      obtain ⟨-, rfl⟩ := importHistory_ok h
      exact .inl rfl
  | evidencePackagePublished pack =>
      obtain ⟨⟨_, node, -, -, -, -, -, valid⟩, -, rfl⟩ := publishPackage_ok h
      exact .inr ⟨pack, node, valid, rfl⟩
  | evidenceReuseAssessed =>
      obtain ⟨-, rfl⟩ := assessReuse_ok h
      exact .inl rfl
  | decisionRecorded =>
      obtain ⟨-, -, rfl⟩ := recordDecision_ok h
      exact .inl rfl
  | resourceClosureObserved =>
      obtain ⟨_, -, -, rfl⟩ := observeClosure_ok h
      exact .inl rfl
  | resourceReleased =>
      obtain ⟨_, -, -, rfl⟩ := releaseResource_ok h
      exact .inl rfl
  | effectDispatched =>
      obtain ⟨_, -, rfl⟩ := dispatchEffect_ok h
      exact .inl rfl
  | effectReconciling =>
      obtain ⟨_, -, rfl⟩ := reconcileEffect_ok h
      rw [setActionStatus_eq]
      exact .inl rfl
  | effectObserved =>
      obtain rfl := Except.ok.inj h
      rw [observeEffect, setActionStatus_eq]
      exact .inl rfl
  | incidentUpdated =>
      obtain ⟨-, rfl⟩ := updateIncident_ok h
      exact .inl rfl
  | incidentResolved =>
      obtain ⟨_, -, rfl⟩ := resolveIncident_ok h
      exact .inl rfl
  | unsupported => simp [applyEvent] at h
  | _ =>
      obtain rfl := Except.ok.inj h
      exact .inl rfl

/-- In every state that a journal leads to, the stored packages are valid. -/
theorem packagesValid_of_reduceSegments
    {p : Platform} {projectId : String} {journal : List Segment} {s : State}
    (loaded : reduceSegments p projectId journal = .ok s) :
  s.PackagesValid p
  := by
  refine reduceSegments_invariant (Q := fun _ => True) (fun _ _ _ _ => trivial) ?_
    (fun _ _ valid => valid) ?_ loaded
  · intro n at_ s event s' _ valid applied id pack known
    rcases State.applyEvent_evidencePackages applied with same | ⟨new, node, passes, same⟩
    · rw [same] at known
      exact valid id pack known
    · rw [same] at known
      by_cases own : id = new.id
      · rw [own, Table.lookup_insert, if_pos rfl] at known
        obtain rfl := Option.some.inj known
        exact ⟨own.symm, node, passes⟩
      · rw [Table.lookup_insert, if_neg own] at known
        exact valid id pack known
  · intro id pack known
    simp [State.new] at known

/-! ### The decision and the records -/

/-- Between valid packages, the execution of one is reused for the core of the other exactly when
their core digests are equal. -/
theorem reuseResult_iff_coreDigest
    {p : Platform} {pack pack' : ExecutionPackage} {node node' : NodeDefinition}
    (valid : validateExecutionPackageRecord p pack node = .ok ())
    (valid' : validateExecutionPackageRecord p pack' node' = .ok ())
    (separates : p.hash.Separates pack.core pack'.core) :
  (reuseResult pack pack'.core).1 = "reuse_execution" ↔ pack.coreDigest = pack'.coreDigest
  := by
  rw [reuseResult_iff, ← separates.coreDigest_eq_iff, (validateExecutionPackageRecord_ok valid).1,
    (validateExecutionPackageRecord_ok valid').1]

/-- A valid decision about a valid package is to reuse the execution exactly when the two core
digests it names are equal. -/
theorem result_iff_coreDigest
    {p : Platform} {pack : ExecutionPackage} {decision : ReuseDecision}
    {node node' : NodeDefinition}
    (valid : validateExecutionPackageRecord p pack node = .ok ())
    (valid' : validateReuseDecisionRecord p decision pack node' = .ok ())
    (separates : p.hash.Separates pack.core decision.currentCore) :
  decision.result = "reuse_execution" ↔
    decision.originalCoreDigest = decision.currentCoreDigest
  := by
  obtain ⟨current, original, result, -⟩ := validateReuseDecisionRecord_ok valid'
  rw [← result, reuseResult_iff, ← separates.coreDigest_eq_iff, current, ← original,
    (validateExecutionPackageRecord_ok valid).1]

/-- Packages and decisions are sound evidence. In every state that a journal leads to, a decision
is to reuse the execution exactly when the core digests are equal; a request in another order gives
the same record; and every record that is built reads back from its document and passes the
validator that replays it. -/
theorem reuse_of_evidence_sound
    {p : Platform} {projectId : String} {journal : List Segment} {s : State}
    (printable : p.URLsPrintable) (loaded : reduceSegments p projectId journal = .ok s) :
  (∀ pack pack' node node', validateExecutionPackageRecord p pack node = .ok () →
    validateExecutionPackageRecord p pack' node' = .ok () →
    p.hash.Separates pack.core pack'.core →
    ((reuseResult pack pack'.core).1 = "reuse_execution" ↔ pack.coreDigest = pack'.coreDigest)) ∧
  (∀ node attempt value now pack,
    buildExecutionPackage p s node attempt value now = .ok pack →
      (∀ value', value'.Reorders value →
        buildExecutionPackage p s node attempt value' now = .ok pack) ∧
      executionPackageDecoder.decode default pack.document = .ok pack ∧
      validateExecutionPackageRecord p pack node = .ok ()) ∧
  ∀ assessor value now decision, buildReuseDecision p s assessor value now = .ok decision →
    (∀ value', value'.Reorders value →
      buildReuseDecision p s assessor value' now = .ok decision) ∧
    reuseDecisionDecoder.decode default decision.document = .ok decision ∧
    ∃ pack node, s.evidencePackages.lookup decision.packageId = some pack ∧
      s.nodeDefinition pack.nodeId = some node ∧
      validateReuseDecisionRecord p decision pack node = .ok () ∧
      (p.hash.Separates pack.core decision.currentCore →
        (decision.result = "reuse_execution" ↔
          decision.originalCoreDigest = decision.currentCoreDigest))
  := by
  refine ⟨fun pack pack' node node' => reuseResult_iff_coreDigest, ?_, ?_⟩
  · intro node attempt value now pack built
    obtain ⟨time, valid, -⟩ := buildExecutionPackage_ok built
    refine ⟨fun value' order => buildExecutionPackage_of_reorders printable order built, ?_, valid⟩
    exact pack.read_document
      (Stamp.ofText_format_of_parse time (validateExecutionPackageRecord_ok valid).2)
  · intro assessor value now decision built
    obtain ⟨time, -, pack, node, stored, own, declared, valid⟩ := buildReuseDecision_ok built
    have stores := packagesValid_of_reduceSegments loaded
    obtain ⟨key, node', passes⟩ := stores value.packageId pack stored
    obtain ⟨-, -, -, timed⟩ := validateReuseDecisionRecord_ok valid
    refine ⟨fun value' order => buildReuseDecision_of_reorders order built,
      decision.read_document (Stamp.ofText_format_of_parse time timed), pack, node, ?_, declared,
      valid, result_iff_coreDigest passes valid⟩
    rw [own, key]
    exact stored

namespace SampleEvidence

/-- A digest. -/
def digest : String := Hex.zero.digest

/-- A node. -/
def node : NodeDefinition :=
  { id := "build", title := "build", kind := .task, role := "dev", objective := "build"
    outcomes := [⟨"done", .success⟩] }

/-- An attempt of the node. -/
def attempt : Attempt :=
  { (default : Attempt) with id := "attempt", nodeId := "build", roleId := "dev" }

/-- An artifact of the attempt. -/
def artifact (type : String) : ArtifactRef :=
  { digest, type, size := 1, provenance := { producer := "builder" } }

/-- A request with the given inputs and artifacts. -/
def request (names types : List String) : PublishExecutionPackageInput where
  candidate := artifact "tree"
  prospectiveTree := artifact "tree"
  commandGraphDigest := digest
  protectedInputs := names.map fun name => { name, digest }
  observations :=
    { exact := some true, clean := some true, depthComplete := some true
      sourceUnmodified := some true, resourcesClosed := some true }
  artifacts := types.map artifact

end SampleEvidence

open SampleEvidence in
/-- A package of two inputs and two artifacts is the same in the other order, reads back, and may be
reused for its own core. -/
theorem reuse_of_evidence_sound_sample :
  ∃ pack, buildExecutionPackage .plain (State.new "p") node attempt
        (request ["a", "b"] ["log", "report"]) 0 = .ok pack ∧
    buildExecutionPackage .plain (State.new "p") node attempt
        (request ["b", "a"] ["report", "log"]) 0 = .ok pack ∧
    executionPackageDecoder.decode default pack.document = .ok pack ∧
    (reuseResult pack pack.core).1 = "reuse_execution"
  := by
  have found : (buildExecutionPackage .plain (State.new "p") node attempt
      (request ["a", "b"] ["log", "report"]) 0).toOption.isSome = true := by decide +kernel
  cases built : buildExecutionPackage .plain (State.new "p") node attempt
      (request ["a", "b"] ["log", "report"]) 0 with
  | error message =>
      rw [built] at found
      exact absurd found Bool.false_ne_true
  | ok pack =>
      have printable : Platform.plain.URLsPrintable := by
        intro uri parsed parses
        exact absurd parses (Option.some_ne_none _).symm
      have loaded : reduceSegments .plain "p" [] = .ok (State.new "p") := rfl
      obtain ⟨reused, packages, -⟩ := reuse_of_evidence_sound printable loaded
      obtain ⟨order, back, valid⟩ := packages _ _ _ _ _ built
      refine ⟨pack, rfl, order _ ?_, back, ?_⟩
      · exact
          { inputs := List.Perm.swap _ _ []
            artifacts := List.Perm.swap _ _ []
            others := rfl }
      · exact (reused pack pack node node valid valid fun _ => rfl).mpr rfl

end Dagrail
