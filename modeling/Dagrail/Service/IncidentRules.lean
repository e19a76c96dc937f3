import Dagrail.Service.CutReference
import Dagrail.Service.Ownership

/-!
# The two descriptions of an incident's changes

The writer makes the changes of an incident one by one, each by a function of its own. The import of
a history checks the pair of an incident before and after an update against a rule for each change.
The rules accept every change that the writer commits; the other way round, a pair that they accept
is one that the writer makes, but for two kinds: a resolution with the text that is reserved for
repairs and without a repair, which older histories contain, and a repair whose successor is not a
live repair of the node, which is checked apart from the rules.
-/

namespace Dagrail

/-! ### Changes as relations -/

/-- The change, made at the instant, updates the incident to `next`. -/
def Incident.Writes (change : IncidentChange) (s : State) (now : Instant) (prior next : Incident) :
    Prop :=
  ∃ changed, change prior s now = .ok changed ∧ { changed with updatedAt := .utc now } = next

/-- The incident after progress on it. -/
def Incident.progressed (prior : Incident) (note : String) (madeProgress : Bool) (now : Instant) :
    Incident :=
  let incident := { prior with
    attempts := prior.attempts + 1
    lastProgress := note
    lastProgressAt := .utc now
    noProgressAttempts := if madeProgress then 0 else prior.noProgressAttempts + 1
    updatedAt := .utc now }
  if 0 < incident.attemptBudget ∧ incident.attemptBudget ≤ incident.noProgressAttempts then
    { incident with
      status := .circuitOpen, circuitReason := "no_progress_attempt_budget_exhausted" }
  else if incident.deadline.parse.any fun deadline => decide (deadline ≤ now) then
    { incident with status := .circuitOpen, circuitReason := "deadline_exceeded" }
  else incident

/-- The incident after a disposition. -/
def Incident.disposed (prior : Incident) (actorRole disposition note : String) (now : Instant) :
    Incident :=
  let incident := { prior with
    disposition
    dispositionBy := actorRole
    dispositionAt := .utc now
    lastProgress := note
    lastProgressAt := .utc now
    updatedAt := .utc now }
  if disposition = "retry" ∧ prior.status = .circuitOpen then
    { incident with
      status := .opened
      circuitReason := ""
      attempts := 0
      noProgressAttempts := 0
      deadline := .utc (now + Duration.hour) }
  else incident

namespace Incident.Writes

variable {p : Platform} {s : State} {prior next : Incident} {now : Instant}

/-- What a trip makes. -/
theorem trip_iff
    {reason : String} :
  prior.Writes (tripIncident reason) s now next ↔
    prior.status ≠ .resolved ∧ { prior with
      status := .circuitOpen, circuitReason := reason, updatedAt := .utc now } = next
  := by
  simp [Writes, tripIncident, bind_eq_ok]

/-- What a resolution makes. -/
theorem resolve_iff
    {resolution : String} :
  prior.Writes (Dagrail.resolveIncident resolution) s now next ↔
    (prior.status ≠ .resolved ∧ prior.sourceType ≠ "resource" ∧ prior.sourceType ≠ "effect") ∧
      { prior with status := .resolved, resolution, updatedAt := .utc now } = next
  := by
  simp [Writes, Dagrail.resolveIncident, bind_eq_ok]

/-- What a supersession makes. -/
theorem supersede_iff
    {successorNodeId note : String} :
  prior.Writes (supersedeIncidentValue successorNodeId note) s now next ↔
    (prior.status ≠ .resolved ∧ prior.sourceType = "attempt" ∧
      validIncidentSuccessor s prior successorNodeId = true) ∧ { prior with
        status := .resolved
        resolution := incidentResolutionSupersededByRepair
        remedyNodeId := successorNodeId
        supersededAt := .utc now
        lastProgress := note
        lastProgressAt := .utc now
        updatedAt := .utc now } = next
  := by
  simp [Writes, supersedeIncidentValue, bind_eq_ok]

/-- What progress makes. -/
theorem progress_iff
    {note : String} {madeProgress : Bool} :
  prior.Writes (progressIncident note madeProgress) s now next ↔
    prior.status = .opened ∧ prior.progressed note madeProgress now = next
  := by
  simp only [Writes, progressIncident, bind_eq_ok, check_eq_ok, decide_eq_true_eq, exists_const,
    ← apply_ite Except.ok, Except.ok.injEq, and_assoc, exists_and_left, exists_eq_left']
  refine and_congr_right fun _ => Eq.congr_left ?_
  unfold progressed
  dsimp only
  generalize (if madeProgress = true then (0 : Int) else prior.noProgressAttempts + 1) = failed
  split_ifs <;> rfl

/-- What a disposition makes. -/
theorem dispose_iff
    {actorRole disposition note : String} :
  prior.Writes (disposeIncident actorRole disposition note) s now next ↔
    prior.status ≠ .resolved ∧ prior.disposed actorRole disposition note now = next
  := by
  simp only [Writes, disposeIncident, bind_eq_ok, check_eq_ok, decide_eq_true_eq, exists_const,
    ← apply_ite Except.ok, Except.ok.injEq, and_assoc, exists_and_left, exists_eq_left']
  refine and_congr_right fun _ => Eq.congr_left ?_
  unfold disposed
  split_ifs <;> rfl

/-- The rule for progress asks that progress made the update. -/
theorem progress_rule
    {madeProgress : Bool} {candidate : Incident}
    (made : candidate = prior.progressed next.lastProgress madeProgress now) :
  (decide (prior.status = .opened)
      && (decide (next.lastProgress ≠ "") && decide (next.lastProgressAt = .utc now))
      && decide (candidate = next)) = true ↔
    next.lastProgress ≠ "" ∧
      prior.Writes (progressIncident next.lastProgress madeProgress) s now next
  := by
  simp only [made, Bool.and_eq_true, decide_eq_true_eq, progress_iff]
  constructor
  · rintro ⟨⟨opened, note, -⟩, same⟩
    exact ⟨note, opened, same⟩
  · rintro ⟨note, opened, same⟩
    refine ⟨⟨opened, note, ?_⟩, same⟩
    rw [← same]
    unfold progressed
    dsimp only
    split_ifs <;> rfl

/-- Progress is noted and leaves the resolution. -/
theorem progressed_fields
    (note : String) (madeProgress : Bool) :
  (prior.progressed note madeProgress now).lastProgress = note ∧
    (prior.progressed note madeProgress now).resolution = prior.resolution
  := by
  unfold progressed
  dsimp only
  split_ifs <;> exact ⟨rfl, rfl⟩

/-- A disposition is stamped with its role and time, and leaves the owner and the resolution. -/
theorem disposed_fields
    (role disposition note : String) :
  (prior.disposed role disposition note now).dispositionBy = role ∧
    (prior.disposed role disposition note now).dispositionAt = .utc now ∧
    (prior.disposed role disposition note now).lastProgressAt = .utc now ∧
    (prior.disposed role disposition note now).ownerRole = prior.ownerRole ∧
    (prior.disposed role disposition note now).disposition = disposition ∧
    (prior.disposed role disposition note now).lastProgress = note ∧
    (prior.disposed role disposition note now).resolution = prior.resolution
  := by
  unfold disposed
  dsimp only
  split_ifs <;> exact ⟨rfl, rfl, rfl, rfl, rfl, rfl, rfl⟩

/-- A change is stamped with its time. -/
theorem updatedAt
    {change : IncidentChange} (made : prior.Writes change s now next) :
  next.updatedAt = .utc now
  := by
  obtain ⟨changed, -, rfl⟩ := made
  rfl

end Incident.Writes

/-! ### The rules -/

/-- The texts of a mutation are there, a resolution is not the reserved one, and a disposition is
one of the list. -/
def IncidentCall.Texted : IncidentCall → Prop
  | .progress note _ => note ≠ ""
  | .trip reason => reason ≠ ""
  | .resolve resolution => resolution ≠ "" ∧ resolution ≠ incidentResolutionSupersededByRepair
  | .dispose disposition note => incidentDispositions.contains disposition = true ∧ note ≠ ""
  | .supersede _ note => note ≠ ""

/-- A live repair is a node. -/
theorem ne_empty_of_validIncidentSuccessor
    {s : State} {incident : Incident} {successorNodeId : String}
    (h : validIncidentSuccessor s incident successorNodeId = true) :
  successorNodeId ≠ ""
  := by
  unfold validIncidentSuccessor at h
  split at h
  · cases h
  · simp only [Bool.and_eq_true, decide_eq_true_eq] at h
    exact h.1.1


namespace Lifecycle

variable {p : Platform} {s : State} {prior next : Incident} {now : Instant}

/-- The rules in terms of the changes, for an update stamped as the writer stamps it. Only the rule
for a supersession does not ask for the change itself: it leaves out whether the successor is one.
-/
theorem validExplicitIncidentUpdate_iff
    (at_ : next.updatedAt = .utc now) (readable : Time.representable now = true) :
  validExplicitIncidentUpdate p s prior next = true ↔
    (∃ control, next.control = some control ∧
      prior.Writes (controlResolveIncidentValue p control.actorRole
        { disposition := control.disposition, resolution := control.resolution
          note := control.note }) s now next) ∨
    (prior.sourceType = "attempt" ∧ next.resolution ≠ "" ∧
      (next.resolution = incidentResolutionSupersededByRepair →
        next.remedyNodeId = "" ∧ next.supersededAt = .unset) ∧
      prior.Writes (Dagrail.resolveIncident next.resolution) s now next) ∨
    (next.remedyNodeId ≠ "" ∧ next.lastProgress ≠ "" ∧ prior.status ≠ .resolved ∧
      prior.sourceType = "attempt" ∧ { prior with
        status := .resolved
        resolution := incidentResolutionSupersededByRepair
        remedyNodeId := next.remedyNodeId
        supersededAt := .utc now
        lastProgress := next.lastProgress
        lastProgressAt := .utc now
        updatedAt := .utc now } = next) ∨
    (next.circuitReason ≠ "" ∧ prior.Writes (tripIncident next.circuitReason) s now next) ∨
    (next.lastProgress ≠ "" ∧ prior.Writes (progressIncident next.lastProgress true) s now next) ∨
    (next.lastProgress ≠ "" ∧ prior.Writes (progressIncident next.lastProgress false) s now next) ∨
    (incidentDispositions.contains next.disposition = true ∧ next.lastProgress ≠ "" ∧
      prior.Writes (disposeIncident next.ownerRole next.disposition next.lastProgress) s now next)
  := by
  have parsed : (Stamp.utc now).parse = some now := Stamp.parse_utc readable
  have zero : (Stamp.utc now).plus 0 = some (.utc now) := by
    simp [Stamp.plus, Stamp.parseZoned, readable]
  have later : (Stamp.utc now).plus Duration.hour = some (.utc (now + Duration.hour)) := by
    simp [Stamp.plus, Stamp.parseZoned, readable]
  simp only [validExplicitIncidentUpdate, at_, parsed, zero, later, Option.any_some,
    Bool.or_eq_true, or_assoc]
  refine or_congr ?_ (or_congr ?_ (or_congr ?_ (or_congr ?_ (or_congr ?_ (or_congr ?_ ?_)))))
  · simp only [Option.any_eq_true]
    refine exists_congr fun control => and_congr_right fun _ => ?_
    unfold Incident.Writes
    split
    · rename_i changed made
      have stamped := made
      simp only [controlResolveIncidentValue, bind_eq_ok, Except.ok.injEq] at stamped
      obtain ⟨_, -, _, -, _, -, _, -, _, -, rfl⟩ := stamped
      rw [made, decide_eq_true_eq]
      constructor
      · intro same
        exact ⟨_, rfl, same⟩
      · rintro ⟨_, same, rfl⟩
        obtain rfl := Except.ok.inj same
        rfl
    · rename_i message refused
      simp [refused]
  · simp only [Bool.and_eq_true, decide_eq_true_eq, Incident.Writes.resolve_iff]
    constructor
    · rintro ⟨⟨⟨⟨open_, source⟩, resolution⟩, repairs⟩, same⟩
      refine ⟨source, resolution, fun reserved => ?_, ⟨open_, ?_, ?_⟩, same⟩
      · simpa [reserved] using repairs
      · rw [source]
        decide
      · rw [source]
        decide
    · rintro ⟨source, resolution, repairs, ⟨open_, -⟩, same⟩
      refine ⟨⟨⟨⟨open_, source⟩, resolution⟩, ?_⟩, same⟩
      by_cases reserved : next.resolution = incidentResolutionSupersededByRepair
      · simp [repairs reserved]
      · simp [reserved]
  · simp only [Bool.and_eq_true, decide_eq_true_eq]
    constructor
    · rintro ⟨⟨⟨⟨⟨⟨open_, source⟩, resolution⟩, remedy⟩, superseded⟩, note, noted⟩, same⟩
      rw [superseded, noted] at same
      exact ⟨remedy, note, open_, source, same⟩
    · rintro ⟨remedy, note, open_, source, same⟩
      have superseded : next.supersededAt = .utc now := by rw [← same]
      have noted : next.lastProgressAt = .utc now := by rw [← same]
      have resolution : next.resolution = incidentResolutionSupersededByRepair := by rw [← same]
      rw [superseded, noted]
      exact ⟨⟨⟨⟨⟨⟨open_, source⟩, resolution⟩, remedy⟩, rfl⟩, note, rfl⟩, same⟩
  · simp only [Bool.and_eq_true, decide_eq_true_eq, Incident.Writes.trip_iff]
    tauto
  · exact Incident.Writes.progress_rule (by simp [Incident.progressed])
  · exact Incident.Writes.progress_rule (by simp [Incident.progressed])
  · simp only [Bool.and_eq_true, decide_eq_true_eq, Incident.Writes.dispose_iff]
    constructor
    · rintro ⟨⟨⟨⟨⟨open_, listed⟩, role⟩, disposed⟩, note, noted⟩, same⟩
      rw [disposed, noted, role] at same
      exact ⟨listed, note, open_, same⟩
    · rintro ⟨listed, note, open_, same⟩
      obtain ⟨role, disposed, noted, -⟩ :=
        @Incident.Writes.disposed_fields prior now next.ownerRole next.disposition next.lastProgress
      rw [same] at role disposed noted
      rw [role, disposed, noted]
      exact ⟨⟨⟨⟨⟨open_, listed⟩, rfl⟩, rfl⟩, note, rfl⟩, same⟩

/-- A rule for a change of the owner accepts what the change makes. -/
theorem validExplicitIncidentUpdate_of_call
    {call : IncidentCall} (sourced : prior.Sourced) (texted : call.Texted)
    (readable : Time.representable now = true)
    (made : prior.Writes (call.change prior.ownerRole) s now next) :
  validExplicitIncidentUpdate p s prior next = true
  := by
  have at_ : next.updatedAt = .utc now := made.updatedAt
  rw [validExplicitIncidentUpdate_iff at_ readable]
  cases call with
  | progress note madeProgress =>
      have same : next.lastProgress = note := by
        obtain ⟨-, same⟩ := Incident.Writes.progress_iff.mp made
        rw [← same]
        exact (Incident.Writes.progressed_fields note madeProgress).1
      rw [← same] at texted made
      cases madeProgress with
      | true => exact .inr (.inr (.inr (.inr (.inl ⟨texted, made⟩))))
      | false => exact .inr (.inr (.inr (.inr (.inr (.inl ⟨texted, made⟩)))))
  | trip reason =>
      have same : next.circuitReason = reason := by
        obtain ⟨-, same⟩ := Incident.Writes.trip_iff.mp made
        rw [← same]
      rw [← same] at texted made
      exact .inr (.inr (.inr (.inl ⟨texted, made⟩)))
  | resolve resolution =>
      obtain ⟨⟨-, resource, effect⟩, same⟩ := Incident.Writes.resolve_iff.mp made
      have same : next.resolution = resolution := by rw [← same]
      rw [← same] at texted made
      -- an incident is about an attempt, an effect or a resource
      have source : prior.sourceType = "attempt" := by
        rcases sourced with source | source | source
        · exact source
        · exact absurd source effect
        · exact absurd source resource
      exact .inr (.inl ⟨source, texted.1, fun reserved => absurd reserved texted.2, made⟩)
  | dispose disposition note =>
      obtain ⟨-, same⟩ := Incident.Writes.dispose_iff.mp made
      obtain ⟨-, -, -, owner, kind, noted, -⟩ :=
        @Incident.Writes.disposed_fields prior now prior.ownerRole disposition note
      rw [same] at owner kind noted
      rw [← kind, ← noted] at texted made
      rw [← owner] at made
      exact .inr (.inr (.inr (.inr (.inr (.inr ⟨texted.1, texted.2, made⟩)))))
  | supersede successorNodeId note =>
      obtain ⟨⟨open_, source, successor⟩, same⟩ := Incident.Writes.supersede_iff.mp made
      have remedy : next.remedyNodeId = successorNodeId := by rw [← same]
      have noted : next.lastProgress = note := by rw [← same]
      rw [← remedy, ← noted] at texted same
      rw [← remedy] at successor
      exact .inr (.inr (.inl ⟨ne_empty_of_validIncidentSuccessor successor, texted, open_, source,
        same⟩))

end Lifecycle

/-! ### What the writer makes -/

/-- The free texts of a mutation are within their bounds. -/
def IncidentCall.Bounded (p : Platform) : IncidentCall → Prop
  | .progress note _ => validateIncidentText p "progress note" note 1024 = .ok ()
  | .trip reason => validateIncidentText p "circuit reason" reason 512 = .ok ()
  | .resolve resolution => validateIncidentText p "resolution" resolution 1024 = .ok ()
  | .dispose _ note => validateIncidentText p "disposition note" note 1024 = .ok ()
  | .supersede _ note => validateIncidentText p "supersede note" note 1024 = .ok ()

/-- A mutation of the owner or of a controller makes the update at the instant. The owner's passes
its checks, up to free text that is beyond its bounds. -/
def Incident.Written (p : Platform) (s : State) (now : Instant) (prior next : Incident) : Prop :=
  (∃ call : IncidentCall, (call.Bounded p → call.checkTexts p = .ok ()) ∧
    prior.Writes (call.change prior.ownerRole) s now next) ∨
  ∃ actorRole value, prior.Writes (controlResolveIncidentValue p actorRole value) s now next

variable {p : Platform} {projectId : String} {s : State} {prior next : Incident} {now : Instant}

/-- A pair that the rules accept is one that the writer makes, where a resolution by repair names a
live repair. -/
theorem Incident.written_of_accepted
    (accepted : Lifecycle.validExplicitIncidentUpdate p s prior next = true)
    (at_ : next.updatedAt = .utc now) (readable : Time.representable now = true)
    (repair : next.resolution = incidentResolutionSupersededByRepair →
      blank next.remedyNodeId = false ∧ validIncidentSuccessor s prior next.remedyNodeId = true) :
  Incident.Written p s now prior next
  := by
  rw [Lifecycle.validExplicitIncidentUpdate_iff at_ readable] at accepted
  rcases accepted with ⟨control, -, made⟩ | ⟨-, -, unrepaired, made⟩ |
    ⟨-, -, open_, source, same⟩ | ⟨-, made⟩ | ⟨-, made⟩ | ⟨-, made⟩ | ⟨listed, -, made⟩
  · exact .inr ⟨_, _, made⟩
  · refine .inl ⟨.resolve next.resolution, fun bounded => ?_, made⟩
    have free : next.resolution ≠ incidentResolutionSupersededByRepair := by
      intro reserved
      have named := (repair reserved).1
      rw [(unrepaired reserved).1] at named
      cases named
    have bounded : validateIncidentText p "resolution" next.resolution 1024 = .ok () := bounded
    simp [IncidentCall.checkTexts, bounded, free]
  · have reserved : next.resolution = incidentResolutionSupersededByRepair := by rw [← same]
    obtain ⟨named, successor⟩ := repair reserved
    refine .inl ⟨.supersede next.remedyNodeId next.lastProgress, fun bounded => ?_,
      Incident.Writes.supersede_iff.mpr ⟨⟨open_, source, successor⟩, same⟩⟩
    have bounded : validateIncidentText p "supersede note" next.lastProgress 1024 = .ok () :=
      bounded
    simp [IncidentCall.checkTexts, bounded, named]
  · exact .inl ⟨.trip next.circuitReason, fun bounded => bounded, made⟩
  · exact .inl ⟨.progress next.lastProgress true, fun bounded => bounded, made⟩
  · exact .inl ⟨.progress next.lastProgress false, fun bounded => bounded, made⟩
  · obtain ⟨-, same⟩ := Incident.Writes.dispose_iff.mp made
    have owner : next.ownerRole = prior.ownerRole := by
      obtain ⟨-, -, -, owner, -⟩ := @Incident.Writes.disposed_fields prior now next.ownerRole
        next.disposition next.lastProgress
      rw [← owner, same]
    rw [owner] at made
    refine .inl ⟨.dispose next.disposition next.lastProgress, fun bounded => ?_, made⟩
    have bounded : validateIncidentText p "disposition note" next.lastProgress 1024 = .ok () :=
      bounded
    simpa [IncidentCall.checkTexts, bounded] using listed

/-- An incident that the writer resolves by repair has a live repair. -/
theorem Incident.Written.repair
    (written : Incident.Written p s now prior next)
    (before : prior.resolution ≠ incidentResolutionSupersededByRepair)
    (bounded :
      validateIncidentText p "resolution" incidentResolutionSupersededByRepair 1024 = .ok ())
    (reserved : next.resolution = incidentResolutionSupersededByRepair) :
  validIncidentSuccessor s prior next.remedyNodeId = true
  := by
  rcases written with ⟨call, checked, made⟩ | ⟨actorRole, value, changed, made, rfl⟩
  · cases call with
    | progress note madeProgress =>
        obtain ⟨-, rfl⟩ := Incident.Writes.progress_iff.mp made
        rw [(Incident.Writes.progressed_fields note madeProgress).2] at reserved
        exact absurd reserved before
    | trip reason =>
        obtain ⟨-, rfl⟩ := Incident.Writes.trip_iff.mp made
        exact absurd reserved before
    | resolve resolution =>
        obtain ⟨-, rfl⟩ := Incident.Writes.resolve_iff.mp made
        have reserved : resolution = incidentResolutionSupersededByRepair := reserved
        rw [reserved] at checked
        have passed := checked bounded
        simp [IncidentCall.checkTexts, bounded] at passed
    | dispose disposition note =>
        obtain ⟨-, rfl⟩ := Incident.Writes.dispose_iff.mp made
        obtain ⟨-, -, -, -, -, -, kept⟩ :=
          @Incident.Writes.disposed_fields prior now prior.ownerRole disposition note
        rw [kept] at reserved
        exact absurd reserved before
    | supersede successorNodeId note =>
        obtain ⟨⟨-, -, successor⟩, rfl⟩ := Incident.Writes.supersede_iff.mp made
        exact successor
  · simp only [controlResolveIncidentValue, bind_eq_ok, check_eq_ok, decide_eq_true_eq,
      Except.ok.injEq] at made
    obtain ⟨_, -, _, -, _, -, _, -, _, free, rfl⟩ := made
    exact absurd reserved free

/-! ### What the writer commits -/

/-- The batch is a mutation of an incident that a command or an action commits. -/
inductive IncidentMutation (p : Platform) (s : State) (b : Batch) : Prop
  | owner (env : Env) (incidentId actorRole key : String) (call : IncidentCall)
      (made : call.answer p s env incidentId actorRole key = .ok (some b))
  | controller (env : Env) (incidentId actorRole key : String) (value : IncidentControlResolveInput)
      (made : controlResolveIncident p s env incidentId actorRole value key = .ok (some b))
  | supersedeAction (env : Env) (ref : ActionRef) (input : Json) (key : String)
      (made : applyIncidentSupersedeAction p s env ref input key = .ok (some b))
  | controlResolveAction (env : Env) (ref : ActionRef) (input : Json) (key : String)
      (made : applyIncidentControlResolveAction p s env ref input key = .ok (some b))

/-- A text that passes is there. -/
theorem ne_empty_of_validateIncidentText
    {label value : String} {maximum : Nat}
    (h : validateIncidentText p label value maximum = .ok ()) :
  value ≠ ""
  := by
  rintro rfl
  simp [validateIncidentText, blank] at h

/-- The texts of a mutation that passes its checks are there. -/
theorem IncidentCall.texted_of_checkTexts
    {call : IncidentCall} (h : call.checkTexts p = .ok ()) :
  call.Texted
  := by
  cases call with
  | progress note madeProgress => exact ne_empty_of_validateIncidentText h
  | trip reason => exact ne_empty_of_validateIncidentText h
  | resolve resolution =>
      simp only [checkTexts, bind_eq_ok, check_eq_ok, decide_eq_true_eq] at h
      obtain ⟨_, bounded, free⟩ := h
      exact ⟨ne_empty_of_validateIncidentText bounded, free⟩
  | dispose disposition note =>
      simp only [checkTexts, bind_eq_ok, check_eq_ok] at h
      obtain ⟨_, listed, bounded⟩ := h
      exact ⟨listed, ne_empty_of_validateIncidentText bounded⟩
  | supersede successorNodeId note =>
      simp only [checkTexts, bind_eq_ok] at h
      obtain ⟨_, -, bounded⟩ := h
      exact ne_empty_of_validateIncidentText bounded

/-- A committed mutation is a change of a known incident at the time of its batch, the owner's with
its texts or a controller's. -/
theorem IncidentMutation.writes
    {b : Batch} (mutation : IncidentMutation p s b) :
  ∃ id prior next, s.incidents.lookup id = some prior ∧ b.events = [.incidentUpdated next] ∧
    ((∃ actorRole, ∃ call : IncidentCall, (prior.ownerRole = "" ∨ prior.ownerRole = actorRole) ∧
      call.Texted ∧ prior.Writes (call.change actorRole) s b.committedAt next) ∨
    ∃ actorRole value,
      prior.Writes (controlResolveIncidentValue p actorRole value) s b.committedAt next)
  := by
  cases mutation with
  | owner env incidentId actorRole key call made =>
      simp only [IncidentCall.answer, updateIncident, bind_eq_ok, need_eq_ok] at made
      obtain ⟨_, texts, _, -, prior, known, _, -, made⟩ := made
      split at made
      · simp at made
      · simp only [bind_eq_ok, check_eq_ok, Bool.or_eq_true, decide_eq_true_eq, Except.ok.injEq,
          Option.some.injEq] at made
        obtain ⟨_, belongs, _, -, _, -, changed, change, rfl⟩ := made
        exact ⟨incidentId, prior, _, known, rfl, .inl ⟨actorRole, call, belongs,
          call.texted_of_checkTexts texts, changed, change, rfl⟩⟩
  | controller env incidentId actorRole key value made =>
      simp only [controlResolveIncident, bind_eq_ok] at made
      obtain ⟨_, -, _, -, _, -, _, -, _, -, made⟩ := made
      split at made
      · simp at made
      · simp only [bind_eq_ok, need_eq_ok, Except.ok.injEq, Option.some.injEq] at made
        obtain ⟨_, -, _, -, prior, known, changed, change, rfl⟩ := made
        exact ⟨incidentId, prior, _, known, rfl, .inr ⟨actorRole, value, changed, change, rfl⟩⟩
  | supersedeAction env ref input key made =>
      simp only [applyIncidentSupersedeAction, bind_eq_ok, need_eq_ok, check_eq_ok,
        Bool.or_eq_true, Bool.and_eq_true, decide_eq_true_eq, Except.ok.injEq,
        Option.some.injEq] at made
      obtain ⟨_, -, _, -, note, -, _, ⟨noted, -⟩, _, -, _, -, _, -, prior, known, _, belongs,
        changed, change, rfl⟩ := made
      exact ⟨ref.incidentId, prior, _, known, rfl, .inl ⟨ref.roleId,
        .supersede ref.successorNodeId note, belongs, noted, changed, change, rfl⟩⟩
  | controlResolveAction env ref input key made =>
      simp only [applyIncidentControlResolveAction, bind_eq_ok, need_eq_ok, Except.ok.injEq,
        Option.some.injEq] at made
      obtain ⟨_, -, value, -, _, -, _, -, _, -, prior, known, _, -, changed, change, rfl⟩ := made
      exact ⟨ref.incidentId, prior, _, known, rfl, .inr ⟨ref.roleId, value, changed, change, rfl⟩⟩

/-- The rules accept what a controller makes. -/
theorem Lifecycle.validExplicitIncidentUpdate_of_control
    {actorRole : String} {value : IncidentControlResolveInput}
    (readable : Time.representable now = true)
    (made : prior.Writes (controlResolveIncidentValue p actorRole value) s now next) :
  validExplicitIncidentUpdate p s prior next = true
  := by
  rw [validExplicitIncidentUpdate_iff made.updatedAt readable]
  obtain ⟨changed, made, rfl⟩ := made
  have fields := made
  simp only [controlResolveIncidentValue, bind_eq_ok, Except.ok.injEq] at fields
  obtain ⟨_, -, _, -, _, -, _, -, _, -, rfl⟩ := fields
  exact .inl ⟨_, rfl, _, made, rfl⟩

/-- In a state whose incidents have owners, the rules accept what the writer commits. -/
theorem IncidentMutation.accepted
    {b : Batch} (mutation : IncidentMutation p s b) (owned : s.Owned)
    (readable : Time.representable b.committedAt = true) :
  ∃ id prior next, s.incidents.lookup id = some prior ∧ b.events = [.incidentUpdated next] ∧
    Lifecycle.validExplicitIncidentUpdate p s prior next = true
  := by
  obtain ⟨id, prior, next, known, events, made⟩ := mutation.writes
  refine ⟨id, prior, next, known, events, ?_⟩
  rcases made with ⟨actorRole, call, belongs, texted, made⟩ | ⟨actorRole, value, made⟩
  · obtain ⟨-, sourced, both⟩ := owned.incidents id prior known
    have owner : prior.ownerRole = actorRole :=
      belongs.resolve_left (both.resolve_right False.elim).1
    rw [← owner] at made
    exact Lifecycle.validExplicitIncidentUpdate_of_call sourced texted readable made
  · exact Lifecycle.validExplicitIncidentUpdate_of_control readable made

/-! ### A run -/

namespace SampleIncident

open SampleCut

/-- A graph with one task, whose role may manage incidents. -/
def graph : GraphDefinition where
  apiVersion := graphAPIVersion
  kind := graphKind
  metadata := { name := "sample" }
  spec :=
    { roles := [{ id := "ops", capabilities := [.nodeRun, .incidentManage] }]
      nodes := [task "x"] }

/-- The graph is imported, the role is bound, and the task fails. -/
def calls : List (Nat × Call) :=
  [(0, .importGraph { graph, idempotencyKey := "import", actorRole := "ops", requestDigest := "" }),
   (0, .bindRole
      { roleId := "ops", harness := "cli", sessionId := "first", ttl := 0
        idempotencyKey := "bind" }),
   (0, start 2 "x"),
   (9, fail 3 "x" "00")]

/-- The incident resolved with the reserved text, without a repair. -/
def legacy (prior : Incident) : Incident :=
  { prior with
    status := .resolved
    resolution := incidentResolutionSupersededByRepair
    updatedAt := .utc 0 }

/-- The incident resolved by a repair that is no node. -/
def unfounded (prior : Incident) : Incident :=
  { prior with
    status := .resolved
    resolution := incidentResolutionSupersededByRepair
    remedyNodeId := "ghost"
    supersededAt := .utc 0
    lastProgress := "repaired"
    lastProgressAt := .utc 0
    updatedAt := .utc 0 }

/-- Is the update one of an unresolved incident at the time of the run? -/
def unresolved : Event → Bool
  | .incidentUpdated next => decide (next.updatedAt = .utc 0) && decide (next.resolution = "")
  | _ => false

/-- The journal of the calls, its state, the incident of the failed task, and the batch of a trip.
-/
def trips : Fallible (List Segment × State × Incident × Batch) := do
  let journal ← commitEach .numbered "p" 0 [] calls
  let s ← reduceSegments .numbered "p" journal
  let prior ← need (s.incidents.lookup "attempt:00") "no incident"
  check (prior.id = "attempt:00") "the incident is filed elsewhere"
  let answer ← (IncidentCall.trip "stuck").answer .numbered s (.still 0) "attempt:00" "ops" "trip"
  let batch ← need answer "the trip is known"
  .ok (journal, s, prior, batch)

/-- Are the hashes of the journal different, does the trip leave the incident unresolved, and do the
rules accept both resolutions without a repair? -/
def verdicts : List Segment × State × Incident × Batch → Bool × Bool × Bool
  | (journal, s, prior, batch) =>
      (decide (journal.map Segment.segmentHash).Nodup,
        decide (batch.committedAt = 0) && batch.events.all unresolved,
        decide (prior.resolution = "") && [legacy prior, unfounded prior].all fun next =>
          Lifecycle.validExplicitIncidentUpdate .numbered s prior next
            && !validIncidentSuccessor s prior next.remedyNodeId)

/-- They are, it does and they do. -/
theorem trips_run :
  trips.map verdicts = .ok (true, true, true)
  := by decide +kernel

/-- What the run is about. -/
theorem trips_ok
    {journal : List Segment} {prior : Incident} {batch : Batch} {s : State}
    (h : trips = .ok (journal, s, prior, batch)) :
  Reachable .numbered "p" (fun _ call => call.Faithful) (World.initial journal 0) ∧
    reduceSegments .numbered "p" journal = .ok s ∧ s.incidents.lookup prior.id = some prior ∧
    IncidentMutation .numbered s batch
  := by
  simp only [trips, bind_eq_ok, check_eq_ok, need_eq_ok, decide_eq_true_eq, Except.ok.injEq,
    Prod.mk.injEq] at h
  obtain ⟨_, committed, _, loaded, _, known, _, own, _, answered, _, rfl, rfl, rfl, rfl, rfl⟩ := h
  have start : Reachable .numbered "p" (fun _ call => call.Faithful) (World.initial [] 0) :=
    ⟨[], 0, .empty, .refl⟩
  refine ⟨reachable_of_commitEach start (by simp [calls, SampleCut.start, fail, Call.Faithful])
    committed, loaded, ?_, .owner _ _ _ _ _ answered⟩
  rw [own]
  exact known

end SampleIncident

open SampleIncident in
/-- The rules accept two resolutions of an incident of a run that no mutation makes. -/
theorem incidentRules_accept_unwritten :
  ∃ (w : World) (s : State) (prior : Incident),
    Reachable .numbered "p" (fun _ call => call.Faithful) w ∧ CollisionFree w.journal ∧
    reduceSegments .numbered "p" w.journal = .ok s ∧ s.incidents.lookup prior.id = some prior ∧
    ∀ next ∈ [legacy prior, unfounded prior], next.updatedAt = .utc 0 ∧
      Lifecycle.validExplicitIncidentUpdate .numbered s prior next = true ∧
      ¬ Incident.Written .numbered s 0 prior next
  := by
  have run := trips_run
  cases found : trips with
  | error message => simp [found, Except.map] at run
  | ok answer =>
      obtain ⟨journal, s, prior, batch⟩ := answer
      simp only [found, Except.map, verdicts, Except.ok.injEq, Prod.mk.injEq, Bool.and_eq_true,
        decide_eq_true_eq, List.all_eq_true, Bool.not_eq_true'] at run
      obtain ⟨free, -, unresolved, accepted⟩ := run
      obtain ⟨reachable, loaded, known, -⟩ := trips_ok found
      refine ⟨World.initial journal 0, s, prior, reachable, free, loaded, known, ?_⟩
      intro next mem
      obtain ⟨accepted, unrepaired⟩ := accepted next mem
      have stamps : next.updatedAt = .utc 0 ∧
          next.resolution = incidentResolutionSupersededByRepair := by
        simp only [List.mem_cons, List.not_mem_nil, or_false] at mem
        rcases mem with rfl | rfl <;> exact ⟨rfl, rfl⟩
      refine ⟨stamps.1, accepted, fun written => ?_⟩
      have repaired := written.repair (by rw [unresolved]; decide) (by decide) stamps.2
      rw [unrepaired] at repaired
      cases repaired

/-- In every run with faithful imports, the rules accept every mutation of an incident that the
writer commits. A pair that the rules accept, stamped as the writer stamps it, is one that a
mutation makes, where a resolution by repair names a live repair. -/
theorem incidentRules_agree
    (p : Platform) (projectId : String) :
  (∀ (w : World) (s : State) (b : Batch),
    Reachable p projectId (fun _ call => call.Faithful) w → CollisionFree w.journal →
    reduceSegments p projectId w.journal = .ok s → IncidentMutation p s b →
    Time.representable b.committedAt = true →
    ∃ id prior next, s.incidents.lookup id = some prior ∧ b.events = [.incidentUpdated next] ∧
      Lifecycle.validExplicitIncidentUpdate p s prior next = true) ∧
  ∀ (s : State) (prior next : Incident) (now : Instant),
    Lifecycle.validExplicitIncidentUpdate p s prior next = true → next.updatedAt = .utc now →
    Time.representable now = true →
    (next.resolution = incidentResolutionSupersededByRepair →
      blank next.remedyNodeId = false ∧ validIncidentSuccessor s prior next.remedyNodeId = true) →
    Incident.Written p s now prior next
  := by
  refine ⟨fun w s b reachable free loaded mutation readable => ?_,
    fun s prior next now accepted at_ readable repair => ?_⟩
  · exact mutation.accepted (reachable.owned free loaded) readable
  · exact Incident.written_of_accepted accepted at_ readable repair

open SampleIncident in
/-- The trip of the run is accepted and, as an accepted pair, made by a mutation. -/
theorem incidentRules_agree_trip :
  ∃ (s : State) (b : Batch) (prior next : Incident), b.events = [.incidentUpdated next] ∧
    Lifecycle.validExplicitIncidentUpdate .numbered s prior next = true ∧
    Incident.Written .numbered s 0 prior next
  := by
  have run := trips_run
  cases found : trips with
  | error message => simp [found, Except.map] at run
  | ok answer =>
      obtain ⟨journal, s, prior, batch⟩ := answer
      simp only [found, Except.map, verdicts, Except.ok.injEq, Prod.mk.injEq, Bool.and_eq_true,
        decide_eq_true_eq] at run
      obtain ⟨free, ⟨committed, plain⟩, -⟩ := run
      obtain ⟨reachable, loaded, -, mutation⟩ := trips_ok found
      have agree := incidentRules_agree .numbered "p"
      obtain ⟨id, prior, next, known, events, accepted⟩ :=
        agree.1 (World.initial journal 0) s batch reachable free loaded mutation
          (by rw [committed]; decide)
      rw [events] at plain
      simp only [List.all_cons, List.all_nil, Bool.and_true, unresolved, Bool.and_eq_true,
        decide_eq_true_eq] at plain
      refine ⟨s, batch, prior, next, events, accepted, ?_⟩
      refine agree.2 s prior next 0 accepted plain.1 (by decide) fun reserved => ?_
      rw [plain.2] at reserved
      exact absurd reserved (by decide)

end Dagrail
