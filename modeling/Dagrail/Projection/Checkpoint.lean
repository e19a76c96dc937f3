import Dagrail.Journal.Directory
import Dagrail.Projection.Store
import Dagrail.Service.IncrementalReplay
import Dagrail.Service.Runs

/-!
# Checkpoints and loads

A load reads the journal and replays it. A controller keeps what it loaded last, and reads and
replays only the segments behind it while the files in front are unchanged. A controller that
starts with nothing kept may take the state and the names of the segments from the projection, if
a sealed checkpoint vouches for them. The projection does not store the commands and the events of
the segments, so that a load from a checkpoint returns the segments in front without them.
-/

namespace Dagrail

/-! ### Reading the journal -/

/-- What the file system says about the file of a segment. -/
structure SegmentFileIdentity where
  name : String
  size : Nat
  modTimeUnixNano : Int
  regular : Bool
  permissions : Nat
deriving DecidableEq

/-- A file of the journal: what the file system says about it, and the segment its content decodes
to, if it is canonical and compatible. -/
structure SegmentFile where
  identity : SegmentFileIdentity
  content : Fallible Segment

/-- The name of the file of a segment. -/
def Segment.fileName (segment : Segment) : String :=
  Journal.segmentName segment.sequence segment.segmentHash

/-- Is the file a regular one of a bounded size? -/
def SegmentFileIdentity.admitted (identity : SegmentFileIdentity) : Bool :=
  identity.regular && decide (identity.size ≤ Journal.maxSegmentBytes)

/-- Check the files whose names start with a sequence number, and those behind it. -/
def listFrom : Nat → List SegmentFile → Fallible (List SegmentFileIdentity)
  | _, [] => .ok []
  | sequence, file :: rest => do
      check file.identity.admitted "journal segment must be a regular file"
      check (Journal.validSegmentName sequence file.identity.name) "journal segment filename is invalid"
      let others ← listFrom (sequence + 1) rest
      .ok (file.identity :: others)

/-- What the file system says about the files of a journal, in the order of their names. -/
def listSegmentFiles (files : List SegmentFile) : Fallible (List SegmentFileIdentity) := do
  check (decide (files.length ≤ Journal.maxSegmentCount)) "journal exceeds 1000000 segments"
  listFrom 1 files

/-- Read the file of the segment at a place of the chain. -/
def readSegmentFile (p : Platform) (projectId : String) (file : SegmentFile) (sequence : Nat)
    (previous : String) : Fallible Segment := do
  check file.identity.admitted "journal segment must be a regular file"
  let segment ← file.content
  check (segment.sequence = sequence && segment.projectId = projectId
      && segment.previousHash = previous)
    "journal chain mismatch"
  check (p.hash.segmentHash segment = segment.segmentHash
      && file.identity.name = segment.fileName)
    "journal hash mismatch"
  check (segment.events ≠ []) "journal segment must contain at least one event"
  .ok segment

/-- Read files behind a place of the chain. -/
def readFrom (p : Platform) (projectId : String) :
    Nat → String → List SegmentFile → Fallible (List Segment)
  | _, _, [] => .ok []
  | sequence, previous, file :: rest => do
      let segment ← readSegmentFile p projectId file sequence previous
      let others ← readFrom p projectId (sequence + 1) segment.segmentHash rest
      .ok (segment :: others)

/-- Read the whole journal. -/
def readAll (p : Platform) (projectId : String) (files : List SegmentFile) :
    Fallible (List Segment) := do
  let _ ← listSegmentFiles files
  readFrom p projectId 1 "" files

/-- A snapshot of the journal. -/
structure VerifiedSnapshot where
  segments : List Segment
  files : List SegmentFileIdentity
  incremental : Bool

/-- Are the files of the snapshot the first files of the journal, unchanged? -/
def VerifiedSnapshot.unchanged (previous : VerifiedSnapshot) (files : List SegmentFileIdentity) :
    Bool :=
  previous.files.isPrefixOf files

/-- Read the journal behind an earlier snapshot if the files in front are unchanged, and else the
whole of it. -/
def readSnapshot (p : Platform) (projectId : String) (previous : Option VerifiedSnapshot)
    (files : List SegmentFile) : Fallible VerifiedSnapshot := do
  let identities ← listSegmentFiles files
  check (previous.all fun v => decide (v.files.length ≤ identities.length))
    "journal prefix was truncated"
  let unchanged := previous.any fun v => v.unchanged identities
  let kept := if unchanged then (previous.map VerifiedSnapshot.segments).getD [] else []
  let added ← readFrom p projectId (kept.length + 1) (headHashOf kept) (files.drop kept.length)
  .ok { segments := kept ++ added, files := identities, incremental := unchanged }

/-! ### The authority -/

/-- Where a replacement authority comes from. -/
structure AuthorityLineage where
  operation : String
  previousProjectId : String
  previousLocatorId : String := ""
  targetRootDigest : String := ""
  destinationRootDigest : String := ""
  previousHead : String
  recoveryHead : String
  recoveryBackupDigest : String
  rotatedAt : Stamp
  reason : String
  idempotencyKey : String

/-- The project a service serves. -/
structure Authority where
  projectId : String
  /-- The digest of its configuration. -/
  configDigest : String
  lineage : Option AuthorityLineage

/-- The version and the kind of the retirement that an operation leaves behind. -/
def retirementContract (operation : String) : String × String :=
  if operation = "rotation" then
    ("dagrail.io/authority-retirement/v1alpha1", "AuthorityRetirement")
  else if operation = "legacy-adoption" then
    ("dagrail.io/authority-adoption/v1alpha1", "LegacyAuthorityRetirement")
  else ("dagrail.io/authority-relocation/v1alpha1", "AuthorityRelocationRetirement")

/-- The retirement of the authority that the project replaces. -/
def AuthorityLineage.retirement (lineage : AuthorityLineage) (operation projectId : String) :
    AuthorityRetirement where
  apiVersion := (retirementContract operation).1
  kind := (retirementContract operation).2
  previousProjectId := lineage.previousProjectId
  previousLocatorId := lineage.previousLocatorId
  targetRootDigest := lineage.targetRootDigest
  destinationRootDigest := lineage.destinationRootDigest
  previousHead := lineage.previousHead
  recoveryHead := lineage.recoveryHead
  recoveryBackupDigest := lineage.recoveryBackupDigest
  replacementProjectId := projectId
  rotatedAt := lineage.rotatedAt
  reason := lineage.reason
  idempotencyKey := lineage.idempotencyKey

/-- The provenance that the establishment of the authority has to name. -/
def Authority.expectedProvenance (p : Platform) (authority : Authority)
    (establishment : AuthorityEstablishment) : Fallible String :=
  if establishment.operation = "initialization" then .ok authority.configDigest
  else if replacementOperations.contains establishment.operation then do
    let lineage ← need (authority.lineage.filter fun lineage =>
        lineage.operation = establishment.operation
          && lineage.previousProjectId = establishment.previousProjectId)
      "replacement authority establishment is not claim-bound to its lineage"
    .ok (p.hash (.retirement
      (lineage.retirement establishment.operation authority.projectId))).digest
  else .ok ""

/-- Does the journal begin with the establishment of the authority, and does it replay? -/
def validateCurrentAuthority (p : Platform) (authority : Authority) (segments : List Segment) :
    Fallible Unit := do
  let segment ← need segments.head? "existing project initialization fence is missing"
  check (segment.schemaVersion = Journal.authorityFenceSchemaVersion && segment.sequence = 1
      && segment.previousHash = "" && segment.command.kind = "authority.establish")
    "existing project initialization fence is invalid"
  match segment.events with
  | [.authorityEstablished establishment] => do
      check (validateAuthorityEstablishment establishment authority.projectId
          && establishment.establishedAt = segment.committedAt)
        "existing project initialization fence is not bound to this authority"
      let provenance ← authority.expectedProvenance p establishment
      check (establishment.provenanceDigest = provenance)
        "existing project initialization provenance is not bound to this authority"
      let s ← reduceSegments p authority.projectId segments
      check (s.headSequence = headSequenceOf segments)
        "existing project initialization has unexpected runtime state"
  | _ => .error "existing project initialization fence is invalid"

/-! ### Checkpoints -/

/-- What a checkpoint says of the projection it was sealed for. -/
structure CheckpointPayload where
  apiVersion : String
  kind : String
  projectId : String
  headSequence : Nat
  headHash : String
  graphRevision : String
  providerSet : String
  stateDigest : String
  segmentIdentityDigest : String
deriving DecidableEq

/-- A checkpoint with its authentication code. -/
structure SealedCheckpoint where
  payload : CheckpointPayload
  hmac : String

/-- What the sealing of checkpoints relies on: the authentication code under the secret of the
project, the digest of the text of a state, and the digest of the rows of segments with what the
file system says about their files. -/
structure Sealing where
  mac : CheckpointPayload → String
  stateDigest : State → String
  identityDigest : List (Projection.AppliedSegment × Option SegmentFileIdentity) → String

/-- The file with a name. -/
def lstat (files : List SegmentFile) (name : String) : Option SegmentFileIdentity :=
  (files.map SegmentFile.identity).find? fun identity => identity.name = name

/-- The rows of segments, each with what the file system says about its file. -/
def segmentIdentities (files : List SegmentFile) (rows : List Projection.AppliedSegment) :
    List (Projection.AppliedSegment × Option SegmentFileIdentity) :=
  rows.map fun row => (row, lstat files (Journal.segmentName row.sequence row.hash))

/-- The row of a segment. -/
def Segment.row (segment : Segment) : Projection.AppliedSegment :=
  ⟨segment.sequence, segment.segmentHash, segment.schemaVersion⟩

/-- The version of checkpoints. -/
def checkpointAPIVersion : String := "dagrail.io/verified-snapshot-checkpoint/v1alpha1"

/-- What a checkpoint says of a state and of the rows of segments. -/
def checkpointPayload (p : Platform) (sealing : Sealing) (s : State)
    (rows : List Projection.AppliedSegment) (files : List SegmentFile) : CheckpointPayload where
  apiVersion := checkpointAPIVersion
  kind := "VerifiedSnapshotCheckpoint"
  projectId := s.projectId
  headSequence := s.headSequence
  headHash := s.headHash
  graphRevision := s.graphRevision
  providerSet := p.hash.providerFingerprint s.graph
  stateDigest := sealing.stateDigest s
  segmentIdentityDigest := sealing.identityDigest (segmentIdentities files rows)

/-- Seal a checkpoint of a state and of the segments it was replayed from. -/
def sealCheckpoint (p : Platform) (sealing : Sealing) (s : State) (segments : List Segment)
    (files : List SegmentFile) : SealedCheckpoint :=
  let payload := checkpointPayload p sealing s (segments.map Segment.row) files
  { payload, hmac := sealing.mac payload }

/-- The state that the projection stores. -/
def Projection.Database.state (db : Projection.Database) : Option State :=
  match db.metadata.lookup "state" with
  | some [.document (.state s)] => some s
  | _ => none

/-- The state of the projection, if the checkpoint is authentic and describes the projection and the
files of the journal. -/
def verifyCheckpoint (p : Platform) (sealing : Sealing) (checkpoint : SealedCheckpoint)
    (db : Projection.Database) (files : List SegmentFile) : Fallible State := do
  check (checkpoint.payload.apiVersion = checkpointAPIVersion
      && checkpoint.payload.kind = "VerifiedSnapshotCheckpoint")
    "snapshot checkpoint contract is unsupported"
  check (sealing.mac checkpoint.payload = checkpoint.hmac) "snapshot checkpoint HMAC is invalid"
  let s ← need db.state "sql: no rows in result set"
  check (checkpoint.payload = checkpointPayload p sealing s db.applied files)
    "snapshot checkpoint does not match projected state and journal identities"
  .ok s

/-- The segment that a row of the projection becomes. -/
def restoredSegment (row : Projection.AppliedSegment) : Segment where
  schemaVersion := row.schema
  sequence := row.sequence
  projectId := ""
  previousHash := ""
  command := { id := "", kind := "" }
  events := []
  committedAt := .unset
  segmentHash := row.hash

/-- The file of a row of the projection. -/
def restoredFile (files : List SegmentFile) (row : Projection.AppliedSegment) :
    Fallible SegmentFileIdentity :=
  need ((lstat files (Journal.segmentName row.sequence row.hash)).filter
      SegmentFileIdentity.regular)
    "checkpoint journal identity is unavailable"

/-- Take the state and a snapshot of the journal from the projection. -/
def restoreCheckpoint (p : Platform) (sealing : Sealing) (checkpoint : SealedCheckpoint)
    (db : Projection.Database) (files : List SegmentFile) : Fallible (State × VerifiedSnapshot) := do
  let s ← verifyCheckpoint p sealing checkpoint db files
  let identities ← db.applied.mapM (restoredFile files)
  .ok (s,
    { segments := db.applied.map restoredSegment, files := identities, incremental := true })

/-! ### Loads -/

/-- A service that loads the journal. -/
structure Loader where
  platform : Platform
  sealing : Sealing
  authority : Authority
  recoveryInspection : Bool

/-- What a service keeps of its last load, with the time of the last check of the journal. -/
structure SnapshotCache where
  state : State
  journal : VerifiedSnapshot
  lastChecked : Option Instant

/-- What a load finds on the disk: the files of the journal in order, the checkpoint if there is
one, and the projection. -/
structure Disk where
  files : List SegmentFile
  checkpoint : Option SealedCheckpoint
  database : Projection.Database

namespace Loader

variable (l : Loader)

/-- Load the whole journal. -/
def loadAuthority (files : List SegmentFile) : Fallible (State × List Segment) := do
  let segments ← readAll l.platform l.authority.projectId files
  if !l.recoveryInspection then validateCurrentAuthority l.platform l.authority segments
  let s ← reduceSegments l.platform l.authority.projectId segments
  .ok (s, segments)

/-- What a load starts from: what is kept, and else what a checkpoint restores. A checkpoint that
cannot be restored is passed over. -/
def prior (kept : Option SnapshotCache) (disk : Disk) : Option SnapshotCache :=
  match kept with
  | some cache => some cache
  | none =>
      if l.recoveryInspection then none
      else
        match disk.checkpoint with
        | none => none
        | some checkpoint =>
            match restoreCheckpoint l.platform l.sealing checkpoint disk.database disk.files with
            | .ok (s, snapshot) =>
                if checkpoint.payload.providerSet = l.platform.hash.providerFingerprint s.graph then
                  some ⟨s, snapshot, none⟩
                else none
            | .error _ => none

/-- Load the journal behind what the load starts from: what is kept afterwards. -/
def loadBehind (cache : Option SnapshotCache) (files : List SegmentFile) (now : Instant) :
    Fallible SnapshotCache := do
  let verified ← readSnapshot l.platform l.authority.projectId
    (cache.map SnapshotCache.journal) files
  match cache.filter fun _ => verified.incremental with
  | some cache =>
      if verified.segments.length = cache.journal.segments.length then
        .ok { cache with lastChecked := some now }
      else do
        let s ← reduceTail l.platform cache.state
          (verified.segments.drop cache.journal.segments.length)
        .ok ⟨s, verified, some now⟩
  | none => do
      if !l.recoveryInspection then
        validateCurrentAuthority l.platform l.authority verified.segments
      let s ← reduceSegments l.platform l.authority.projectId verified.segments
      .ok ⟨s, verified, some now⟩

/-- What is kept, if the journal was checked after the request had been started. -/
def checkedSince (kept : Option SnapshotCache) (requestStarted : Instant) : Option SnapshotCache :=
  kept.filter fun cache => cache.lastChecked.any fun checked => decide (requestStarted ≤ checked)

/-- Load the journal: what is kept afterwards, with the state and the segments that are returned.
A request that waited for the load of another one is answered with what that kept. -/
def load (kept : Option SnapshotCache) (disk : Disk) (requestStarted now : Instant) :
    Fallible SnapshotCache :=
  match checkedSince kept requestStarted with
  | some cache => .ok cache
  | none => l.loadBehind (l.prior kept disk) disk.files now

end Loader

/-! ### What a valid journal reads as -/

/-- What is listed of files is what the file system says about them. -/
theorem listFrom_ok
    {sequence : Nat} {files : List SegmentFile} {identities : List SegmentFileIdentity}
    (listed : listFrom sequence files = .ok identities) :
  identities = files.map SegmentFile.identity
  := by
  induction files generalizing sequence identities with
  | nil => exact (Except.ok.inj listed).symm
  | cons file rest ih =>
      simp only [listFrom, bind_eq_ok, Except.ok.injEq] at listed
      obtain ⟨_, -, _, -, others, listed, rfl⟩ := listed
      rw [ih listed, List.map_cons]

/-- As many segments are read as there are files. -/
theorem readFrom_length
    {p : Platform} {projectId : String} {sequence : Nat} {previous : String}
    {files : List SegmentFile} {segments : List Segment}
    (read : readFrom p projectId sequence previous files = .ok segments) :
  segments.length = files.length
  := by
  induction files generalizing sequence previous segments with
  | nil =>
      obtain rfl := Except.ok.inj read
      rfl
  | cons file rest ih =>
      simp only [readFrom, bind_eq_ok, Except.ok.injEq] at read
      obtain ⟨segment, -, others, read, rfl⟩ := read
      rw [List.length_cons, ih read, List.length_cons]

/-- A loop that collects results has as many as it takes steps. -/
theorem mapM_length
    {α β : Type} {f : α → Fallible β} {as : List α} {bs : List β} (collected : as.mapM f = .ok bs) :
  bs.length = as.length
  := by
  induction as generalizing bs with
  | nil =>
      obtain rfl : [] = bs := by simpa [pure, Except.pure] using collected
      rfl
  | cons a as ih =>
      rw [List.mapM_cons] at collected
      simp only [bind_eq_ok, pure_eq_ok] at collected
      obtain ⟨b, -, rest, collected, rfl⟩ := collected
      rw [List.length_cons, List.length_cons, ih collected]

/-- Behind some segments, the remaining files read as the remaining segments. -/
theorem readFrom_behind
    {p : Platform} {projectId : String} {sequence : Nat} {previous : String}
    {files : List SegmentFile} {front tail : List Segment}
    (read : readFrom p projectId sequence previous files = .ok (front ++ tail)) :
  readFrom p projectId (sequence + front.length)
    ((front.getLast?.map Segment.segmentHash).getD previous) (files.drop front.length) = .ok tail
  := by
  induction front generalizing sequence previous files with
  | nil => exact read
  | cons segment front ih =>
      cases files with
      | nil => simp [readFrom] at read
      | cons file rest =>
          simp only [readFrom, bind_eq_ok, Except.ok.injEq, List.cons_append, List.cons.injEq] at read
          obtain ⟨first, -, others, read, same, rfl⟩ := read
          rw [same] at read
          have last : ((segment :: front).getLast?.map Segment.segmentHash).getD previous =
              (front.getLast?.map Segment.segmentHash).getD segment.segmentHash := by
            cases front <;> simp [List.getLast?_cons]
          rw [last, List.length_cons, List.drop_succ_cons, Nat.add_comm front.length 1,
            ← Nat.add_assoc]
          exact ih read

namespace Loader

variable {l : Loader}

/-- What was checked of a journal that is loaded as a whole. -/
theorem loadAuthority_ok
    {files : List SegmentFile} {s : State} {segments : List Segment}
    (valid : l.loadAuthority files = .ok (s, segments)) :
  listSegmentFiles files = .ok (files.map SegmentFile.identity) ∧
    readFrom l.platform l.authority.projectId 1 "" files = .ok segments ∧
    (l.recoveryInspection = false →
      validateCurrentAuthority l.platform l.authority segments = .ok ()) ∧
    reduceSegments l.platform l.authority.projectId segments = .ok s
  := by
  simp only [loadAuthority, readAll, bind_eq_ok] at valid
  obtain ⟨segments', ⟨identities, listed, read⟩, rest⟩ := valid
  have same : identities = files.map SegmentFile.identity := by
    simp only [listSegmentFiles, bind_eq_ok] at listed
    obtain ⟨_, -, listed⟩ := listed
    exact listFrom_ok listed
  rw [same] at listed
  cases inspected : l.recoveryInspection with
  | true =>
      simp only [inspected, Bool.not_true, Bool.false_eq_true, if_false, bind_eq_ok, Except.ok.injEq,
        Prod.mk.injEq] at rest
      obtain ⟨s', reduced, rfl, rfl⟩ := rest
      exact ⟨listed, read, (fun skipped => by cases skipped), reduced⟩
  | false =>
      simp only [inspected, Bool.not_false, if_true, bind_eq_ok, Except.ok.injEq,
        Prod.mk.injEq] at rest
      obtain ⟨_, validated, s', reduced, rfl, rfl⟩ := rest
      exact ⟨listed, read, fun _ => validated, reduced⟩

/-! ### What is kept -/

/-- A segment as a checkpoint restores it. -/
def skeleton (segment : Segment) : Segment :=
  restoredSegment segment.row

/-- What is kept stands for the segments in front, the first ones without their contents. -/
structure Holds (l : Loader) (front : List Segment) (k : Nat) (cache : SnapshotCache) : Prop where
  files : cache.journal.files.length = front.length
  short : k ≤ front.length
  state : reduceSegments l.platform l.authority.projectId front = .ok cache.state
  segments : cache.journal.segments = (front.take k).map skeleton ++ front.drop k

/-- As many segments are kept as are in front. -/
theorem Holds.length
    {front : List Segment} {k : Nat} {cache : SnapshotCache} (holds : l.Holds front k cache) :
  cache.journal.segments.length = front.length
  := by
  have short := holds.short
  rw [holds.segments]
  simp only [List.length_append, List.length_map, List.length_take, List.length_drop]
  omega

/-- The last hash is kept. -/
theorem Holds.headHash
    {front : List Segment} {k : Nat} {cache : SnapshotCache} (holds : l.Holds front k cache) :
  headHashOf cache.journal.segments = headHashOf front
  := by
  have hashes : ∀ segments : List Segment,
      headHashOf segments = ((segments.map Segment.segmentHash).getLast?).getD "" := by
    intro segments
    rw [headHashOf, List.getLast?_map]
  have kept : (front.take k).map (Segment.segmentHash ∘ skeleton) =
    (front.take k).map Segment.segmentHash := rfl
  rw [hashes, hashes, holds.segments, List.map_append, List.map_map, kept, ← List.map_append,
    List.take_append_drop]

/-- A snapshot that was taken of a checkpoint of the segments in front, whose code is one that was
made by sealing, and whose digests do not collide with those of the projection. -/
structure Genuine (l : Loader) (front : List Segment) (checkpoint : SealedCheckpoint)
    (db : Projection.Database) (files : List SegmentFile) (s₀ : State)
    (files₀ : List SegmentFile) : Prop where
  replayed : reduceSegments l.platform l.authority.projectId front = .ok s₀
  made : checkpoint = sealCheckpoint l.platform l.sealing s₀ front files₀
  stateDigest : ∀ s, db.state = some s →
    l.sealing.stateDigest s = l.sealing.stateDigest s₀ → s = s₀
  identityDigest :
    l.sealing.identityDigest (segmentIdentities files db.applied) =
      l.sealing.identityDigest (segmentIdentities files₀ (front.map Segment.row)) →
    segmentIdentities files db.applied = segmentIdentities files₀ (front.map Segment.row)

/-- What a load may start from, with the segments it stands for and the number of those that a
checkpoint restored: nothing, what a genuine checkpoint restores, and what a load of a valid journal
kept that continues these segments. -/
inductive Cached (l : Loader) : Option SnapshotCache → List Segment → Nat → Prop where
  | nothing :
      Cached l none [] 0
  | restored (front : List Segment) (checkpoint : SealedCheckpoint) (db : Projection.Database)
      (files files₀ : List SegmentFile) (s s₀ : State) (snapshot : VerifiedSnapshot)
      (genuine : l.Genuine front checkpoint db files s₀ files₀)
      (restored : restoreCheckpoint l.platform l.sealing checkpoint db files = .ok (s, snapshot)) :
      Cached l (some ⟨s, snapshot, none⟩) front front.length
  | loaded (prior : Option SnapshotCache) (front segments : List Segment) (k : Nat)
      (files : List SegmentFile) (now : Instant) (s : State) (cache : SnapshotCache)
      (before : Cached l prior front k) (grown : front <+: segments)
      (valid : l.loadAuthority files = .ok (s, segments))
      (loaded : l.loadBehind prior files now = .ok cache) :
      Cached l (some cache) segments
        (if prior.any fun cache => cache.journal.unchanged (files.map SegmentFile.identity)
          then k else 0)

/-- What a genuine checkpoint restores stands for the segments it was sealed for. -/
theorem holds_of_restored
    {front : List Segment} {checkpoint : SealedCheckpoint} {db : Projection.Database}
    {files files₀ : List SegmentFile} {s s₀ : State} {snapshot : VerifiedSnapshot}
    (genuine : l.Genuine front checkpoint db files s₀ files₀)
    (restored : restoreCheckpoint l.platform l.sealing checkpoint db files = .ok (s, snapshot)) :
  l.Holds front front.length ⟨s, snapshot, none⟩
  := by
  simp only [restoreCheckpoint, verifyCheckpoint, bind_eq_ok, check_eq_ok, need_eq_ok,
    Except.ok.injEq, Prod.mk.injEq, decide_eq_true_eq] at restored
  obtain ⟨s', ⟨_, -, _, -, _, stored, _, same, rfl⟩, identities, listed, rfl, rfl⟩ := restored
  rw [genuine.made] at same
  simp only [sealCheckpoint, checkpointPayload, CheckpointPayload.mk.injEq, true_and] at same
  obtain ⟨-, -, -, -, -, digest, identity⟩ := same
  have rows : db.applied = front.map Segment.row := by
    have fst : ∀ (files : List SegmentFile) (rows : List Projection.AppliedSegment),
        (segmentIdentities files rows).map Prod.fst = rows := by
      intro files rows
      rw [segmentIdentities, List.map_map]
      exact List.map_id _
    rw [← fst files db.applied, genuine.identityDigest identity.symm, fst]
  have count : identities.length = db.applied.length := mapM_length listed
  obtain rfl := genuine.stateDigest _ stored digest.symm
  constructor
  · rw [count, rows, List.length_map]
  · exact le_refl _
  · exact genuine.replayed
  · rw [List.take_length, List.drop_length, List.append_nil, rows, List.map_map]
    rfl

/-- Behind what is kept, a journal with unchanged files in front is read as its remaining
segments. -/
theorem readSnapshot_unchanged
    {cache : SnapshotCache} {front tail : List Segment} {k : Nat} {files : List SegmentFile}
    {s : State} (holds : l.Holds front k cache)
    (valid : l.loadAuthority files = .ok (s, front ++ tail))
    (unchanged : cache.journal.unchanged (files.map SegmentFile.identity) = true) :
  readSnapshot l.platform l.authority.projectId (some cache.journal) files =
    .ok ⟨cache.journal.segments ++ tail, files.map SegmentFile.identity, true⟩
  := by
  obtain ⟨listed, read, -, -⟩ := loadAuthority_ok valid
  have behind := readFrom_behind read
  have short : cache.journal.files.length ≤ (files.map SegmentFile.identity).length := by
    rw [holds.files, List.length_map, ← readFrom_length read, List.length_append]
    exact Nat.le_add_right _ _
  unfold readSnapshot
  rw [listed, ok_bind]
  simp only [Option.all_some, Option.any_some, unchanged, short, decide_true, check, if_true,
    Option.map_some, Option.getD_some, ok_bind, holds.length, holds.headHash]
  rw [Nat.add_comm front.length 1]
  rw [headHashOf, behind]
  rfl

/-- Where a file in front has changed, the whole journal is read. -/
theorem readSnapshot_changed
    {cache : SnapshotCache} {front tail : List Segment} {k : Nat} {files : List SegmentFile}
    {s : State} (holds : l.Holds front k cache)
    (valid : l.loadAuthority files = .ok (s, front ++ tail))
    (changed : cache.journal.unchanged (files.map SegmentFile.identity) = false) :
  readSnapshot l.platform l.authority.projectId (some cache.journal) files =
    .ok ⟨front ++ tail, files.map SegmentFile.identity, false⟩
  := by
  obtain ⟨listed, read, -, -⟩ := loadAuthority_ok valid
  have short : cache.journal.files.length ≤ (files.map SegmentFile.identity).length := by
    rw [holds.files, List.length_map, ← readFrom_length read, List.length_append]
    exact Nat.le_add_right _ _
  unfold readSnapshot
  rw [listed, ok_bind]
  simp only [Option.all_some, Option.any_some, changed, short, decide_true, check, if_true,
    Bool.false_eq_true, if_false, ok_bind]
  have start : readFrom l.platform l.authority.projectId (([] : List Segment).length + 1)
      (headHashOf []) (files.drop ([] : List Segment).length) = .ok (front ++ tail) := read
  rw [start]
  rfl

/-- Where nothing is kept, the whole journal is read. -/
theorem readSnapshot_nothing
    {files : List SegmentFile} {s : State} {segments : List Segment}
    (valid : l.loadAuthority files = .ok (s, segments)) :
  readSnapshot l.platform l.authority.projectId none files =
    .ok ⟨segments, files.map SegmentFile.identity, false⟩
  := by
  obtain ⟨listed, read, -, -⟩ := loadAuthority_ok valid
  unfold readSnapshot
  rw [listed, ok_bind]
  have start : readFrom l.platform l.authority.projectId (([] : List Segment).length + 1)
      (headHashOf []) (files.drop ([] : List Segment).length) = .ok segments := read
  simp only [Option.all_none, Option.any_none, check, if_true, Bool.false_eq_true, if_false, ok_bind]
  rw [start]
  rfl

/-! ### Loads behind what is kept -/

/-- A load that reads the whole journal keeps what is loaded without anything kept. -/
theorem loadBehind_whole
    {files : List SegmentFile} {s : State} {segments : List Segment}
    (prior : Option SnapshotCache) (now : Instant)
    (valid : l.loadAuthority files = .ok (s, segments))
    (read : readSnapshot l.platform l.authority.projectId (prior.map SnapshotCache.journal) files =
      .ok ⟨segments, files.map SegmentFile.identity, false⟩) :
  l.loadBehind prior files now =
    .ok ⟨s, ⟨segments, files.map SegmentFile.identity, false⟩, some now⟩
  := by
  obtain ⟨-, -, validated, reduced⟩ := loadAuthority_ok valid
  have none_ : prior.filter (fun _ => false) = none := by cases prior <;> rfl
  unfold loadBehind
  rw [read, ok_bind]
  simp only [none_]
  cases inspected : l.recoveryInspection with
  | true =>
      simp only [Bool.not_true, Bool.false_eq_true, if_false, reduced, ok_bind]
  | false =>
      simp only [Bool.not_false, if_true, validated inspected, reduced, ok_bind]

/-- A load behind unchanged files keeps the state that replay of the tail gives. -/
theorem loadBehind_unchanged
    {cache : SnapshotCache} {front tail : List Segment} {k : Nat} {files : List SegmentFile}
    {s : State} (now : Instant) (holds : l.Holds front k cache)
    (valid : l.loadAuthority files = .ok (s, front ++ tail))
    (unchanged : cache.journal.unchanged (files.map SegmentFile.identity) = true) :
  ∃ journal, journal.segments = cache.journal.segments ++ tail ∧
    journal.files.length = (front ++ tail).length ∧
    l.loadBehind (some cache) files now =
      (reduceTail l.platform cache.state tail).map fun s => ⟨s, journal, some now⟩
  := by
  have read := readSnapshot_unchanged holds valid unchanged
  obtain ⟨-, whole, -, -⟩ := loadAuthority_ok valid
  have count : (files.map SegmentFile.identity).length = (front ++ tail).length := by
    rw [List.length_map, readFrom_length whole]
  unfold loadBehind
  rw [Option.map_some, read, ok_bind]
  simp only [Option.filter_some, if_true]
  cases tail with
  | nil =>
      refine ⟨cache.journal, by simp, ?_, ?_⟩
      · rw [holds.files, List.append_nil]
      · rw [List.append_nil, if_pos rfl]
        rfl
  | cons segment rest =>
      refine ⟨⟨cache.journal.segments ++ segment :: rest, files.map SegmentFile.identity, true⟩, rfl,
        count, ?_⟩
      have longer : ¬ (cache.journal.segments ++ segment :: rest).length =
          cache.journal.segments.length := by
        rw [List.length_append, List.length_cons]
        omega
      rw [if_neg longer, List.drop_left]
      cases reduceTail l.platform cache.state (segment :: rest) <;> rfl

/-- What a load may start from stands for the segments it is said to stand for. -/
theorem Cached.holds
    {cache : SnapshotCache} {front : List Segment} {k : Nat}
    (cached : l.Cached (some cache) front k) :
  l.Holds front k cache
  := by
  generalize same : some cache = kept at cached
  induction cached generalizing cache with
  | nothing => simp at same
  | restored front checkpoint db files files₀ s s₀ snapshot genuine restored =>
      obtain rfl := Option.some.inj same
      exact holds_of_restored genuine restored
  | loaded prior front segments k files now s cache' before grown valid loaded ih =>
      obtain rfl := Option.some.inj same
      obtain ⟨tail, rfl⟩ := grown
      obtain ⟨-, read, -, reduced⟩ := loadAuthority_ok valid
      have count : (files.map SegmentFile.identity).length = (front ++ tail).length := by
        rw [List.length_map, readFrom_length read]
      -- a load of the whole journal keeps every segment as it is
      have fresh : l.Holds (front ++ tail) 0
          ⟨s, ⟨front ++ tail, files.map SegmentFile.identity, false⟩, some now⟩ :=
        ⟨count, Nat.zero_le _, reduced, by simp⟩
      cases prior with
      | none =>
          rw [loadBehind_whole none now valid (readSnapshot_nothing valid)] at loaded
          obtain rfl := Except.ok.inj loaded
          exact fresh
      | some previous =>
          have holds := ih rfl
          rw [Option.any_some]
          cases unchanged : previous.journal.unchanged (files.map SegmentFile.identity) with
          | false =>
              rw [loadBehind_whole (some previous) now valid
                (readSnapshot_changed holds valid unchanged)] at loaded
              obtain rfl := Except.ok.inj loaded
              exact fresh
          | true =>
              obtain ⟨journal, segments, files_eq, run⟩ := loadBehind_unchanged now holds valid unchanged
              rw [run] at loaded
              cases added : reduceTail l.platform previous.state tail with
              | error message => simp [added, Except.map] at loaded
              | ok s' =>
                  rw [added] at loaded
                  obtain rfl := Except.ok.inj loaded
                  rw [if_pos rfl]
                  have short := holds.short
                  refine ⟨files_eq, ?_, ?_, ?_⟩
                  · rw [List.length_append]
                    omega
                  · have fenced := fenced_of_accepted reduced holds.state added
                    exact (replaysAlike_of_fenced fenced s').mpr ⟨_, holds.state, added⟩
                  · rw [segments, holds.segments, List.take_append_of_le_length short,
                      List.drop_append_of_le_length short, List.append_assoc]

/-! ### Where a load serves what replay of the journal gives -/

end Loader

/-! ### A command in front of a checkpoint -/

namespace SampleCheckpoint

/-- The project. -/
def project : String := "00000000-0000-4000-8000-000000000001"

/-- The segment that establishes the authority. -/
def established : Segment :=
  { establishingSegment .numbered project with segmentHash := numberedText 1 }

/-- A segment that binds a role. -/
def bound : Segment where
  schemaVersion := 3
  sequence := 2
  projectId := project
  previousHash := numberedText 1
  command := { id := "bind", kind := "role.bind", actorRole := "lead", idempotencyKey := "bind" }
  events := [.roleBound
    { roleId := "lead"
      harness := "shell"
      sessionId := "s1"
      boundAt := .utc 0
      expiresAt := .utc 60000000000
      active := true }]
  committedAt := .utc 0
  segmentHash := numberedText 2

/-- The file of a segment. -/
def file (segment : Segment) : SegmentFile where
  identity :=
    { name := segment.fileName, size := 1024, modTimeUnixNano := 0, regular := true, permissions := 384 }
  content := .ok segment

/-- The service. -/
def loader : Loader where
  platform := .numbered
  sealing := { mac := fun _ => "", stateDigest := fun _ => "", identityDigest := fun _ => "" }
  authority := { projectId := project, configDigest := Hex.zero.digest, lineage := none }
  recoveryInspection := false

/-- The files of the two segments. -/
def files : List SegmentFile :=
  [file established, file bound]

/-- A checkpoint of a state and of both segments. -/
def checkpoint (s : State) : SealedCheckpoint :=
  sealCheckpoint .numbered loader.sealing s [established, bound] files

/-- The first segment is read. -/
theorem read_established :
  readSegmentFile .numbered project (file established) 1 "" = .ok established
  := rfl

/-- The second segment is read behind it. -/
theorem read_bound :
  readSegmentFile .numbered project (file bound) 2 (numberedText 1) = .ok bound
  := rfl

/-- What the checkpoint restores. -/
def restored : VerifiedSnapshot where
  segments := [restoredSegment established.row, restoredSegment bound.row]
  files := [(file established).identity, (file bound).identity]
  incremental := true

/-- The two journals replay behind their fence, the files are found and unchanged, and the lease is
found in the whole segments only. -/
theorem runs :
  ((validateCurrentAuthority .numbered loader.authority [established]).isOk = true ∧
    (reduceSegments .numbered project [established]).isOk = true) ∧
  ((validateCurrentAuthority .numbered loader.authority [established, bound]).isOk = true ∧
    (reduceSegments .numbered project [established, bound]).isOk = true) ∧
  (lstat files (Journal.segmentName 1 (numberedText 1)) = some (file established).identity ∧
    lstat files (Journal.segmentName 2 (numberedText 2)) = some (file bound).identity ∧
    restored.unchanged (files.map SegmentFile.identity) = true) ∧
  (roleLeaseForSequence [established, bound] 2).isOk = true ∧
    (roleLeaseForSequence restored.segments 2).isOk = false
  := by decide

/-- The names of the files are valid. -/
theorem names :
  Journal.validSegmentName 1 established.fileName = true ∧
    Journal.validSegmentName 2 bound.fileName = true
  := ⟨Journal.validSegmentName_segmentName 1 ⟨numberedText 1, validBareHash_numberedText 1⟩,
    Journal.validSegmentName_segmentName 2 ⟨numberedText 2, validBareHash_numberedText 2⟩⟩

/-- A journal that reads as segments behind the fence is valid if these replay. -/
theorem loads
    {files : List SegmentFile} {segments : List Segment}
    (read : readAll .numbered project files = .ok segments)
    (validated : (validateCurrentAuthority .numbered loader.authority segments).isOk = true)
    (replays : (reduceSegments .numbered project segments).isOk = true) :
  ∃ s, loader.loadAuthority files = .ok (s, segments)
  := by
  cases accepted : validateCurrentAuthority .numbered loader.authority segments with
  | error message => simp [accepted, Except.isOk, Except.toBool] at validated
  | ok u =>
      cases reduced : reduceSegments .numbered project segments with
      | error message => simp [reduced, Except.isOk, Except.toBool] at replays
      | ok s =>
          use s
          have read' : readAll loader.platform loader.authority.projectId files = .ok segments := read
          have accepted' : validateCurrentAuthority loader.platform loader.authority segments =
            .ok u := accepted
          have reduced' : reduceSegments loader.platform loader.authority.projectId segments =
            .ok s := reduced
          unfold Loader.loadAuthority
          rw [read', ok_bind, accepted', reduced']
          rfl

end SampleCheckpoint

end Dagrail
