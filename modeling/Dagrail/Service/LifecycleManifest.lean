import Dagrail.Service.LifecycleRecord

/-!
# Manifests of imported histories

A manifest carries the records of a source history. Every record names the hash of the one before
it, so that the records form a chain that ends in the head the manifest names. A record is one
command, or in the newer format a list of commands.
-/

namespace Dagrail

/-- The format of records that are one command each. -/
def lifecycleMigrationAPIVersion : String := "dagrail.io/lifecycle-migration/v1alpha1"

/-- The format of records that are lists of commands. -/
def lifecycleMigrationBundleAPIVersion : String := "dagrail.io/lifecycle-migration/v1beta1"

def maxMigrationRecords : Nat := 10000
def maxMigrationCommandsPerRecord : Nat := 128
def maxMigrationEventsPerCommand : Nat := 128

/-- The largest number of events of one segment. -/
def maxEventsPerSegment : Nat := 10000

/-- Where a history comes from. -/
structure LifecycleMigrationSource where
  system : String
  project : String
  authorityHash : String
  headSequence : Nat
  headEventId : String
  headEventHash : String

/-- One command of a record. -/
structure LifecycleMigrationCommand where
  commandIndex : Nat
  events : List LifecycleMigrationEvent

/-- A record of a source history. The two flags tell whether the document has the members. -/
structure LifecycleMigrationRecord where
  sourceSequence : Nat
  sourceEventId : String
  sourceEventHash : String
  previousSourceHash : String := ""
  occurredAt : Stamp
  events : List LifecycleMigrationEvent := []
  commands : List LifecycleMigrationCommand := []
  eventsPresent : Bool := !events.isEmpty
  commandsPresent : Bool := !commands.isEmpty

/-- A history to import. -/
structure LifecycleMigrationManifest where
  apiVersion : String
  kind : String
  projectId : String
  graphRevision : String
  expectedJournalHead : String
  source : LifecycleMigrationSource
  recordsDigest : String
  records : List LifecycleMigrationRecord

/-! ### Documents -/

/-- The text of a timestamp field. -/
def Stamp.format : Stamp → String
  | .text s => s
  | .utc t => Time.formatZoned t 0

/-- A member that is left out when its value is the empty text. -/
def optionalText (name value : String) : List (String × Json) :=
  if value = "" then [] else [(name, .str value)]

/-- A member that is left out when its value is the empty list. -/
def optionalList (name : String) (items : List Json) : List (String × Json) :=
  if items = [] then [] else [(name, .arr items)]

def LifecycleMigrationEvent.document (event : LifecycleMigrationEvent) : Json :=
  .obj [("type", .str event.type), ("payload", event.payload)]

def LifecycleMigrationCommand.document (command : LifecycleMigrationCommand) : Json :=
  .obj [("commandIndex", .num command.commandIndex),
    ("events", .arr (command.events.map LifecycleMigrationEvent.document))]

namespace LifecycleMigrationRecord

/-- The members of a record after its source hash. -/
def members (record : LifecycleMigrationRecord) : List (String × Json) :=
  optionalText "previousSourceEventHash" record.previousSourceHash
    ++ [("occurredAt", .str record.occurredAt.format)]
    ++ optionalList "events" (record.events.map LifecycleMigrationEvent.document)
    ++ optionalList "commands" (record.commands.map LifecycleMigrationCommand.document)

/-- What the hash of a record binds. -/
def statement (record : LifecycleMigrationRecord) : Json :=
  .obj ([("sourceSequence", .num record.sourceSequence),
    ("sourceEventId", .str record.sourceEventId)] ++ record.members)

/-- The record with its hash. -/
def document (record : LifecycleMigrationRecord) : Json :=
  .obj ([("sourceSequence", .num record.sourceSequence),
    ("sourceEventId", .str record.sourceEventId),
    ("sourceEventHash", .str record.sourceEventHash)] ++ record.members)

/-- Does the record come as a list of commands? -/
def usesBundle (record : LifecycleMigrationRecord) : Bool :=
  record.commandsPresent || !record.commands.isEmpty

/-- The commands of a record in the given format. -/
def lifecycleRecordCommands (apiVersion : String) (record : LifecycleMigrationRecord) :
    Fallible (List LifecycleMigrationCommand) :=
  if apiVersion = lifecycleMigrationAPIVersion then do
    check (!record.usesBundle && !record.events.isEmpty
        && record.events.length ≤ maxMigrationEventsPerCommand)
      "v1alpha1 requires exactly one bounded events mapping and forbids commands"
    .ok [{ commandIndex := 1, events := record.events }]
  else if apiVersion = lifecycleMigrationBundleAPIVersion then do
    check (!record.eventsPresent && record.events.isEmpty && !record.commands.isEmpty
        && record.commands.length ≤ maxMigrationCommandsPerRecord)
      "v1beta1 requires 1..128 commands and forbids record-level events"
    check (record.commands.zipIdx.all fun (command, index) =>
        command.commandIndex = index + 1 && !command.events.isEmpty
          && command.events.length ≤ maxMigrationEventsPerCommand)
      ("commandIndex must be contiguous from one and each command must contain "
        ++ "1..128 events")
    .ok record.commands
  else .error "unsupported lifecycle migration contract"

/-- The hash of a record under the separator of its format. -/
def lifecycleSourceEventHash (p : Platform) (apiVersion : String) (record : LifecycleMigrationRecord) :
    String :=
  p.hash.requestDigest
    (if apiVersion = lifecycleMigrationBundleAPIVersion then "dagrail-lifecycle-source-event-v2"
      else "dagrail-lifecycle-source-event-v1")
    record.statement

end LifecycleMigrationRecord

namespace LifecycleMigrationManifest

/-- The manifest with the given source hash and records as a document. -/
def documentWith (manifest : LifecycleMigrationManifest) (authorityHash : String)
    (records : Json) : Json :=
  .obj [("apiVersion", .str manifest.apiVersion), ("kind", .str manifest.kind),
    ("projectId", .str manifest.projectId), ("graphRevision", .str manifest.graphRevision),
    ("expectedJournalHead", .str manifest.expectedJournalHead),
    ("source", .obj [("system", .str manifest.source.system),
      ("project", .str manifest.source.project), ("authorityHash", .str authorityHash),
      ("headSequence", .num manifest.source.headSequence),
      ("headEventId", .str manifest.source.headEventId),
      ("headEventHash", .str manifest.source.headEventHash)]),
    ("recordsDigest", .str manifest.recordsDigest), ("records", records)]

/-- The records of a manifest as a document. -/
def recordsDocument (manifest : LifecycleMigrationManifest) : Json :=
  .arr (manifest.records.map LifecycleMigrationRecord.document)

/-- The digest of the request to import the manifest. -/
def requestDigest (p : Platform) (manifest : LifecycleMigrationManifest) : String :=
  p.hash.requestDigest "lifecycle.import-history"
    (manifest.documentWith manifest.source.authorityHash manifest.recordsDocument)

/-- The id of the import: a hash of the manifest without its records. -/
def lifecycleMigrationID (p : Platform) (manifest : LifecycleMigrationManifest) : String :=
  "migration_" ++ (p.hash (.request "dagrail-lifecycle-migration-v1"
    (manifest.documentWith manifest.source.authorityHash .null).canon)).text

/-- The events of a manifest, record by record and command by command. -/
def events (manifest : LifecycleMigrationManifest) : Fallible (List LifecycleMigrationEvent) := do
  let commands ← manifest.records.mapM
    (LifecycleMigrationRecord.lifecycleRecordCommands manifest.apiVersion)
  .ok (commands.flatten.flatMap LifecycleMigrationCommand.events)

end LifecycleMigrationManifest

/-! ### Payloads -/

/-- The payload of an event is a document fit for the journal that binds the fields of its type and
no others. -/
def validateMigratableEventPayload (p : Platform) (event : LifecycleMigrationEvent) :
    Fallible Event := do
  let reader ← need (eventReader event.type) ("unsupported native event " ++ event.type)
  check event.payload.validateAuthority "payload is outside the authority grammar"
  check (p.screenDocument event.payload) "payload contains prohibited material"
  check (reader.closed event.payload) (event.type ++ " is not a closed event payload")
  event.read

/-- The identity that an event introduces, which no other event of the history may introduce. -/
def migrationIntroductionIdentity (event : LifecycleMigrationEvent) : String :=
  let kind := if event.type = "attempt.started" ∨ event.type = "attempt.leased" then "attempt"
    else event.type
  let id := match event.read with
    | .ok (.attemptStarted attempt) | .ok (.attemptLeased attempt) => attempt.id
    | .ok (.attemptCheckpointed checkpoint) => checkpoint.id
    | .ok (.evidencePackagePublished pack) => pack.id
    | .ok (.evidenceReuseAssessed decision) => decision.id
    | .ok (.decisionRecorded decision) => decision.id
    | .ok (.resourceLeased resource) => resource.id
    | .ok (.actionApplied action) => action.id
    | .ok (.effectPrepared effect) => effect.id
    | _ => ""
  if id = "" then "" else kind ++ ":" ++ id

/-! ### The source chain -/

/-- A text bounded in bytes without white space at its ends. -/
def validBoundedTrimmed (value : String) (maxBytes : Nat) : Bool :=
  value ≠ "" && value = trimSpace value && value.utf8ByteSize ≤ maxBytes

/-- A letter or a digit. -/
def isPortableStart (c : Char) : Bool :=
  (decide ('a' ≤ c) && decide (c ≤ 'z')) || (decide ('A' ≤ c) && decide (c ≤ 'Z'))
    || (decide ('0' ≤ c) && decide (c ≤ '9'))

/-- An identifier of a foreign system that is safe to keep. -/
def portableExternalID (value : String) (maxBytes : Nat) : Bool :=
  validBoundedTrimmed value maxBytes
    && (value.toList.zip (value.toList.drop 1)).all (fun pair => pair ≠ ('.', '.'))
    && value.toList.all (fun c => isPortableStart c || ['.', '_', '@', '-'].contains c)
    && value.toList.head?.any isPortableStart

/-- What the records of a chain read so far have said. -/
structure SourceChain where
  previousHash : String := ""
  previousTime : Option Instant := none
  seenIDs : List String := []
  seenHashes : List String := []

/-- The zero time, which counts as no time. -/
def zeroTime : Instant := -62135596800000000000

/-- The chain after a record of the given time. -/
def SourceChain.extend (chain : SourceChain) (record : LifecycleMigrationRecord)
    (occurredAt : Instant) : SourceChain :=
  { previousHash := record.sourceEventHash
    previousTime := if occurredAt = zeroTime then none else some occurredAt
    seenIDs := record.sourceEventId :: chain.seenIDs
    seenHashes := record.sourceEventHash :: chain.seenHashes }

/-- Does the record continue the chain at the given place? -/
def SourceChain.continues (chain : SourceChain) (record : LifecycleMigrationRecord)
    (index : Nat) (occurredAt : Instant) : Bool :=
  record.sourceSequence = index + 1 && record.previousSourceHash = chain.previousHash
    && chain.previousTime.all (fun time => decide (time ≤ occurredAt))
    && validDigest record.sourceEventHash && !chain.seenIDs.contains record.sourceEventId
    && !chain.seenHashes.contains record.sourceEventHash

variable (p : Platform)

/-- A record on its own is one that a hash may be taken of. -/
def validateLifecycleHashRecord (apiVersion : String) (record : LifecycleMigrationRecord) :
    Fallible Instant := do
  check (decide (0 < record.sourceSequence) && record.sourceSequence ≤ maxMigrationRecords)
    "lifecycle migration record sourceSequence is invalid"
  check (portableExternalID record.sourceEventId 512)
    "lifecycle migration record sourceEventId is invalid"
  check (record.previousSourceHash = "" || validDigest record.previousSourceHash)
    "lifecycle migration record previousSourceEventHash is invalid"
  let occurredAt ← need record.occurredAt.parse "lifecycle migration record occurredAt is invalid"
  let commands ← record.lifecycleRecordCommands apiVersion
  commands.forM fun command => command.events.forM fun event => do
    let _ ← validateMigratableEventPayload p event
    .ok ()
  .ok occurredAt

/-- The records form a chain of hashes. -/
def validateLifecycleHashRecords (apiVersion : String)
    (records : List LifecycleMigrationRecord) : Fallible SourceChain := do
  check (!records.isEmpty && records.length ≤ maxMigrationRecords)
    "lifecycle migration hash input must contain 1..10000 records"
  records.zipIdx.foldlM (fun chain (record, index) => do
      let occurredAt ← validateLifecycleHashRecord p apiVersion record
      check (chain.continues record index occurredAt)
        "lifecycle migration record is not a contiguous source prefix"
      check (record.lifecycleSourceEventHash p apiVersion = record.sourceEventHash)
        "lifecycle migration record sourceEventHash does not bind its preimage"
      .ok (chain.extend record occurredAt))
    {}

/-- The digest of the records, under the separator of their format. -/
def lifecycleRecordsDigest (manifest : LifecycleMigrationManifest) : Fallible String := do
  let bundles := manifest.records.any LifecycleMigrationRecord.usesBundle
  let apiVersion := if bundles then lifecycleMigrationBundleAPIVersion
    else lifecycleMigrationAPIVersion
  let _ ← validateLifecycleHashRecords p apiVersion manifest.records
  .ok (p.hash.requestDigest
    (if bundles then "dagrail-lifecycle-migration-records-v2"
      else "dagrail-lifecycle-migration-records-v1")
    manifest.recordsDocument)

/-- The hash that an operator is told out of band: of the manifest without its own hash. -/
def lifecycleSourceAuthorityHash (manifest : LifecycleMigrationManifest) : Fallible String := do
  let source := manifest.source
  check ([lifecycleMigrationAPIVersion, lifecycleMigrationBundleAPIVersion].contains
      manifest.apiVersion)
    "unsupported lifecycle migration contract"
  check (manifest.kind = "LifecycleMigration") "lifecycle migration kind is invalid"
  check (canonicalUUID manifest.projectId) "lifecycle migration projectId is invalid"
  check (validBareHash manifest.graphRevision && validBareHash manifest.expectedJournalHead)
    "lifecycle migration target hashes are invalid"
  check (portableExternalID source.system 256 && portableExternalID source.project 512
      && decide (0 < source.headSequence) && source.headSequence ≤ maxMigrationRecords
      && portableExternalID source.headEventId 512 && validDigest source.headEventHash)
    "lifecycle migration source authority is incomplete"
  check (source.authorityHash = "" || validDigest source.authorityHash)
    "lifecycle migration source authorityHash is invalid"
  let _ ← validateLifecycleHashRecords p manifest.apiVersion manifest.records
  check (manifest.records.length = source.headSequence
      && manifest.records.getLast?.any fun last =>
        last.sourceEventId = source.headEventId && last.sourceEventHash = source.headEventHash)
    "lifecycle migration source head does not match its records"
  let digest ← lifecycleRecordsDigest p manifest
  check (validDigest manifest.recordsDigest && manifest.recordsDigest = digest)
    "lifecycle migration recordsDigest does not match its records"
  .ok (p.hash.requestDigest
    (if manifest.apiVersion = lifecycleMigrationBundleAPIVersion then
        "dagrail-lifecycle-source-authority-v2"
      else "dagrail-lifecycle-source-authority-v1")
    (manifest.documentWith "" manifest.recordsDocument))

end Dagrail
