import Dagrail.Journal.Restore

/-!
# Writing a journal

A journal is written by appending the segment of a command, by establishing its authority, and by
retiring it. Each of them reads the whole journal first, under the lock, and writes one file
(`internal/journal/journal.go`).
-/

namespace Dagrail

namespace Journal

/-! ### What is written -/

/-- What a writer needs: the hash of segments, the digest of documents, and the screen that lets a
document pass which has nothing in it that must not be kept. -/
structure Writers where
  hash : SegmentHash
  digest : Json → Hex
  screen : Json → Bool

/-- A document passes if it is fit for authority and the screen lets it pass. -/
def Writers.rejectSensitiveFields (writers : Writers) (document : Json) : Fallible Unit := do
  check document.validateAuthority "authority JSON"
  check (writers.screen document) "field may contain a secret; store an external reference instead"

/-- The event with the schema version it is written with. -/
def Event.versioned (event : Event) : Event :=
  if event.schemaVersion = 0 then { event with schemaVersion := currentEventSchemaVersion }
  else event

/-- An event that is prepared for a segment. -/
def prepareEvent (writers : Writers) (event : Event) : Fallible Event := do
  check (event.versioned.schemaVersion = currentEventSchemaVersion)
    "event uses unsupported schema version"
  validateEvent event.versioned
  writers.rejectSensitiveFields (event.payload.getD .null)
  .ok event.versioned

/-- The events that are prepared for a segment. -/
def prepareEvents (writers : Writers) (events : List Event) : Fallible (List Event) := do
  check (!events.isEmpty) "journal segment must contain at least one event"
  check (decide (events.length ≤ maxEventsPerSegment)) "journal segment exceeds 10000 events"
  events.mapM (prepareEvent writers)

/-- What a segment is made of besides its place in the chain. -/
structure Contents where
  schemaVersion : Int
  command : Command
  events : List Event
  committedAt : String

/-- The segment with the contents at a place of the chain. -/
def prepareSegment (writers : Writers) (projectId : String) (contents : Contents)
    (previous : RawText) (sequence : Nat) : Fallible Segment := do
  let events ← prepareEvents writers contents.events
  let unsigned : Segment :=
    { schemaVersion := contents.schemaVersion
      sequence
      projectId := .ofString projectId
      previousHash := previous
      command := contents.command
      events
      committedAt := .ofString contents.committedAt
      segmentHash := .empty }
  let segmentHash ← computeHash writers.hash unsigned
  let segment := { unsigned with segmentHash }
  validateCanonicalSegmentBounds segment.document.canon
  .ok segment

/-- Append the segment with the contents at a place of the chain. -/
def appendSegmentWithSchema (writers : Writers) (projectId : String) (contents : Contents)
    (previous : RawText) (sequence : Nat) (fault : Option WriteFault) (dir : Directory) :
    Directory × Fallible Segment :=
  match prepareSegment writers projectId contents previous sequence with
  | .error e => (dir, .error e)
  | .ok segment =>
      match writeFile (temporaryName "segment") dir
          (segmentName sequence segment.segmentHash.decoded) segment.text fault with
      | (dir', .error e) => (dir', .error e)
      | (dir', .ok ()) => (dir', .ok segment)

/-- The sequence number behind segments. -/
def nextSequence (segments : List Segment) : Nat :=
  (segments.getLast?.map fun last => last.sequence + 1).getD 1

/-! ### Appending -/

/-- The stored segment with the key of the command. -/
def findKey (command : Command) (segments : List Segment) : Option Segment :=
  if command.idempotencyKey = .empty then none
  else segments.find? fun existing => existing.command.idempotencyKey = command.idempotencyKey

/-- Is the command one with the intent of the stored one? What the stored one leaves open may be
anything. -/
def sameIntent (existing command : Command) : Bool :=
  existing.kind = command.kind
    && (existing.actorRole = .empty || existing.actorRole = command.actorRole)
    && (existing.objectRef = .empty || existing.objectRef = command.objectRef)
    && (existing.requestDigest = .empty || existing.requestDigest = command.requestDigest)

/-- The checks of a command before the lock is taken. -/
def admitCommand (writers : Writers) (store : Store) (command : Command) : Fallible Unit := do
  check (store.capability ≠ .establishment)
    "authority establishment store cannot accept ordinary journal writes"
  check (store.capability = .ordinary)
    "recovery inspection store cannot accept ordinary journal writes"
  writers.rejectSensitiveFields command.document
  check (command.requestDigest = .empty || validRequestDigest command.requestDigest)
    "journal command request digest is invalid"

/-- The journal starts with the establishment of the project. -/
def requirePrefix (writers : Writers) (store : Store) (segments : List Segment) : Fallible Unit :=
  if store.testAllowUnestablished then .ok ()
  else validateEstablishedAuthorityPrefix writers.digest store.projectId segments

/-- The segments of a journal that may be appended to. -/
def appendable (writers : Writers) (store : Store) (claim : Fallible Unit) (disk : Disk) :
    Fallible (List Segment) := do
  claim
  let retired ← authorityRetirement disk
  check retired.isNone "project authority is retired and cannot accept journal writes"
  let segments ← readAll writers.hash (.ofString store.projectId) disk.journal
  requirePrefix writers store segments
  check (retirementEvent segments).isNone
    "project authority is retired and cannot accept journal writes"
  .ok segments

/-- Append the segment of a command, unless its key is that of a stored segment. The result is the
segment, and whether it is a new one. -/
def appendOnce (writers : Writers) (store : Store) (claim : Fallible Unit) (command : Command)
    (events : List Event) (now : String) (expectedHead : Option RawText)
    (fault : Option WriteFault) (disk : Disk) : Disk × Fallible (Segment × Bool) :=
  match (do admitCommand writers store command; appendable writers store claim disk) with
  | .error e => (disk, .error e)
  | .ok segments =>
      match findKey command segments with
      | some existing =>
          (disk, do
            check (sameIntent existing.command command)
              "idempotency key is already bound to another command intent"
            .ok (existing, false))
      | none =>
          if expectedHead.any (· ≠ headHash segments) then
            (disk, .error "journal head changed; refresh context before retrying")
          else
            match appendSegmentWithSchema writers store.projectId
                ⟨currentSegmentSchemaVersion, command, events, now⟩ (headHash segments)
                (nextSequence segments) fault disk.journal with
            | (journal, .error e) => ({ disk with journal }, .error e)
            | (journal, .ok segment) => ({ disk with journal }, .ok (segment, true))

/-! ### Establishing and retiring -/

/-- Bytes that a caller hands over: how many there are, and the document they spell, if they do. -/
structure RawDocument where
  size : Nat
  document : Option Json

/-- The canonical form of a document of authority. -/
def authorityDocument (writers : Writers) (raw : RawDocument) : Fallible Json := do
  check (decide (0 < raw.size) && decide (raw.size ≤ maxRetirementBytes)) "authority is invalid"
  let document ← need raw.document "authority is invalid"
  check document.validateAuthority "authority JSON"
  writers.rejectSensitiveFields document
  .ok document.canon

/-- What is written for a document of authority: a command that is named by the digest of the
document, and an event with the document. -/
def authorityContents (writers : Writers) (projectId : String) (verb event : String)
    (document : Json) (now : String) : Contents where
  schemaVersion := authorityFenceSchemaVersion
  command :=
    { id := .ofString
        ("authority-" ++ verb ++ "-"
          ++ String.ofList ((writers.digest document).text.toList.take 32))
      kind := .ofString ("authority." ++ verb)
      actorRole := .ofString "dagrail.recovery"
      idempotencyKey := .ofString ("authority-" ++ verb ++ "/" ++ (writers.digest document).text)
      objectRef := .ofString ("project:" ++ projectId)
      requestDigest := .ofString (writers.digest document).digest }
  events := [{ type := .ofString event, schemaVersion := 0, payload := some document }]
  committedAt := now

/-- What is written for an establishment. -/
def establishmentContents (writers : Writers) (projectId : String) (document : Json)
    (now : String) : Contents :=
  authorityContents writers projectId "establish" "authority.established" document now

/-- What is written for a retirement. -/
def retirementContents (writers : Writers) (projectId : String) (document : Json)
    (now : String) : Contents :=
  authorityContents writers projectId "retire" "authority.retired" document now

/-- Is the segment that of the establishment? -/
def isEstablishment (document : Json) (first : Segment) : Bool :=
  first.schemaVersion = authorityFenceSchemaVersion
    && (match first.events with
      | [event] => event.type = .ofString "authority.established" && event.payload = some document
      | _ => false)

/-- What is checked before an establishment: the result is its document and the segments. -/
def establishmentAdmission (writers : Writers) (store : Store) (claim : Fallible Unit)
    (establishment : RawDocument) (disk : Disk) : Fallible (Json × List Segment) := do
  check (store.capability = .establishment)
    "authority establishment requires an establishment-only store"
  let document ← authorityDocument writers establishment
  claim
  let segments ← readAll writers.hash (.ofString store.projectId) disk.journal
  .ok (document, segments)

/-- Establish the authority of a journal. The directory is synchronized again if it was established
before by the same document. -/
def establishAuthority (writers : Writers) (store : Store) (claim : Fallible Unit)
    (establishment : RawDocument) (now : String) (sync : Fallible Unit)
    (fault : Option WriteFault) (disk : Disk) : Disk × Fallible Segment :=
  match establishmentAdmission writers store claim establishment disk with
  | .error e => (disk, .error e)
  | .ok (document, first :: _) =>
      (disk, do
        check (isEstablishment document first) "replacement authority journal is not pristine"
        sync
        .ok first)
  | .ok (document, []) =>
      match appendSegmentWithSchema writers store.projectId
          (establishmentContents writers store.projectId document now) .empty 1 fault
          disk.journal with
      | (journal, .error e) => ({ disk with journal }, .error e)
      | (journal, .ok segment) => ({ disk with journal }, .ok segment)

/-- What a retirement is called with: the answers to what is reserved (for no digest, and for a
digest), and the calls it makes. -/
structure RetireCalls where
  requireClaim : Bool
  claim : Fallible Unit
  reserved : String → Fallible Unit
  reservationDigest : String
  validate : Option (List Segment → Fallible Unit)
  sameIntent : Option (Json → Fallible Unit)
  apply : Option (Json → Fallible Unit)

/-- The claim of the authority, where one is asked for. -/
def RetireCalls.checkClaim (calls : RetireCalls) : Fallible Unit :=
  if calls.requireClaim then calls.claim else .ok ()

/-- The establishment of the project, where a claim is asked for. -/
def RetireCalls.checkPrefix (calls : RetireCalls) (writers : Writers) (store : Store)
    (segments : List Segment) : Fallible Unit :=
  if calls.requireClaim then requirePrefix writers store segments else .ok ()

/-- The reservation of a data root, where no claim is asked for. -/
def RetireCalls.checkReservation (calls : RetireCalls) (digest : String) : Fallible Unit :=
  if calls.requireClaim then .ok () else calls.reserved digest

/-- A record of a retirement needs a fence of the same content. -/
def checkSidecar (sidecar fenced : Option Json) : Fallible Unit :=
  match sidecar with
  | none => .ok ()
  | some record => do
      let fence ← need fenced "authority retirement sidecar has no journal fence"
      check (record = fence) "authority retirement sidecar does not match journal fence"

/-- Is a stored retirement the one that is asked for? -/
def RetireCalls.checkIntent (calls : RetireCalls) (stored retirement : Json) : Fallible Unit :=
  match calls.sameIntent with
  | none =>
      check (stored = retirement) "project authority is already retired with different intent"
  | some sameIntent => sameIntent stored

/-- What is checked before a retirement: the result is its document and the segments. -/
def retirementAdmission (writers : Writers) (store : Store) (calls : RetireCalls)
    (retirement : RawDocument) (disk : Disk) : Fallible (Json × List Segment) := do
  check (store.capability = if calls.requireClaim then .ordinary else .recovery)
    "authority retirement requires another journal store"
  check calls.apply.isSome "authority retirement requires replacement application"
  let document ← authorityDocument writers retirement
  calls.checkClaim
  let segments ← readAll writers.hash (.ofString store.projectId) disk.journal
  calls.checkPrefix writers store segments
  let sidecar ← authorityRetirement disk
  checkSidecar sidecar (retirementEvent segments)
  .ok (document, segments)

/-- What is checked of a fence that is there. -/
def fencedAdmission (calls : RetireCalls) (fenced retirement : Json) (syncFence : Fallible Unit) :
    Fallible Unit := do
  calls.checkReservation ""
  calls.checkIntent fenced retirement
  syncFence

/-- What is checked before the fence of a retirement is written. -/
def fenceAdmission (calls : RetireCalls) (expectedHead : RawText) (segments : List Segment) :
    Fallible Unit := do
  check (headHash segments = expectedHead) "project authority changed before retirement"
  let validate ← need calls.validate
    "first authority retirement requires a reservation validator"
  validate segments
  calls.checkReservation calls.reservationDigest

/-- The end of a retirement: its record is there or is written, and the retirement is applied. -/
def recordRetirement (calls : RetireCalls) (committed : Json) (syncRecord : Fallible Unit)
    (recordFault : Option WriteFault) (disk : Disk) : Disk × Fallible Json :=
  let applied : Fallible Json := do
    let apply ← need calls.apply "authority retirement requires replacement application"
    apply committed
    .ok committed
  match authorityRetirement disk with
  | .error e => (disk, .error e)
  | .ok (some existing) =>
      (disk, do
        calls.checkIntent existing committed
        syncRecord
        applied)
  | .ok none =>
      match recordFault with
      | some (.before _) => (disk, .error "the record was not written")
      | some .after =>
          ({ disk with sidecar := some (.file (.document committed)) },
            .error "the directory was not synchronized")
      | none => ({ disk with sidecar := some (.file (.document committed)) }, applied)

/-- Retire the authority of a journal. -/
def retireAuthority (writers : Writers) (store : Store) (calls : RetireCalls)
    (expectedHead : RawText) (retirement : RawDocument) (now : String)
    (syncFence syncRecord : Fallible Unit) (fault recordFault : Option WriteFault) (disk : Disk) :
    Disk × Fallible Json :=
  match retirementAdmission writers store calls retirement disk with
  | .error e => (disk, .error e)
  | .ok (document, segments) =>
      match retirementEvent segments with
      | some fenced =>
          match fencedAdmission calls fenced document syncFence with
          | .error e => (disk, .error e)
          | .ok () => recordRetirement calls fenced syncRecord recordFault disk
      | none =>
          match fenceAdmission calls expectedHead segments with
          | .error e => (disk, .error e)
          | .ok () =>
              match appendSegmentWithSchema writers store.projectId
                  (retirementContents writers store.projectId document now) (headHash segments)
                  (nextSequence segments) fault disk.journal with
              | (journal, .error e) => ({ disk with journal }, .error e)
              | (journal, .ok _) =>
                  recordRetirement calls document syncRecord recordFault { disk with journal }

end Journal

end Dagrail
