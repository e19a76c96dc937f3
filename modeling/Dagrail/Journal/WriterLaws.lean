import Dagrail.Journal.Writer

/-!
# What is written is read back

A write that succeeds leaves a directory that stores the old segments and, unless it was a repeated
one, the new one behind them. Such a directory is read exactly when it does not have too many
segments, which no writer counts.
-/

namespace Dagrail

namespace Journal

section Laws

/-- A changed result that is accepted comes from an accepted one. -/
theorem map_eq_ok
    {α β : Type} {f : α → β} {x : Fallible α} {b : β} :
  x.map f = .ok b ↔ ∃ a, x = .ok a ∧ f a = b
  := by
  cases x with
  | error e => simp [Except.map]
  | ok a => simp [Except.map]

/-! ### Prepared segments -/

variable {writers : Writers} {projectId : String}

/-- Prepared events have their schema version, are valid, and are the given ones otherwise. -/
theorem mapM_prepareEvent
    {events prepared : List Event} (done : events.mapM (prepareEvent writers) = .ok prepared) :
  prepared = events.map Event.versioned
    ∧ ∀ event ∈ prepared, event.schemaVersion = currentEventSchemaVersion
      ∧ validateEvent event = .ok ()
  := by
  induction events generalizing prepared with
  | nil =>
      obtain rfl := Except.ok.inj done
      simp
  | cons event rest ih =>
      simp only [List.mapM_cons, bind_eq_ok, pure_eq_ok] at done
      obtain ⟨first, one, more, others, rfl⟩ := done
      obtain ⟨rfl, all⟩ := ih others
      simp only [prepareEvent, bind_eq_ok, check_eq_ok, decide_eq_true_eq, Except.ok.injEq] at one
      obtain ⟨_, version, _, valid, _, -, rfl⟩ := one
      refine ⟨rfl, fun other mem => ?_⟩
      rcases List.mem_cons.mp mem with rfl | mem
      · exact ⟨version, valid⟩
      · exact all other mem

/-- Prepared events may be stored in segments of the present and the fence schema. -/
theorem prepareEvents_eq_ok
    {events prepared : List Event} (done : prepareEvents writers events = .ok prepared)
    {schema : Int} (known : schema = currentSegmentSchemaVersion
      ∨ schema = authorityFenceSchemaVersion) :
  prepared = events.map Event.versioned ∧ validateStoredEvents schema prepared = .ok ()
  := by
  simp only [prepareEvents, bind_eq_ok, check_eq_ok, decide_eq_true_eq] at done
  obtain ⟨_, some_, _, few, done⟩ := done
  obtain ⟨rfl, valid⟩ := mapM_prepareEvent done
  have supported : supportedSchema schema = true ∧ eventSchemaOf schema = 1 := by
    rcases known with rfl | rfl
    · decide
    · decide
  refine ⟨rfl, ?_⟩
  simp only [validateStoredEvents, bind_eq_ok, check_eq_ok, decide_eq_true_eq, List.isEmpty_map,
    List.length_map]
  refine ⟨(), supported.1, (), some_, (), few, ?_⟩
  rw [forM_eq_ok]
  intro event mem
  obtain ⟨version, accepted⟩ := valid event mem
  simp only [bind_eq_ok, check_eq_ok, decide_eq_true_eq]
  exact ⟨(), version.trans supported.2.symm, accepted⟩

/-- The segment is the next one behind segments, and has the contents as they are read back. -/
structure IsNext (projectId : String) (segments : List Segment) (contents : Contents)
    (segment : Segment) : Prop where
  schemaVersion : segment.schemaVersion = contents.schemaVersion
  sequence : segment.sequence = segments.length + 1
  projectId : segment.projectId = .ofString projectId
  previousHash : segment.previousHash = headHash segments
  command : segment.command = contents.command.canonical
  events : segment.events = contents.events.map fun event => event.versioned.canonical
  committedAt : segment.committedAt = .ofString contents.committedAt

/-- The contents may be written: the schema is that of the present or of fences, and the command one
that such segments have. -/
structure Contents.Writable (contents : Contents) : Prop where
  known : contents.schemaVersion = currentSegmentSchemaVersion
    ∨ contents.schemaVersion = authorityFenceSchemaVersion
  digest : contents.command.requestDigest = .empty
    ∨ validRequestDigest contents.command.requestDigest = true

theorem Contents.Writable.command
    {contents : Contents} (writable : contents.Writable) :
  validateStoredCommand contents.schemaVersion contents.command = .ok ()
  := by
  have schema : supportedSchema contents.schemaVersion = true
      ∧ currentSegmentSchemaVersion ≤ contents.schemaVersion := by
    rcases writable.known with known | known
    · rw [known]
      decide
    · rw [known]
      decide
  simp only [validateStoredCommand, bind_eq_ok, check_eq_ok, Bool.or_eq_true, decide_eq_true_eq]
  exact ⟨(), schema.1, (), .inl schema.2, writable.digest⟩

/-- A prepared segment is valid at its place, and has the contents. -/
theorem prepareSegment_valid
    {contents : Contents} (writable : contents.Writable) {previous : RawText} {sequence : Nat}
    {segment : Segment}
    (done : prepareSegment writers projectId contents previous sequence = .ok segment) :
  ValidAt writers.hash (.ofString projectId) sequence previous segment
    ∧ segment.schemaVersion = contents.schemaVersion ∧ segment.command = contents.command
    ∧ segment.events = contents.events.map Event.versioned
    ∧ segment.committedAt = .ofString contents.committedAt
  := by
  simp only [prepareSegment, bind_eq_ok, Except.ok.injEq] at done
  obtain ⟨prepared, events, h, hashed, _, bounds, rfl⟩ := done
  obtain ⟨rfl, stored⟩ := prepareEvents_eq_ok events writable.known
  simp only [validateCanonicalSegmentBounds, bind_eq_ok, check_eq_ok, decide_eq_true_eq] at bounds
  obtain ⟨_, small, authority⟩ := bounds
  exact ⟨⟨rfl, rfl, rfl, small, authority, writable.command, stored, hashed⟩, rfl, rfl, rfl, rfl⟩

/-! ### Appended segments -/

variable {hash : SegmentHash} {dir : Directory}

/-- Files that are read have the sequence numbers of their places. -/
theorem readFiles_sequence
    {project : RawText} {sequence : Nat} {previous : RawText} {names : List String}
    {segments : List Segment}
    (read : readFiles hash project dir sequence previous names = .ok segments) :
  (segments.getLast?.map fun last => last.sequence + 1).getD sequence = sequence + segments.length
  := by
  induction names generalizing sequence previous segments with
  | nil =>
      obtain rfl := Except.ok.inj read
      rfl
  | cons name rest ih =>
      simp only [readFiles, bind_eq_ok, Except.ok.injEq] at read
      obtain ⟨text, -, segment, accepted, more, read, rfl⟩ := read
      obtain ⟨d, -, checked⟩ := readSegmentFile_eq_ok.mp accepted
      have behind := ih read
      cases last : more.getLast? with
      | none =>
          obtain rfl := List.getLast?_eq_none_iff.mp last
          simp [checked.sequence_eq]
      | some segment' =>
          rw [last] at behind
          simp only [Option.map_some, Option.getD_some] at behind
          simp only [List.getLast?_cons, last, Option.getD_some, Option.map_some,
            List.length_cons]
          omega

/-- Behind stored segments the next number is the one behind their count. -/
theorem Stores.nextSequence
    {segments : List Segment} {project : RawText} (stores : Stores hash project dir segments) :
  nextSequence segments = segments.length + 1
  := by
  have behind := readFiles_sequence stores.read
  rw [Journal.nextSequence, behind, Nat.add_comm]

/-- However an append ends, the directory stores the segments, or the next one behind them, which is
what a success returns. -/
theorem Stores.append
    {segments : List Segment} (stores : Stores writers.hash (.ofString projectId) dir segments)
    (short : segments.length + 1 < 10 ^ 12) {contents : Contents} (writable : contents.Writable)
    {fault : Option WriteFault} {dir' : Directory} {result : Fallible Segment}
    (done : appendSegmentWithSchema writers projectId contents (headHash segments)
      (segments.length + 1) fault dir = (dir', result)) :
  (Stores writers.hash (.ofString projectId) dir' segments ∧ ∀ own, result ≠ .ok own)
    ∨ ∃ segment, IsNext projectId segments contents segment.canonical
      ∧ Stores writers.hash (.ofString projectId) dir' (segments ++ [segment.canonical])
      ∧ ∀ own, result = .ok own → own = segment
  := by
  unfold appendSegmentWithSchema at done
  cases prepared : prepareSegment writers projectId contents (headHash segments)
      (segments.length + 1) with
  | error e =>
      rw [prepared] at done
      cases done
      exact .inl ⟨stores, nofun⟩
  | ok own =>
      rw [prepared] at done
      simp only at done
      obtain ⟨valid, schema, command, events, committed⟩ := prepareSegment_valid writable prepared
      obtain ⟨h, head⟩ := stores.linked.headHash_eq
      have next : IsNext projectId segments contents own.canonical := by
        refine ⟨schema, valid.sequence_eq, ?_, ?_, congrArg Command.canonical command, ?_, ?_⟩
        · simp [Segment.canonical, valid.projectId_eq]
        · simp [Segment.canonical, valid.previous_eq, head]
        · simp [Segment.canonical, events]
        · simp [Segment.canonical, committed]
      cases write : writeFile (temporaryName "segment") dir
          (segmentName (segments.length + 1) own.segmentHash.decoded) own.text fault with
      | mk dir₁ outcome =>
          rw [write] at done
          have grown := (writeFile_written write).stores stores short valid
          cases outcome with
          | error e =>
              cases done
              rcases grown with ⟨-, same⟩ | more
              · exact .inl ⟨same, nofun⟩
              · exact .inr ⟨own, next, more, nofun⟩
          | ok _ =>
              cases done
              refine .inr ⟨own, next, grown.resolve_left ?_, fun other same => ?_⟩
              · rintro ⟨failed, -⟩
                cases failed
              · exact (Except.ok.inj same).symm

/-- A digest is a valid digest of a request. -/
theorem validRequestDigest_digest
    (h : Hex) :
  validRequestDigest (.ofString h.digest) = true
  := by
  have valid := h.valid
  have front : (digestPrefix.toList.map (@Sum.inl Char UInt8)).length = 7 := rfl
  simp only [validBareHash, Bool.and_eq_true, decide_eq_true_eq, List.all_eq_true] at valid
  simp only [validRequestDigest, Hex.digest, RawText.ofString, String.toList_append,
    List.map_append,
    Bool.and_eq_true, decide_eq_true_eq, List.all_eq_true]
  rw [List.take_left' front, List.drop_left' front, List.length_map]
  refine ⟨⟨rfl, valid.1⟩, fun unit mem => ?_⟩
  obtain ⟨c, own, rfl⟩ := List.mem_map.mp mem
  simp [isHexUnit, valid.2 c own]

/-- What is written for an establishment may be written. -/
theorem establishmentContents_writable
    (writers : Writers) (projectId : String) (document : Json) (now : String) :
  (establishmentContents writers projectId document now).Writable
  :=
  ⟨.inr rfl, .inr (validRequestDigest_digest _)⟩

/-- What is written for a retirement may be written. -/
theorem retirementContents_writable
    (writers : Writers) (projectId : String) (document : Json) (now : String) :
  (retirementContents writers projectId document now).Writable
  :=
  ⟨.inr rfl, .inr (validRequestDigest_digest _)⟩

/-- How an append ends: it is refused, its key is stored, or a segment is appended. -/
inductive AppendEnds (writers : Writers) (store : Store) (command : Command) (events : List Event)
    (now : String) (expectedHead : Option RawText) (fault : Option WriteFault) (disk : Disk)
    (outcome : Disk × Fallible (Segment × Bool)) : Prop where
  | refused (message : String) (outcome_eq : outcome = (disk, .error message))
  | known {segments : List Segment} {existing : Segment}
      (read : readAll writers.hash (.ofString store.projectId) disk.journal = .ok segments)
      (unretired : retirementEvent segments = none)
      (found : findKey command segments = some existing)
      (same : sameIntent existing.command command = true)
      (outcome_eq : outcome = (disk, .ok (existing, false)))
  | appended {segments : List Segment}
      (read : readAll writers.hash (.ofString store.projectId) disk.journal = .ok segments)
      (unretired : retirementEvent segments = none) (new : findKey command segments = none)
      (head : ∀ expected, expectedHead = some expected → expected = headHash segments)
      (digest : command.requestDigest = .empty ∨ validRequestDigest command.requestDigest = true)
      (outcome_eq : outcome = (appendSegmentWithSchema writers store.projectId
          ⟨currentSegmentSchemaVersion, command, events, now⟩ (headHash segments)
          (nextSequence segments) fault disk.journal).map (fun journal => { disk with journal })
        (·.map fun segment => (segment, true)))

theorem appendOnce_ends
    (writers : Writers) (store : Store) (claim : Fallible Unit) (command : Command)
    (events : List Event) (now : String) (expectedHead : Option RawText)
    (fault : Option WriteFault) (disk : Disk) :
  AppendEnds writers store command events now expectedHead fault disk
    (appendOnce writers store claim command events now expectedHead fault disk)
  := by
  unfold appendOnce
  cases admitted : (do admitCommand writers store command; appendable writers store claim disk) with
  | error e => exact .refused e rfl
  | ok segments =>
      simp only [bind_eq_ok, admitCommand, appendable, check_eq_ok, Bool.or_eq_true,
        decide_eq_true_eq, Except.ok.injEq] at admitted
      obtain ⟨_, ⟨_, -, _, -, _, -, digest⟩, _, -, _, -, _, -, segments', read, _, -, _, unretired,
        rfl⟩ := admitted
      rw [Option.isNone_iff_eq_none] at unretired
      simp only
      cases found : findKey command segments' with
      | some existing =>
          simp only
          cases same : sameIntent existing.command command with
          | false => exact .refused _ rfl
          | true => exact .known read unretired found same rfl
      | none =>
          simp only
          split_ifs with moved
          · exact .refused _ rfl
          · refine .appended read unretired found (fun expected own => ?_) digest ?_
            · rw [own, Option.any_some, decide_eq_true_eq, not_not] at moved
              exact moved
            · cases appendSegmentWithSchema writers store.projectId
                  ⟨currentSegmentSchemaVersion, command, events, now⟩ (headHash segments')
                  (nextSequence segments') fault disk.journal with
              | mk journal outcome =>
                  cases outcome with
                  | error e => rfl
                  | ok segment => rfl

/-- A document of authority that is accepted is the canonical form of the one handed over. -/
theorem authorityDocument_ok
    {raw : RawDocument} {document : Json} (done : authorityDocument writers raw = .ok document) :
  raw.document.map Json.canon = some document
  := by
  simp only [authorityDocument, bind_eq_ok, need_eq_ok, Except.ok.injEq] at done
  obtain ⟨_, -, own, same, _, -, _, -, rfl⟩ := done
  rw [same]
  rfl

/-- How an establishment ends: it is refused, it was made before, or it is written. -/
inductive EstablishEnds (writers : Writers) (store : Store) (establishment : RawDocument)
    (now : String) (fault : Option WriteFault) (disk : Disk)
    (outcome : Disk × Fallible Segment) : Prop where
  | refused (message : String) (outcome_eq : outcome = (disk, .error message))
  | known {segments : List Segment} {first : Segment}
      (read : readAll writers.hash (.ofString store.projectId) disk.journal = .ok segments)
      (mem : first ∈ segments) (outcome_eq : outcome = (disk, .ok first))
  | appended {document : Json}
      (read : readAll writers.hash (.ofString store.projectId) disk.journal = .ok [])
      (given : establishment.document.map Json.canon = some document)
      (outcome_eq : outcome = (appendSegmentWithSchema writers store.projectId
          (establishmentContents writers store.projectId document now) .empty 1 fault
          disk.journal).map (fun journal => { disk with journal }) id)

theorem establishAuthority_ends
    (writers : Writers) (store : Store) (claim : Fallible Unit) (establishment : RawDocument)
    (now : String) (sync : Fallible Unit) (fault : Option WriteFault) (disk : Disk) :
  EstablishEnds writers store establishment now fault disk
    (establishAuthority writers store claim establishment now sync fault disk)
  := by
  unfold establishAuthority
  cases admitted : establishmentAdmission writers store claim establishment disk with
  | error e => exact .refused e rfl
  | ok own =>
      simp only [establishmentAdmission, bind_eq_ok, Except.ok.injEq] at admitted
      obtain ⟨_, -, document, given, _, -, segments, read, rfl⟩ := admitted
      cases segments with
      | cons first rest =>
          simp only
          cases answer : (do
              check (isEstablishment document first) "replacement authority journal is not pristine"
              sync
              .ok first) with
          | error e => exact .refused e rfl
          | ok same =>
              simp only [bind_eq_ok, Except.ok.injEq] at answer
              obtain ⟨_, -, _, -, rfl⟩ := answer
              exact .known read List.mem_cons_self rfl
      | nil =>
          refine .appended read (authorityDocument_ok given) ?_
          simp only
          cases appendSegmentWithSchema writers store.projectId
              (establishmentContents writers store.projectId document now) .empty 1 fault
              disk.journal with
          | mk journal outcome =>
              cases outcome with
              | error e => rfl
              | ok segment => rfl

/-- Recording a retirement does not touch the journal. -/
theorem recordRetirement_journal
    (calls : RetireCalls) (committed : Json) (syncRecord : Fallible Unit)
    (recordFault : Option WriteFault) (disk : Disk) :
  (recordRetirement calls committed syncRecord recordFault disk).1.journal = disk.journal
  := by
  unfold recordRetirement
  cases authorityRetirement disk with
  | error e => rfl
  | ok record =>
      cases record with
      | some existing => rfl
      | none =>
          cases recordFault with
          | none => rfl
          | some fault =>
              cases fault with
              | before left => rfl
              | after => rfl

/-- A record is made only where there is none. -/
theorem recordRetirement_sidecar
    (calls : RetireCalls) (committed : Json) (syncRecord : Fallible Unit)
    (recordFault : Option WriteFault) (disk : Disk) :
  (recordRetirement calls committed syncRecord recordFault disk).1.sidecar = disk.sidecar
    ∨ (recordRetirement calls committed syncRecord recordFault disk).1.sidecar
      = some (.file (.document committed))
  := by
  unfold recordRetirement
  cases authorityRetirement disk with
  | error e => exact .inl rfl
  | ok record =>
      cases record with
      | some existing => exact .inl rfl
      | none =>
          cases recordFault with
          | none => exact .inr rfl
          | some fault =>
              cases fault with
              | before left => exact .inl rfl
              | after => exact .inr rfl

/-- How a retirement ends: it is refused, its fence is there, or its fence is written. The record is
made behind the fence. -/
inductive RetireEnds (writers : Writers) (store : Store) (calls : RetireCalls)
    (expectedHead : RawText) (retirement : RawDocument) (now : String)
    (syncRecord : Fallible Unit) (fault recordFault : Option WriteFault) (disk : Disk)
    (outcome : Disk × Fallible Json) : Prop where
  | refused (message : String) (outcome_eq : outcome = (disk, .error message))
  | known {segments : List Segment} {fenced document : Json}
      (read : readAll writers.hash (.ofString store.projectId) disk.journal = .ok segments)
      (fence : retirementEvent segments = some fenced)
      (given : retirement.document.map Json.canon = some document)
      (same : calls.checkIntent fenced document = .ok ())
      (outcome_eq : outcome = recordRetirement calls fenced syncRecord recordFault disk)
  | unwritten {segments : List Segment} {document : Json} {message : String} {journal : Directory}
      (read : readAll writers.hash (.ofString store.projectId) disk.journal = .ok segments)
      (unretired : retirementEvent segments = none) (head : headHash segments = expectedHead)
      (given : retirement.document.map Json.canon = some document)
      (appended : appendSegmentWithSchema writers store.projectId
        (retirementContents writers store.projectId document now) (headHash segments)
        (nextSequence segments) fault disk.journal = (journal, .error message))
      (outcome_eq : outcome = ({ disk with journal }, .error message))
  | written {segments : List Segment} {document : Json} {segment : Segment} {journal : Directory}
      (read : readAll writers.hash (.ofString store.projectId) disk.journal = .ok segments)
      (unretired : retirementEvent segments = none) (head : headHash segments = expectedHead)
      (given : retirement.document.map Json.canon = some document)
      (appended : appendSegmentWithSchema writers store.projectId
        (retirementContents writers store.projectId document now) (headHash segments)
        (nextSequence segments) fault disk.journal = (journal, .ok segment))
      (outcome_eq : outcome
        = recordRetirement calls document syncRecord recordFault { disk with journal })

theorem retireAuthority_ends
    (writers : Writers) (store : Store) (calls : RetireCalls) (expectedHead : RawText)
    (retirement : RawDocument) (now : String) (syncFence syncRecord : Fallible Unit)
    (fault recordFault : Option WriteFault) (disk : Disk) :
  RetireEnds writers store calls expectedHead retirement now syncRecord fault recordFault disk
    (retireAuthority writers store calls expectedHead retirement now syncFence syncRecord fault
      recordFault disk)
  := by
  unfold retireAuthority
  cases admitted : retirementAdmission writers store calls retirement disk with
  | error e => exact .refused e rfl
  | ok own =>
      simp only [retirementAdmission, bind_eq_ok, Except.ok.injEq] at admitted
      obtain ⟨_, -, _, -, document, given, _, -, segments, read, _, -, _, -, _, -, rfl⟩ := admitted
      have given := authorityDocument_ok given
      simp only
      cases fence : retirementEvent segments with
      | some fenced =>
          simp only
          cases admission : fencedAdmission calls fenced document syncFence with
          | error e => exact .refused e rfl
          | ok _ =>
              simp only [fencedAdmission, bind_eq_ok] at admission
              obtain ⟨_, -, _, same, -⟩ := admission
              exact .known read fence given same rfl
      | none =>
          simp only
          cases admission : fenceAdmission calls expectedHead segments with
          | error e => exact .refused e rfl
          | ok _ =>
              simp only [fenceAdmission, bind_eq_ok, check_eq_ok, decide_eq_true_eq] at admission
              obtain ⟨_, head, -⟩ := admission
              simp only
              cases appended : appendSegmentWithSchema writers store.projectId
                  (retirementContents writers store.projectId document now) (headHash segments)
                  (nextSequence segments) fault disk.journal with
              | mk journal outcome =>
                  cases outcome with
                  | error e => exact .unwritten read fence head given appended rfl
                  | ok segment => exact .written read fence head given appended rfl

/-! ### Writes -/

/-- A write of a journal, with the answers of what it asks. -/
inductive Write where
  | append (claim : Fallible Unit) (command : Command) (events : List Event)
      (expectedHead : Option RawText)
  | establish (claim : Fallible Unit) (establishment : RawDocument) (sync : Fallible Unit)
  | retire (calls : RetireCalls) (expectedHead : RawText) (retirement : RawDocument)
      (syncFence syncRecord : Fallible Unit) (recordFault : Option WriteFault)

namespace Write

/-- Make the write. The result is the segment it gives, if it gives one. -/
def run (writers : Writers) (store : Store) (now : String) (fault : Option WriteFault)
    (disk : Disk) : Write → Disk × Fallible (Option Segment)
  | .append claim command events expectedHead =>
      (appendOnce writers store claim command events now expectedHead fault disk).map id
        (·.map fun result => some result.1)
  | .establish claim establishment sync =>
      (establishAuthority writers store claim establishment now sync fault disk).map id (·.map some)
  | .retire calls expectedHead retirement syncFence syncRecord recordFault =>
      (retireAuthority writers store calls expectedHead retirement now syncFence syncRecord fault
        recordFault disk).map id (·.map fun _ => none)

/-- What the write writes. -/
def contents (writers : Writers) (projectId now : String) : Write → Option Contents
  | .append _ command events _ => some ⟨currentSegmentSchemaVersion, command, events, now⟩
  | .establish _ establishment _ =>
      (establishment.document.map Json.canon).map (establishmentContents writers projectId · now)
  | .retire _ _ retirement _ _ _ =>
      (retirement.document.map Json.canon).map (retirementContents writers projectId · now)

/-- The write was made before: its key is stored, the authority is established or retired. -/
def Repeated (segments : List Segment) : Write → Prop
  | .append _ command _ _ => (findKey command segments).isSome
  | .establish _ _ _ => segments ≠ []
  | .retire _ _ _ _ _ _ => (retirementEvent segments).isSome

/-- The journal is read back: as it was after a repeated write, else with the next segment, that of
the write, behind the others. What the write gives is in it. -/
def ReadsBack (writers : Writers) (projectId now : String) (segments : List Segment)
    (dir : Directory) (reply : Option Segment) (write : Write) : Prop :=
  (write.Repeated segments ∧ readAll writers.hash (.ofString projectId) dir = .ok segments
      ∧ ∀ own, reply = some own → own ∈ segments)
    ∨ (¬ write.Repeated segments ∧ ∃ contents segment,
      write.contents writers projectId now = some contents
        ∧ IsNext projectId segments contents segment
        ∧ readAll writers.hash (.ofString projectId) dir = .ok (segments ++ [segment])
        ∧ ∀ own, reply = some own → own.canonical = segment)

/-- How a write ends: it is refused, it was made before, or a segment is appended, successfully or
not. A record of a retirement is made only behind its fence. -/
inductive Ends (writers : Writers) (projectId now : String) (fault : Option WriteFault)
    (disk : Disk) (write : Write) (outcome : Disk × Fallible (Option Segment)) : Prop where
  | refused (message : String) (outcome_eq : outcome = (disk, .error message))
  | repeated {segments : List Segment}
      (read : readAll writers.hash (.ofString projectId) disk.journal = .ok segments)
      (known : write.Repeated segments) (journal : outcome.1.journal = disk.journal)
      (sidecar : outcome.1.sidecar = disk.sidecar ∨ ∃ fenced,
        retirementEvent segments = some fenced
          ∧ outcome.1.sidecar = some (.file (.document fenced)))
      (given : ∀ own, outcome.2 = .ok (some own) → own ∈ segments)
  | appended {segments : List Segment} {contents : Contents} {result : Fallible Segment}
      (read : readAll writers.hash (.ofString projectId) disk.journal = .ok segments)
      (new : ¬ write.Repeated segments) (unretired : retirementEvent segments = none)
      (own : write.contents writers projectId now = some contents) (writable : contents.Writable)
      (appended : appendSegmentWithSchema writers projectId contents (headHash segments)
        (nextSequence segments) fault disk.journal = (outcome.1.journal, result))
      (sidecar : outcome.1.sidecar = disk.sidecar ∨ ∃ document segment, result = .ok segment
        ∧ contents = retirementContents writers projectId document now
        ∧ document.canon = document
        ∧ outcome.1.sidecar = some (.file (.document document)))
      (given : ∀ reply, outcome.2 = .ok reply → ∃ segment, result = .ok segment
        ∧ ∀ own, reply = some own → own = segment)

/-- A canonical document that is handed over is its own canonical form. -/
theorem canon_of_given
    {raw : RawDocument} {document : Json} (given : raw.document.map Json.canon = some document) :
  document.canon = document
  := by
  obtain ⟨own, -, rfl⟩ := Option.map_eq_some_iff.mp given
  exact Json.canon_canon own

theorem run_ends
    (writers : Writers) (store : Store) (now : String) (fault : Option WriteFault) (disk : Disk)
    (write : Write) :
  write.Ends writers store.projectId now fault disk (write.run writers store now fault disk)
  := by
  cases write with
  | append claim command events expectedHead =>
      rw [run]
      cases appendOnce_ends writers store claim command events now expectedHead fault disk with
      | refused message outcome_eq =>
          rw [outcome_eq]
          exact .refused message rfl
      | known read unretired found same outcome_eq =>
          rw [outcome_eq]
          refine .repeated read (by simp [Repeated, found]) rfl (.inl rfl) fun own reply => ?_
          obtain rfl := Option.some.inj (Except.ok.inj reply)
          unfold findKey at found
          split_ifs at found
          exact List.mem_of_find?_eq_some found
      | appended read unretired new head digest outcome_eq =>
          rw [outcome_eq]
          refine .appended read (by simp [Repeated, new]) unretired rfl ⟨.inl rfl, digest⟩
            Prod.mk.eta.symm (.inl rfl) fun reply done => ?_
          obtain ⟨pair, made, rfl⟩ := map_eq_ok.mp done
          have made : (appendSegmentWithSchema writers store.projectId
              ⟨currentSegmentSchemaVersion, command, events, now⟩ (headHash _)
              (nextSequence _) fault disk.journal).2.map (fun segment => (segment, true))
              = .ok pair := made
          obtain ⟨segment, appended, rfl⟩ := map_eq_ok.mp made
          exact ⟨segment, appended, fun own same => (Option.some.inj same).symm⟩
  | establish claim establishment sync =>
      rw [run]
      cases establishAuthority_ends writers store claim establishment now sync fault disk with
      | refused message outcome_eq =>
          rw [outcome_eq]
          exact .refused message rfl
      | known read mem outcome_eq =>
          rw [outcome_eq]
          refine .repeated read (List.ne_nil_of_mem mem) rfl (.inl rfl) fun own reply => ?_
          obtain rfl := Option.some.inj (Except.ok.inj reply)
          exact mem
      | appended read given outcome_eq =>
          rename_i document
          rw [outcome_eq]
          refine .appended read (fun known => known rfl) rfl ?_
            (establishmentContents_writable writers store.projectId document now)
            Prod.mk.eta.symm (.inl rfl) fun reply done => ?_
          · rw [contents, given]
            rfl
          · obtain ⟨segment, made, rfl⟩ := map_eq_ok.mp done
            exact ⟨segment, made, fun own same => (Option.some.inj same).symm⟩
  | retire calls expectedHead retirement syncFence syncRecord recordFault =>
      rw [run]
      have silent : ∀ {reply : Option Segment} {result : Fallible Json},
          (result.map fun _ => none) = .ok reply → ∀ own, reply ≠ some own := by
        rintro reply result done own rfl
        obtain ⟨_, -, same⟩ := map_eq_ok.mp done
        cases same
      cases retireAuthority_ends writers store calls expectedHead retirement now syncFence
          syncRecord fault recordFault disk with
      | refused message outcome_eq =>
          rw [outcome_eq]
          exact .refused message rfl
      | known read fence given same outcome_eq =>
          rename_i segments fenced document
          rw [outcome_eq]
          refine .repeated read (by simp [Repeated, fence])
            (recordRetirement_journal calls fenced syncRecord recordFault disk) ?_
            fun own reply => absurd rfl (silent reply own)
          rcases recordRetirement_sidecar calls fenced syncRecord recordFault disk with same | made
          · exact .inl same
          · exact .inr ⟨fenced, fence, made⟩
      | unwritten read unretired head given appended outcome_eq =>
          rename_i segments document message journal
          rw [outcome_eq]
          refine .appended read (by simp [Repeated, unretired]) unretired ?_
            (retirementContents_writable writers store.projectId document now) appended
            (.inl rfl) nofun
          rw [contents, given]
          rfl
      | written read unretired head given appended outcome_eq =>
          rename_i segments document segment journal
          rw [outcome_eq]
          refine .appended read (by simp [Repeated, unretired]) unretired ?_
            (retirementContents_writable writers store.projectId document now) ?_ ?_
            fun reply done => ⟨segment, rfl, fun own same => absurd same (silent done own)⟩
          · rw [contents, given]
            rfl
          · rw [appended]
            exact congrArg (·, _) (recordRetirement_journal calls document syncRecord recordFault
              { disk with journal }).symm
          · rcases recordRetirement_sidecar calls document syncRecord recordFault
              { disk with journal } with same | made
            · exact .inl same
            · exact .inr ⟨document, segment, rfl, rfl, canon_of_given given, made⟩

/-- A journal that is read is far from the numbers with more than twelve digits. -/
theorem short_of_read
    {hash : SegmentHash} {project : RawText} {dir : Directory} {segments : List Segment}
    (read : readAll hash project dir = .ok segments) :
  segments.length + 1 < 10 ^ 12
  := by
  have bound : maxSegmentCount + 1 < 10 ^ 12 := by decide
  have short := (readAll_eq_ok.mp read).2
  omega

end Write

/-- A write that succeeds is read back exactly when it was made before or the journal has fewer
segments than are read. -/
theorem write_reads_back_iff
    {store : Store} {now : String} {fault : Option WriteFault} {write : Write} {disk disk' : Disk}
    {segments : List Segment} {reply : Option Segment}
    (read : readAll writers.hash (.ofString store.projectId) disk.journal = .ok segments)
    (done : write.run writers store now fault disk = (disk', .ok reply)) :
  write.ReadsBack writers store.projectId now segments disk'.journal reply
    ↔ write.Repeated segments ∨ segments.length < maxSegmentCount
  := by
  have ends := write.run_ends writers store now fault disk
  rw [done] at ends
  cases ends with
  | refused message outcome_eq => cases outcome_eq
  | repeated read' known journal sidecar given =>
      obtain rfl := Except.ok.inj (read'.symm.trans read)
      have back : readAll writers.hash (.ofString store.projectId) disk'.journal = .ok _ :=
        (congrArg _ journal).trans read
      refine ⟨fun _ => .inl known, fun _ => .inl ⟨known, back, fun own same => ?_⟩⟩
      exact given own (congrArg Except.ok same)
  | appended read' new unretired own writable appended sidecar given =>
      rename_i segments' contents result
      obtain rfl := Except.ok.inj (read'.symm.trans read)
      have stores := (readAll_eq_ok.mp read).1
      obtain ⟨segment, rfl, gives⟩ := given reply rfl
      rw [stores.nextSequence] at appended
      obtain ⟨_, next, stores', same⟩ := (stores.append (Write.short_of_read read) writable
        appended).resolve_left fun refused => refused.2 segment rfl
      obtain rfl := same segment rfl
      constructor
      · rintro (⟨known, -⟩ | ⟨-, _, other, -, -, back, -⟩)
        · exact absurd known new
        · obtain ⟨-, short⟩ := readAll_eq_ok.mp back
          rw [List.length_append, List.length_singleton] at short
          exact .inr short
      · intro room
        have few := room.resolve_left new
        refine .inr ⟨new, contents, segment.canonical, own, next, ?_, fun other same => ?_⟩
        · rw [readAll_eq_ok]
          refine ⟨stores', ?_⟩
          rw [List.length_append, List.length_singleton]
          exact few
        · rw [gives other same]

end Laws

namespace SampleWrite

/-- Writers with a hash that tells segments apart by their sequence numbers. -/
def writers : Writers where
  hash := SampleRestore.hash
  digest _ := Hex.zero
  screen _ := true

/-- The store in which the authority is established. -/
def store : Store where
  projectId := "p"
  capability := .establishment

/-- The establishment of the project. -/
def establish : Write :=
  .establish (.ok ()) ⟨300, SampleRestore.established.events.head?.bind Event.payload⟩ (.ok ())

end SampleWrite

end Journal

end Dagrail
