import Dagrail.Journal.Segment

/-!
# Segment files

The reader of a segment file asks for canonical bytes, and recomputes the hash of the segment from
what it has decoded. Decoding forgives more than the writer ever writes: names in other case, empty
optional members, absent members and `null`. The files that are the writer's own are those that
spell every member as the writer does.
-/

namespace Dagrail

namespace Journal

/-! ### Checks of stored segments -/

def maxSegmentBytes : Nat := 16777216
def maxSegmentCount : Nat := 1000000
def maxEventsPerSegment : Nat := 10000
def legacySegmentSchemaVersion : Int := 1
def previousSegmentSchemaVersion : Int := 2
def currentSegmentSchemaVersion : Int := 3
def authorityFenceSchemaVersion : Int := 4
def currentEventSchemaVersion : Int := 1

/-- A hexadecimal digit in either case. -/
def isHexUnit : Char ⊕ UInt8 → Bool
  | .inl c => isHexDigit c || (decide ('A' ≤ c) && decide (c ≤ 'F'))
  | .inr _ => false

/-- Pairs of hexadecimal digits in either case. -/
def isHexText (t : RawText) : Bool :=
  t.units.length % 2 = 0 && t.units.all isHexUnit

/-- The prefix of a digest and sixty-four hexadecimal digits in either case. -/
def validRequestDigest (t : RawText) : Bool :=
  t.units.take 7 = (RawText.ofString digestPrefix).units && (t.units.drop 7).length = 64
    && (t.units.drop 7).all isHexUnit

/-- Nothing but white space. -/
def blankText (t : RawText) : Bool :=
  t.units.all fun
    | .inl c => isSpace c
    | .inr _ => false

/-- Is the schema version one of those that are read? -/
def supportedSchema (segmentSchema : Int) : Bool :=
  decide (legacySegmentSchemaVersion ≤ segmentSchema)
    && decide (segmentSchema ≤ authorityFenceSchemaVersion)

/-- The command is one that the schema version of its segment may have. -/
def validateStoredCommand (segmentSchema : Int) (command : Command) : Fallible Unit := do
  check (supportedSchema segmentSchema) "unsupported segment schema version"
  check (decide (currentSegmentSchemaVersion ≤ segmentSchema)
      || (command.objectRef = .empty && command.requestDigest = .empty))
    "segment schema version cannot contain v3 command intent fields"
  check (command.requestDigest = .empty || validRequestDigest command.requestDigest)
    "journal command request digest is invalid"

/-- An event has a type and an object as its payload. -/
def validateEvent (event : Event) : Fallible Unit := do
  check (!blankText event.type) "event type is required"
  check (event.payload.any fun
      | .obj _ => true
      | _ => false)
    "event payload must be a JSON object"

/-- The schema version of the events of a segment. -/
def eventSchemaOf (segmentSchema : Int) : Int :=
  if segmentSchema = legacySegmentSchemaVersion then 0 else currentEventSchemaVersion

/-- The events are those that the schema version of their segment may have. -/
def validateStoredEvents (segmentSchema : Int) (events : List Event) : Fallible Unit := do
  check (supportedSchema segmentSchema) "unsupported segment schema version"
  check (!events.isEmpty) "journal segment must contain at least one event"
  check (decide (events.length ≤ maxEventsPerSegment)) "journal segment exceeds 10000 events"
  events.forM fun event => do
    check (event.schemaVersion = eventSchemaOf segmentSchema) "unsupported event schema version"
    validateEvent event

/-- A canonical document of a segment is small enough and fit for authority. -/
def validateCanonicalSegmentBounds (canonical : Json) : Fallible Unit := do
  check (decide (canonical.size ≤ maxSegmentBytes)) "journal segment exceeds 16777216 bytes"
  check canonical.validateAuthority "journal segment authority JSON"

/-- The hash function: the hash of a segment, given the canonical document of the segment without
its hash. The bytes of the previous hash, which go into it as well, are those the document names. -/
abbrev SegmentHash := Json → Hex

/-- The hash of a segment. -/
def computeHash (hash : SegmentHash) (segment : Segment) : Fallible RawText := do
  check (segment.previousHash = .empty || isHexText segment.previousHash)
    "previous journal hash is invalid"
  .ok (.ofString (hash segment.unsigned.canon).text)

/-! ### Files -/

/-- The last digits of a number, as many as asked for. -/
def decimals : Nat → Nat → List Char
  | 0, _ => []
  | width + 1, n => decimals width (n / 10) ++ [Nat.digitChar (n % 10)]

/-- A number in at least twelve digits. -/
def paddedSequence (n : Nat) : List Char :=
  decimals (max 12 (Nat.toDigits 10 n).length) n

/-- The name of the file of a segment. -/
def segmentName (sequence : Nat) (segmentHash : String) : String :=
  String.ofList (paddedSequence sequence ++ '-' :: segmentHash.toList ++ ".json".toList)

/-- The bytes of a file: those of a document written without white space, its members in the order
given, or any other ones. -/
inductive FileText where
  | document (d : Json)
  | other (bytes : List UInt8)
deriving DecidableEq, Inhabited

/-- The number of bytes of a file. -/
def FileText.size : FileText → Nat
  | .document d => d.size
  | .other bytes => bytes.length

/-- The bytes the writer writes for a segment. -/
def Segment.text (segment : Segment) : FileText :=
  .document segment.document.canon

/-- Read the file of the segment at a place of the chain. Bytes that are no document without white
space are not canonical, whatever else is wrong with them. -/
def readSegmentFile (hash : SegmentHash) (projectId : RawText) (name : String) (file : FileText)
    (sequence : Nat) (previous : RawText) : Fallible Segment := do
  check (decide (file.size ≤ maxSegmentBytes)) "journal segment must be no larger than 16777216 bytes"
  match file with
  | .other _ => .error "journal segment is not canonical RFC 8785 JSON"
  | .document d => do
      check d.validateAuthority "decode journal segment"
      let segment ← segmentDecoder.decodeStrict default d
      validateStoredCommand segment.schemaVersion segment.command
      check (d.canon = d) "journal segment is not canonical RFC 8785 JSON"
      check (segment.sequence = sequence && segment.projectId = projectId
          && segment.previousHash = previous)
        "journal chain mismatch"
      let h ← computeHash hash segment
      check (h = segment.segmentHash && name = segmentName segment.sequence h.decoded)
        "journal hash mismatch"
      validateStoredEvents segment.schemaVersion segment.events
      .ok segment

/-- What the reader has checked of a segment it returns. -/
structure Accepted (hash : SegmentHash) (projectId : RawText) (name : String) (d : Json)
    (sequence : Nat) (previous : RawText) (segment : Segment) : Prop where
  small : d.size ≤ maxSegmentBytes
  authority : d.validateAuthority = true
  closed : segmentDecoder.closed d = true
  read : segmentDecoder.read default d = .ok segment
  command : validateStoredCommand segment.schemaVersion segment.command = .ok ()
  canonical : d.canon = d
  sequence_eq : segment.sequence = sequence
  projectId_eq : segment.projectId = projectId
  previous_eq : segment.previousHash = previous
  hashed : computeHash hash segment = .ok segment.segmentHash
  named : name = segmentName segment.sequence segment.segmentHash.decoded
  events : validateStoredEvents segment.schemaVersion segment.events = .ok ()

/-- The reader accepts a file if it is a document that passes its checks. -/
theorem readSegmentFile_eq_ok
    {hash : SegmentHash} {projectId : RawText} {name : String} {file : FileText} {sequence : Nat}
    {previous : RawText} {segment : Segment} :
  readSegmentFile hash projectId name file sequence previous = .ok segment ↔
    ∃ d, file = .document d ∧ Accepted hash projectId name d sequence previous segment
  := by
  unfold readSegmentFile
  cases file with
  | other bytes => simp [check_eq_ok, bind_eq_ok]
  | document d =>
      simp only [bind_eq_ok, check_eq_ok, FileText.size, decide_eq_true_eq, Bool.and_eq_true,
        Decoder.decodeStrict, FileText.document.injEq, exists_eq_left', Except.ok.injEq]
      constructor
      · rintro ⟨_, small, _, authority, _, ⟨_, closed, read⟩, _, command, _, canonical, _,
          ⟨⟨sequence_eq, projectId_eq⟩, previous_eq⟩, h, hashed, _, ⟨rfl, named⟩, _, events, rfl⟩
        exact ⟨of_decide_eq_true small, authority, closed, read, command, canonical, sequence_eq,
          projectId_eq, previous_eq, hashed, named, events⟩
      · rintro ⟨small, authority, closed, read, command, canonical, sequence_eq, projectId_eq,
          previous_eq, hashed, named, events⟩
        exact ⟨(), decide_eq_true small, (), authority, segment, ⟨(), closed, read⟩, (), command, (), canonical, (),
          ⟨⟨sequence_eq, projectId_eq⟩, previous_eq⟩, _, hashed, (), ⟨rfl, named⟩, (), events, rfl⟩

/-! ### Spelling -/

/-- How the writer spells a member: its name, whether it may be left out, and which values it may
have. -/
structure Spelling where
  name : String
  optional : Bool
  value : Json → Bool

/-- Are the members those of the spellings, in their order? -/
def spelledMembers : List Spelling → List (String × Json) → Bool
  | [], members => members.isEmpty
  | rule :: rules, [] => rule.optional && spelledMembers rules []
  | rule :: rules, (name, value) :: members =>
      if name = rule.name then rule.value value && spelledMembers rules members
      else rule.optional && spelledMembers rules ((name, value) :: members)

/-- A text. -/
def isText : Json → Bool
  | .str _ => true
  | _ => false

/-- A text that is not empty. -/
def isFilledText : Json → Bool
  | .str s => s ≠ ""
  | _ => false

/-- A number that is not zero. -/
def isSetNumber : Json → Bool
  | .num n => n ≠ 0
  | _ => false

/-- A number. -/
def isNumber : Json → Bool
  | .num _ => true
  | _ => false

/-- A number that is not negative. -/
def isNatural : Json → Bool
  | .num n => decide (0 ≤ n)
  | _ => false

/-- Does a command have its members under their names, the required ones with texts, the others
with texts that are not empty? -/
def spelledCommand : Json → Bool
  | .obj members =>
      spelledMembers
        [⟨"actorRole", true, isFilledText⟩, ⟨"id", false, isText⟩,
          ⟨"idempotencyKey", false, isText⟩, ⟨"kind", false, isText⟩,
          ⟨"objectRef", true, isFilledText⟩, ⟨"requestDigest", true, isFilledText⟩]
        members
  | _ => false

/-- Does an event have its members under their names, and a schema version only if it is not zero? -/
def spelledEvent : Json → Bool
  | .obj members =>
      spelledMembers
        [⟨"payload", false, fun _ => true⟩, ⟨"schemaVersion", true, isSetNumber⟩,
          ⟨"type", false, isText⟩]
        members
  | _ => false

/-- Does a list have events that are spelled as the writer spells them? -/
def spelledEvents : Json → Bool
  | .arr items => items.all spelledEvent
  | _ => false

/-- Does a segment have all its members under their names, with values of their types, and so have
its command and its events? -/
def spelledSegment : Json → Bool
  | .obj members =>
      spelledMembers
        [⟨"command", false, spelledCommand⟩, ⟨"committedAt", false, isText⟩,
          ⟨"events", false, spelledEvents⟩, ⟨"previousHash", false, isText⟩,
          ⟨"projectId", false, isText⟩, ⟨"schemaVersion", false, isNumber⟩,
          ⟨"segmentHash", false, isText⟩, ⟨"sequence", false, isNatural⟩]
        members
  | _ => false

/-- Does the file spell a segment as the writer does? -/
def FileText.Spelled : FileText → Bool
  | .document d => spelledSegment d
  | .other _ => false

/-! ### Spelled documents are those of segments -/

/-- A required member comes first. -/
theorem spelledMembers_required
    {name : String} {value : Json → Bool} {rules : List Spelling} {members : List (String × Json)}
    (h : spelledMembers (⟨name, false, value⟩ :: rules) members = true) :
  ∃ v rest, members = (name, v) :: rest ∧ value v = true ∧ spelledMembers rules rest = true
  := by
  cases members with
  | nil => simp [spelledMembers] at h
  | cons member rest =>
      obtain ⟨k, v⟩ := member
      simp only [spelledMembers] at h
      split at h
      · rename_i same
        subst same
        simp only [Bool.and_eq_true] at h
        exact ⟨v, rest, rfl, h⟩
      · simp at h

/-- An optional member comes first or not at all. -/
theorem spelledMembers_optional
    {name : String} {value : Json → Bool} {rules : List Spelling} {members : List (String × Json)}
    (h : spelledMembers (⟨name, true, value⟩ :: rules) members = true) :
  (∃ v rest, members = (name, v) :: rest ∧ value v = true ∧ spelledMembers rules rest = true) ∨
    spelledMembers rules members = true
  := by
  cases members with
  | nil => exact Or.inr (by simpa [spelledMembers] using h)
  | cons member rest =>
      obtain ⟨k, v⟩ := member
      simp only [spelledMembers] at h
      split at h
      · rename_i same
        subst same
        simp only [Bool.and_eq_true] at h
        exact Or.inl ⟨v, rest, rfl, h⟩
      · exact Or.inr (by simpa using h)

/-- No further members come. -/
theorem spelledMembers_nil
    {members : List (String × Json)} (h : spelledMembers [] members = true) :
  members = []
  := by
  simpa [spelledMembers] using h

/-- A text is that of some text in memory. -/
theorem isText_eq
    {j : Json} (h : isText j = true) :
  ∃ t : RawText, j = text t
  := by
  cases j with
  | str s => exact ⟨.ofString s, by simp [text]⟩
  | _ => simp [isText] at h

/-- An optional text that is spelled is that of some text in memory, be it there or not. -/
theorem optionalText_eq
    {name : String} {rules : List Spelling} {members : List (String × Json)}
    (h : spelledMembers (⟨name, true, isFilledText⟩ :: rules) members = true) :
  ∃ t rest, members = optionalText name t ++ rest ∧ spelledMembers rules rest = true
  := by
  rcases spelledMembers_optional h with ⟨v, rest, rfl, filled, more⟩ | more
  · cases v with
    | str s =>
        have some_ : s ≠ "" := by simpa [isFilledText] using filled
        refine ⟨.ofString s, rest, ?_, more⟩
        simp [optionalText, text, some_]
    | _ => simp [isFilledText] at filled
  · exact ⟨.empty, members, rfl, more⟩

/-- An optional number that is spelled is there unless it is zero. -/
theorem optionalNumber_eq
    {name : String} {rules : List Spelling} {members : List (String × Json)}
    (h : spelledMembers (⟨name, true, isSetNumber⟩ :: rules) members = true) :
  ∃ n rest, members = optionalNumber name n ++ rest ∧ spelledMembers rules rest = true
  := by
  rcases spelledMembers_optional h with ⟨v, rest, rfl, set_, more⟩ | more
  · cases v with
    | num n =>
        have nonzero : n ≠ 0 := by simpa [isSetNumber] using set_
        exact ⟨n, rest, by simp [optionalNumber, nonzero], more⟩
    | _ => simp [isSetNumber] at set_
  · exact ⟨0, members, rfl, more⟩

/-- A spelled command is the canonical document of a command. -/
theorem spelledCommand_eq
    {d : Json} (h : spelledCommand d = true) :
  ∃ command : Command, command.document.canon = d
  := by
  cases d with
  | obj members =>
      obtain ⟨role, _, rfl, h₁⟩ := optionalText_eq h
      obtain ⟨_, _, rfl, idText, h₂⟩ := spelledMembers_required h₁
      obtain ⟨_, _, rfl, keyText, h₃⟩ := spelledMembers_required h₂
      obtain ⟨_, _, rfl, kindText, h₄⟩ := spelledMembers_required h₃
      obtain ⟨object, _, rfl, h₅⟩ := optionalText_eq h₄
      obtain ⟨digest, _, rfl, h₆⟩ := optionalText_eq h₅
      obtain rfl := spelledMembers_nil h₆
      obtain ⟨id, rfl⟩ := isText_eq idText
      obtain ⟨key, rfl⟩ := isText_eq keyText
      obtain ⟨kind, rfl⟩ := isText_eq kindText
      refine ⟨⟨id, kind, role, key, object, digest⟩, ?_⟩
      rw [Command.document_canon]
      simp
  | _ => simp [spelledCommand] at h

/-- A spelled event in canonical form is the canonical document of an event. -/
theorem spelledEvent_eq
    {d : Json} (h : spelledEvent d = true) (canonical : d.canon = d) :
  ∃ event : Event, event.document.canon = d
  := by
  cases d with
  | obj members =>
      obtain ⟨payload, _, rfl, -, h₁⟩ := spelledMembers_required h
      obtain ⟨version, _, rfl, h₂⟩ := optionalNumber_eq h₁
      obtain ⟨_, _, rfl, typeText, h₃⟩ := spelledMembers_required h₂
      obtain rfl := spelledMembers_nil h₃
      obtain ⟨type, rfl⟩ := isText_eq typeText
      refine ⟨⟨type, version, some payload⟩, ?_⟩
      rw [← canonical, Event.document_canon]
      by_cases noVersion : version = 0 <;>
        simp +decide [optionalNumber, noVersion, Json.canon, Json.canonMembers, Json.sortMembers,
          text, Json.memberLe]
  | _ => simp [spelledEvent] at h

/-- Spelled events in canonical form are the canonical documents of events. -/
theorem spelledEvents_eq
    {items : List Json} (spelled : ∀ item ∈ items, spelledEvent item = true)
    (canonical : items.map Json.canon = items) :
  ∃ events : List Event, events.map (fun event => event.document.canon) = items
  := by
  induction items with
  | nil => exact ⟨[], rfl⟩
  | cons item rest ih =>
      rw [List.forall_mem_cons] at spelled
      simp only [List.map_cons, List.cons.injEq] at canonical
      obtain ⟨event, rfl⟩ := spelledEvent_eq spelled.1 canonical.1
      obtain ⟨events, rfl⟩ := ih spelled.2 canonical.2
      exact ⟨event :: events, rfl⟩

/-- A spelled segment in canonical form is the canonical document of a segment. -/
theorem spelledSegment_eq
    {d : Json} (h : spelledSegment d = true) (canonical : d.canon = d) :
  ∃ segment : Segment, segment.document.canon = d
  := by
  cases d with
  | obj members =>
      obtain ⟨_, _, rfl, commandSpelled, h₁⟩ := spelledMembers_required h
      obtain ⟨_, _, rfl, committedAtText, h₂⟩ := spelledMembers_required h₁
      obtain ⟨events, _, rfl, spelled, h₃⟩ := spelledMembers_required h₂
      obtain ⟨_, _, rfl, previousText, h₄⟩ := spelledMembers_required h₃
      obtain ⟨_, _, rfl, projectIdText, h₅⟩ := spelledMembers_required h₄
      obtain ⟨schema, _, rfl, number, h₆⟩ := spelledMembers_required h₅
      obtain ⟨_, _, rfl, segmentHashText, h₇⟩ := spelledMembers_required h₆
      obtain ⟨sequence, _, rfl, natural, h₈⟩ := spelledMembers_required h₇
      obtain rfl := spelledMembers_nil h₈
      obtain ⟨command, rfl⟩ := spelledCommand_eq commandSpelled
      obtain ⟨committedAt, rfl⟩ := isText_eq committedAtText
      obtain ⟨previous, rfl⟩ := isText_eq previousText
      obtain ⟨projectId, rfl⟩ := isText_eq projectIdText
      obtain ⟨segmentHash, rfl⟩ := isText_eq segmentHashText
      obtain ⟨schema, rfl⟩ : ∃ n, schema = .num n := by
        cases schema with
        | num n => exact ⟨n, rfl⟩
        | _ => simp [isNumber] at number
      obtain ⟨sequence, rfl⟩ : ∃ n : Nat, sequence = .num n := by
        cases sequence with
        | num n =>
            have nonneg : 0 ≤ n := by simpa [isNatural] using natural
            exact ⟨n.toNat, by rw [Int.toNat_of_nonneg nonneg]⟩
        | _ => simp [isNatural] at natural
      obtain ⟨items, rfl⟩ : ∃ items, events = .arr items := by
        cases events with
        | arr items => exact ⟨items, rfl⟩
        | _ => simp [spelledEvents] at spelled
      simp only [spelledEvents, List.all_eq_true] at spelled
      -- the items of a canonical document are canonical
      have items_canon : items.map Json.canon = items := by
        simp +decide [Json.canon, Json.canonMembers, Json.canonItems_eq_map, Json.sortMembers, text,
          Json.memberLe] at canonical
        exact canonical.2
      obtain ⟨events, rfl⟩ := spelledEvents_eq spelled items_canon
      refine ⟨⟨schema, sequence, projectId, previous, command, events, committedAt, segmentHash⟩, ?_⟩
      rw [Segment.document_canon]
  | _ => simp [spelledSegment] at h

/-- The canonical document of a command is spelled. -/
theorem spelledCommand_document
    (command : Command) :
  spelledCommand command.document.canon = true
  := by
  rw [Command.document_canon]
  obtain ⟨id, kind, role, key, object, digest⟩ := command
  by_cases noRole : role = .empty <;> by_cases noObject : object = .empty <;>
    by_cases noDigest : digest = .empty <;>
    simp +decide [optionalText, noRole, noObject, noDigest, spelledCommand, spelledMembers, text,
      isText, isFilledText]

/-- The canonical document of an event is spelled. -/
theorem spelledEvent_document
    (event : Event) :
  spelledEvent event.document.canon = true
  := by
  rw [Event.document_canon]
  obtain ⟨type, version, payload⟩ := event
  by_cases noVersion : version = 0 <;>
    simp +decide [optionalNumber, noVersion, spelledEvent, spelledMembers, text, isText, isSetNumber]

/-- The canonical document of a segment is spelled. -/
theorem spelledSegment_document
    (segment : Segment) :
  spelledSegment segment.document.canon = true
  := by
  have command := spelledCommand_document segment.command
  have events : ∀ event ∈ segment.events, spelledEvent event.document.canon = true :=
    fun event _ => spelledEvent_document event
  rw [Segment.document_canon]
  simp [spelledSegment, spelledMembers, text, isText, isNumber, isNatural, spelledEvents, command]
  exact events

/-! ### The reader and the writer -/

/-- An accepted file has the bytes the writer writes for the segment it reads as, if and only if it
spells the segment as the writer does. -/
theorem accepted_written_iff
    {hash : SegmentHash} {projectId : RawText} {name : String} {file : FileText} {sequence : Nat}
    {previous : RawText} {segment : Segment}
    (accepted : readSegmentFile hash projectId name file sequence previous = .ok segment) :
  file = segment.text ↔ file.Spelled = true
  := by
  obtain ⟨d, rfl, checked⟩ := readSegmentFile_eq_ok.mp accepted
  constructor
  · intro written
    rw [written]
    exact spelledSegment_document segment
  · intro spelled
    obtain ⟨source, rfl⟩ := spelledSegment_eq spelled checked.canonical
    have read := checked.read
    rw [source.read_canon] at read
    obtain rfl := Except.ok.inj read
    rw [Segment.text, Segment.document_canonical]

/-- Two files that are spelled as the writer spells them and read as one segment are one file. -/
theorem spelled_unique
    {hash : SegmentHash} {projectId : RawText} {name name' : String} {file file' : FileText}
    {sequence sequence' : Nat} {previous previous' : RawText} {segment : Segment}
    (accepted : readSegmentFile hash projectId name file sequence previous = .ok segment)
    (accepted' : readSegmentFile hash projectId name' file' sequence' previous' = .ok segment)
    (spelled : file.Spelled = true) (spelled' : file'.Spelled = true) :
  file = file'
  := by
  rw [(accepted_written_iff accepted).mpr spelled, (accepted_written_iff accepted').mpr spelled']

namespace SampleFile

/-- A file with one event, with further members of its command. -/
def file (more : List (String × Json)) : FileText :=
  .document (.obj
    [("command", .obj (more ++ [("id", .str "c"), ("idempotencyKey", .str "k"), ("kind", .str "note")])),
      ("committedAt", .str "1970-01-01T00:00:00Z"),
      ("events", .arr [.obj [("payload", .obj []), ("schemaVersion", .num 1), ("type", .str "noted")]]),
      ("previousHash", .str ""), ("projectId", .str "p"), ("schemaVersion", .num 3),
      ("segmentHash", .str Hex.zero.text), ("sequence", .num 1)])

/-- The file as it is read under a hash that is always zero. -/
def read (file : FileText) : Fallible Segment :=
  readSegmentFile (fun _ => Hex.zero) (.ofString "p") (segmentName 1 Hex.zero.text) file 1 .empty

end SampleFile

open SampleFile in
/-- A file with an empty role is accepted, which the writer would have left out. -/
theorem accepted_not_written :
  ¬ ∀ (hash : SegmentHash) (projectId : RawText) (name : String) (file : FileText) (sequence : Nat)
      (previous : RawText) (segment : Segment),
    readSegmentFile hash projectId name file sequence previous = .ok segment → file = segment.text
  := by
  intro always
  let given := file [("actorRole", .str "")]
  have accepted : (read given).map (fun segment => decide (given = segment.text)) = .ok false := by
    decide
  cases result : read given with
  | error e => simp [result, Except.map] at accepted
  | ok segment =>
      have written := always _ _ _ _ _ _ _ result
      simp [result, Except.map] at accepted
      exact accepted written

open SampleFile in
/-- The condition at the same file without the empty role. -/
theorem accepted_written_iff_plain :
  ∃ segment, SampleFile.read (SampleFile.file []) = .ok segment ∧
    (SampleFile.file [] = segment.text ↔ (SampleFile.file []).Spelled = true)
  := by
  have accepted : (read (file [])).isOk = true := by decide
  cases result : read (file []) with
  | error e => simp [result, Except.isOk, Except.toBool] at accepted
  | ok segment => exact ⟨segment, rfl, accepted_written_iff result⟩

end Journal

end Dagrail
