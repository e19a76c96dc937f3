import Dagrail.Domain.Authority
import Dagrail.Foundation.Text
import Dagrail.Service.Payload

/-!
# Segments of the journal

The journal of a project is a chain of segments, each in a file of its own. A segment carries the
command it was written for and the events of the command, whose payloads are documents. In memory
the texts of a segment are whatever bytes a caller has put there; its document has them as
characters.
-/

namespace Dagrail

/-! ### Texts in memory -/

/-- A text in memory: characters, and bytes that belong to no character. -/
structure RawText where
  units : List (Char ⊕ UInt8)
deriving DecidableEq, Inhabited

namespace RawText

/-- The empty text. -/
def empty : RawText := ⟨[]⟩

/-- The text of the characters of a string. -/
def ofString (s : String) : RawText :=
  ⟨s.toList.map .inl⟩

/-- A unit of a text as the encoder writes it: a byte that belongs to no character becomes the
replacement character. -/
def decodedUnit : Char ⊕ UInt8 → Char
  | .inl c => c
  | .inr _ => '\uFFFD'

/-- The text as the encoder writes it. -/
def decoded (t : RawText) : String :=
  String.ofList (t.units.map decodedUnit)

@[simp]
theorem decoded_ofString
    (s : String) :
  (ofString s).decoded = s
  := by
  simp [decoded, ofString, decodedUnit, Function.comp_def, String.ofList_toList]

/-- A string is determined by its text. -/
theorem ofString_injective :
  Function.Injective ofString
  := by
  intro s s' same
  rw [← decoded_ofString s, same, decoded_ofString]

@[simp]
theorem ofString_empty :
  ofString "" = empty
  := rfl

@[simp]
theorem decoded_empty :
  empty.decoded = ""
  := rfl

/-- Only the empty text is written as nothing. -/
@[simp]
theorem decoded_eq_empty
    (t : RawText) :
  t.decoded = "" ↔ t = empty
  := by
  constructor
  · intro h
    have units := congrArg String.toList h
    simp only [decoded, String.toList_ofList, String.toList_empty, List.map_eq_nil_iff] at units
    cases t
    simp_all [empty]
  · rintro rfl
    rfl

/-- Only the empty string is the empty text. -/
@[simp]
theorem ofString_eq_empty
    (s : String) :
  ofString s = empty ↔ s = ""
  := by
  rw [← ofString_empty]
  exact ofString_injective.eq_iff

end RawText

/-! ### Sizes -/

namespace Json

/-- The number of bytes of a character in a JSON text. -/
def charSize (c : Char) : Nat :=
  if c = '"' ∨ c = '\\' then 2
  else if c.toNat < 0x20 then
    if [0x08, 0x09, 0x0A, 0x0C, 0x0D].contains c.toNat then 2 else 6
  else c.utf8Size

/-- The number of bytes of a text with its quotes. -/
def textSize (s : String) : Nat :=
  2 + s.toList.foldr (fun c n => charSize c + n) 0

/-- The number of bytes of an integer. -/
def numberSize (n : Int) : Nat :=
  (if n < 0 then 1 else 0) + (Nat.toDigits 10 n.natAbs).length

mutual

/-- The number of bytes of the document, written without white space. -/
def size : Json → Nat
  | .null => 4
  | .bool b => if b then 4 else 5
  | .num n => numberSize n
  | .str s => textSize s
  | .arr items => 2 + itemsSize items + (items.length - 1)
  | .obj members => 2 + membersSize members + (members.length - 1)

/-- The number of bytes of the items, without the commas between them. -/
def itemsSize : List Json → Nat
  | [] => 0
  | x :: xs => size x + itemsSize xs

/-- The number of bytes of the members, without the commas between them. -/
def membersSize : List (String × Json) → Nat
  | [] => 0
  | (k, x) :: xs => textSize k + 1 + size x + membersSize xs

end

end Json

namespace Journal

/-! ### Segments -/

/-- A command as the journal records it. -/
structure Command where
  id : RawText
  kind : RawText
  actorRole : RawText
  idempotencyKey : RawText
  objectRef : RawText
  requestDigest : RawText
deriving DecidableEq, Inhabited

/-- An event of a command. An absent payload is no document at all. -/
structure Event where
  type : RawText
  schemaVersion : Int
  payload : Option Json
deriving DecidableEq, Inhabited

/-- A segment. -/
structure Segment where
  schemaVersion : Int
  sequence : Nat
  projectId : RawText
  previousHash : RawText
  command : Command
  events : List Event
  committedAt : RawText
  segmentHash : RawText
deriving DecidableEq, Inhabited

/-- A text as a document. -/
def text (t : RawText) : Json :=
  .str t.decoded

/-- A member that is left out when its text is empty. -/
def optionalText (name : String) (t : RawText) : List (String × Json) :=
  if t = .empty then [] else [(name, text t)]

/-- A member that is left out when its number is zero. -/
def optionalNumber (name : String) (n : Int) : List (String × Json) :=
  if n = 0 then [] else [(name, .num n)]

/-- A command as a document. -/
def Command.document (command : Command) : Json :=
  .obj ([("id", text command.id), ("kind", text command.kind)]
    ++ optionalText "actorRole" command.actorRole
    ++ [("idempotencyKey", text command.idempotencyKey)]
    ++ optionalText "objectRef" command.objectRef
    ++ optionalText "requestDigest" command.requestDigest)

/-- An event as a document. -/
def Event.document (event : Event) : Json :=
  .obj ([("type", text event.type)]
    ++ optionalNumber "schemaVersion" event.schemaVersion
    ++ [("payload", event.payload.getD .null)])

/-- The members of a segment without its hash. -/
def Segment.members (segment : Segment) : List (String × Json) :=
  [("schemaVersion", .num segment.schemaVersion), ("sequence", .num segment.sequence),
    ("projectId", text segment.projectId), ("previousHash", text segment.previousHash),
    ("command", segment.command.document), ("events", .arr (segment.events.map Event.document)),
    ("committedAt", text segment.committedAt)]

/-- A segment without its hash as a document. -/
def Segment.unsigned (segment : Segment) : Json :=
  .obj segment.members

/-- A segment as a document. -/
def Segment.document (segment : Segment) : Json :=
  .obj (segment.members ++ [("segmentHash", text segment.segmentHash)])

/-! ### Reading segments -/

open Decoder

/-- A text field of a record in memory. -/
def rawTextField {σ : Type} (name : String) (get : σ → RawText) (set : σ → RawText → σ) :
    Decoder.Field σ :=
  viaText name RawText.ofString get set

/-- The items of an array, each read onto the item in its place. -/
def readItemsOnto {α : Type} (d : Decoder α) (zero : α) : List α → List Json → Fallible (List α)
  | _, [] => .ok []
  | as, x :: xs => do
      let a ← d.read (as.head?.getD zero) x
      let rest ← readItemsOnto d zero as.tail xs
      .ok (a :: rest)

/-- Items in canonical form read the same. -/
theorem readItemsOnto_canon
    {α : Type} (d : Decoder α) (zero : α) (as : List α) (items : List Json)
    (single : items.all d.single = true) :
  readItemsOnto d zero as (items.map Json.canon) = readItemsOnto d zero as items
  := by
  induction items generalizing as with
  | nil => rfl
  | cons x xs ih =>
      simp only [List.all_cons, Bool.and_eq_true] at single
      simp only [List.map_cons, readItemsOnto]
      rw [d.read_canon _ x single.1, ih as.tail single.2]

/-- An array whose items are read onto those that are there; `null` is the empty list. -/
def listOnto {α : Type} (zero : α) (d : Decoder α) : Decoder (List α) where
  read as j :=
    match j with
    | .null => .ok []
    | .arr items => readItemsOnto d zero as items
    | _ => .error "cannot decode a value into a list field"
  closed j :=
    match j with
    | .arr items => items.all d.closed
    | _ => true
  single j :=
    match j with
    | .arr items => items.all d.single
    | _ => true
  read_canon as j single := by
    cases j with
    | arr items =>
        simp only [Json.canon]
        rw [Json.canonItems_eq_map, readItemsOnto_canon d zero as items single]
    | null | bool | num | str | obj => rfl

def commandDecoder : Decoder Command :=
  .record
    [rawTextField "id" (·.id) fun r v => { r with id := v },
     rawTextField "kind" (·.kind) fun r v => { r with kind := v },
     rawTextField "actorRole" (·.actorRole) fun r v => { r with actorRole := v },
     rawTextField "idempotencyKey" (·.idempotencyKey) fun r v => { r with idempotencyKey := v },
     rawTextField "objectRef" (·.objectRef) fun r v => { r with objectRef := v },
     rawTextField "requestDigest" (·.requestDigest) fun r v => { r with requestDigest := v }]

def eventDecoder : Decoder Event :=
  .record
    [rawTextField "type" (·.type) fun r v => { r with type := v },
     intField "schemaVersion" (·.schemaVersion) fun r v => { r with schemaVersion := v },
     rawField "payload" (·.payload) fun r v => { r with payload := v }]

def segmentDecoder : Decoder Segment :=
  .record
    [intField "schemaVersion" (·.schemaVersion) fun r v => { r with schemaVersion := v },
     natField "sequence" (·.sequence) fun r v => { r with sequence := v },
     rawTextField "projectId" (·.projectId) fun r v => { r with projectId := v },
     rawTextField "previousHash" (·.previousHash) fun r v => { r with previousHash := v },
     fieldOf "command" commandDecoder (·.command) fun r v => { r with command := v },
     fieldOf "events" (listOnto default eventDecoder) (·.events) fun r v => { r with events := v },
     rawTextField "committedAt" (·.committedAt) fun r v => { r with committedAt := v },
     rawTextField "segmentHash" (·.segmentHash) fun r v => { r with segmentHash := v }]

/-! ### Canonical segments -/

end Journal

/-- The text as it is read back after it was written. -/
def RawText.canonical (t : RawText) : RawText :=
  .ofString t.decoded

@[simp]
theorem RawText.decoded_canonical
    (t : RawText) :
  t.canonical.decoded = t.decoded
  := decoded_ofString _

@[simp]
theorem RawText.canonical_ofString
    (s : String) :
  (ofString s).canonical = ofString s
  := by
  rw [canonical, decoded_ofString]

/-- Writing and reading makes no text empty. -/
@[simp]
theorem RawText.canonical_eq_empty
    (t : RawText) :
  t.canonical = empty ↔ t = empty
  := by
  rw [canonical, ofString_eq_empty, decoded_eq_empty]

namespace Journal

/-- The command as it is read back after it was written. -/
def Command.canonical (command : Command) : Command where
  id := command.id.canonical
  kind := command.kind.canonical
  actorRole := command.actorRole.canonical
  idempotencyKey := command.idempotencyKey.canonical
  objectRef := command.objectRef.canonical
  requestDigest := command.requestDigest.canonical

/-- The event as it is read back after it was written. -/
def Event.canonical (event : Event) : Event where
  type := event.type.canonical
  schemaVersion := event.schemaVersion
  payload := some (event.payload.getD .null).canon

/-- The segment as it is read back after it was written. -/
def Segment.canonical (segment : Segment) : Segment where
  schemaVersion := segment.schemaVersion
  sequence := segment.sequence
  projectId := segment.projectId.canonical
  previousHash := segment.previousHash.canonical
  command := segment.command.canonical
  events := segment.events.map Event.canonical
  committedAt := segment.committedAt.canonical
  segmentHash := segment.segmentHash.canonical

/-- A text is written as it is read back. -/
@[simp]
theorem text_canonical
    (t : RawText) :
  text t.canonical = text t
  := by
  simp [text]

@[simp]
theorem optionalText_canonical
    (name : String) (t : RawText) :
  optionalText name t.canonical = optionalText name t
  := by
  simp [optionalText]

/-- Writing a command and what is read back of it gives one document. -/
@[simp]
theorem Command.document_canonical
    (command : Command) :
  command.canonical.document = command.document
  := by
  simp [document, canonical]

/-! ### The documents in canonical form -/

/-- The canonical form of a command lists its members by name. -/
theorem Command.document_canon
    (command : Command) :
  command.document.canon =
    .obj (optionalText "actorRole" command.actorRole
      ++ [("id", text command.id), ("idempotencyKey", text command.idempotencyKey),
        ("kind", text command.kind)]
      ++ optionalText "objectRef" command.objectRef
      ++ optionalText "requestDigest" command.requestDigest)
  := by
  obtain ⟨id, kind, role, key, object, digest⟩ := command
  by_cases noRole : role = .empty <;> by_cases noObject : object = .empty <;>
    by_cases noDigest : digest = .empty <;>
    simp +decide [document, optionalText, noRole, noObject, noDigest, Json.canon, Json.canonMembers,
      Json.sortMembers, text, Json.memberLe]

/-- The canonical form of an event lists its members by name. -/
theorem Event.document_canon
    (event : Event) :
  event.document.canon =
    .obj ([("payload", (event.payload.getD .null).canon)]
      ++ optionalNumber "schemaVersion" event.schemaVersion ++ [("type", text event.type)])
  := by
  obtain ⟨type, version, payload⟩ := event
  by_cases noVersion : version = 0 <;>
    simp +decide [document, optionalNumber, noVersion, Json.canon, Json.canonMembers,
      Json.sortMembers, text, Json.memberLe]

/-- Writing an event and what is read back of it gives one canonical document. -/
@[simp]
theorem Event.document_canonical
    (event : Event) :
  event.canonical.document.canon = event.document.canon
  := by
  rw [document_canon, document_canon]
  simp [canonical, Json.canon_canon]

/-- The canonical form of a segment lists its members by name. -/
theorem Segment.document_canon
    (segment : Segment) :
  segment.document.canon =
    .obj [("command", segment.command.document.canon), ("committedAt", text segment.committedAt),
      ("events", .arr (segment.events.map fun event => event.document.canon)),
      ("previousHash", text segment.previousHash), ("projectId", text segment.projectId),
      ("schemaVersion", .num segment.schemaVersion), ("segmentHash", text segment.segmentHash),
      ("sequence", .num segment.sequence)]
  := by
  simp +decide [document, members, Json.canon, Json.canonMembers, Json.canonItems_eq_map,
    Json.sortMembers, text, Json.memberLe, Function.comp_def]

/-- The canonical form of a segment without its hash lists its members by name. -/
theorem Segment.unsigned_canon
    (segment : Segment) :
  segment.unsigned.canon =
    .obj [("command", segment.command.document.canon), ("committedAt", text segment.committedAt),
      ("events", .arr (segment.events.map fun event => event.document.canon)),
      ("previousHash", text segment.previousHash), ("projectId", text segment.projectId),
      ("schemaVersion", .num segment.schemaVersion), ("sequence", .num segment.sequence)]
  := by
  simp +decide [unsigned, members, Json.canon, Json.canonMembers, Json.canonItems_eq_map,
    Json.sortMembers, text, Json.memberLe, Function.comp_def]

/-- Writing a segment and what is read back of it gives one canonical document. -/
@[simp]
theorem Segment.document_canonical
    (segment : Segment) :
  segment.canonical.document.canon = segment.document.canon
  := by
  rw [document_canon, document_canon]
  simp [canonical, Function.comp_def]

@[simp]
theorem Segment.unsigned_canonical
    (segment : Segment) :
  segment.canonical.unsigned.canon = segment.unsigned.canon
  := by
  rw [unsigned_canon, unsigned_canon]
  simp [canonical, Function.comp_def]

/-! ### Round trips -/

open Decoder

/-- A command that was written is read back. -/
theorem Command.read_document
    (command : Command) :
  commandDecoder.read default command.document = .ok command.canonical
  := by
  obtain ⟨id, kind, role, key, object, digest⟩ := command
  by_cases noRole : role = .empty <;> by_cases noObject : object = .empty <;>
    by_cases noDigest : digest = .empty <;>
    simp +decide [document, optionalText, noRole, noObject, noDigest, commandDecoder,
      Decoder.record, readFields, boundValues, rawTextField, viaText, Decoder.text,
      Field.readValues, Except.map, text, canonical, RawText.canonical, pure, Except.pure]

/-- An event that was written is read back. -/
theorem Event.read_document
    (event : Event) :
  eventDecoder.read default event.document = .ok event.canonical
  := by
  obtain ⟨type, version, payload⟩ := event
  by_cases noVersion : version = 0 <;>
    simp +decide [document, optionalNumber, noVersion, eventDecoder, Decoder.record, readFields,
      boundValues, rawTextField, viaText, intField, rawField, Decoder.text, Decoder.int,
      Decoder.number, Decoder.raw, need, Field.readValues, Except.map, text, canonical,
      RawText.canonical, pure, Except.pure]

/-- Events that were written are read back. -/
theorem readItemsOnto_documents
    (events : List Event) :
  readItemsOnto eventDecoder default [] (events.map Event.document) =
    .ok (events.map Event.canonical)
  := by
  induction events with
  | nil => rfl
  | cons event rest ih =>
      simp only [List.map_cons, readItemsOnto, List.head?_nil, Option.getD_none, List.tail_nil,
        event.read_document, ih, ok_bind]

/-- A segment that was written is read back. -/
theorem Segment.read_document
    (segment : Segment) :
  segmentDecoder.read default segment.document = .ok segment.canonical
  := by
  have command : commandDecoder.read (default : Segment).command segment.command.document =
      .ok segment.command.canonical := segment.command.read_document
  have events : readItemsOnto eventDecoder default (default : Segment).events
      (segment.events.map Event.document) = .ok (segment.events.map Event.canonical) :=
    readItemsOnto_documents segment.events
  simp +decide [document, members, segmentDecoder, Decoder.record, readFields,
      boundValues, rawTextField, viaText, intField, natField, fieldOf, Decoder.text, Decoder.int,
      Decoder.nat, Decoder.number, need, Field.readValues, Except.map, text, canonical, command,
      events, listOnto, RawText.canonical, pure, Except.pure]

/-- A written command binds every field at most once. -/
theorem Command.single_document
    (command : Command) :
  commandDecoder.single command.document = true
  := by
  obtain ⟨id, kind, role, key, object, digest⟩ := command
  by_cases noRole : role = .empty <;> by_cases noObject : object = .empty <;>
    by_cases noDigest : digest = .empty <;>
    simp +decide [document, optionalText, noRole, noObject, noDigest, commandDecoder,
      Decoder.record, fieldSingle, boundValues, rawTextField, viaText, Decoder.text]

/-- A written event binds every field at most once. -/
theorem Event.single_document
    (event : Event) :
  eventDecoder.single event.document = true
  := by
  obtain ⟨type, version, payload⟩ := event
  by_cases noVersion : version = 0 <;>
    simp +decide [document, optionalNumber, noVersion, eventDecoder, Decoder.record, fieldSingle,
      boundValues, rawTextField, viaText, intField, rawField, Decoder.text, Decoder.int,
      Decoder.number, Decoder.raw]

/-- A written segment binds every field at most once. -/
theorem Segment.single_document
    (segment : Segment) :
  segmentDecoder.single segment.document = true
  := by
  have command := segment.command.single_document
  have events : ∀ event ∈ segment.events, eventDecoder.single event.document = true :=
    fun event _ => event.single_document
  simp +decide [document, members, segmentDecoder, Decoder.record, fieldSingle, boundValues,
    rawTextField, viaText, intField, natField, fieldOf, Decoder.text, Decoder.int, Decoder.nat,
    Decoder.number, listOnto, command]
  exact events

/-- A segment is read back from its canonical document. -/
theorem Segment.read_canon
    (segment : Segment) :
  segmentDecoder.read default segment.document.canon = .ok segment.canonical
  := by
  rw [segmentDecoder.read_canon _ _ segment.single_document]
  exact segment.read_document

/-- A canonical document of a command has no further members. -/
theorem Command.closed_canon
    (command : Command) :
  commandDecoder.closed command.document.canon = true
  := by
  rw [document_canon]
  obtain ⟨id, kind, role, key, object, digest⟩ := command
  by_cases noRole : role = .empty <;> by_cases noObject : object = .empty <;>
    by_cases noDigest : digest = .empty <;>
    simp +decide [optionalText, noRole, noObject, noDigest, commandDecoder, Decoder.record,
      rawTextField, viaText, Decoder.text]

/-- A canonical document of an event has no further members. -/
theorem Event.closed_canon
    (event : Event) :
  eventDecoder.closed event.document.canon = true
  := by
  rw [document_canon]
  obtain ⟨type, version, payload⟩ := event
  by_cases noVersion : version = 0 <;>
    simp +decide [optionalNumber, noVersion, eventDecoder, Decoder.record, rawTextField, viaText,
      intField, rawField, Decoder.text, Decoder.int, Decoder.number, Decoder.raw]

/-- A canonical document of a segment has no further members. -/
theorem Segment.closed_canon
    (segment : Segment) :
  segmentDecoder.closed segment.document.canon = true
  := by
  have command := segment.command.closed_canon
  have events : ∀ event ∈ segment.events, eventDecoder.closed event.document.canon = true :=
    fun event _ => event.closed_canon
  rw [document_canon]
  simp +decide [segmentDecoder, Decoder.record, rawTextField, viaText, intField, natField, fieldOf,
    Decoder.text, Decoder.int, Decoder.nat, Decoder.number, listOnto, command]
  exact events

/-! ### What is read is read back -/

/-- Reading items onto those that are there keeps what the items have. -/
theorem listOnto_keeps
    {α : Type} {zero : α} {d : Decoder α} {P : α → Prop} (reader : d.Keeps P) (start : P zero) :
  (listOnto zero d).Keeps (fun as => ∀ a ∈ as, P a)
  := by
  have items : ∀ (items : List Json) (as bs : List α), (∀ a ∈ as, P a) →
      readItemsOnto d zero as items = .ok bs → ∀ b ∈ bs, P b := by
    intro items
    induction items with
    | nil =>
        intro as bs _ read
        obtain rfl := Except.ok.inj read
        simp
    | cons x xs ih =>
        intro as bs holds read
        simp only [readItemsOnto, bind_eq_ok, Except.ok.injEq] at read
        obtain ⟨a, first, rest, more, rfl⟩ := read
        rw [List.forall_mem_cons]
        refine ⟨reader _ x a ?_ first, ih as.tail rest ?_ more⟩
        · cases as with
          | nil => exact start
          | cons a as => exact holds a (by simp)
        · exact fun a mem => holds a (List.mem_of_mem_tail mem)
  intro as j bs holds read
  cases j with
  | null =>
      obtain rfl := Except.ok.inj read
      simp
  | arr list => exact items list as bs holds read
  | _ => simp [listOnto] at read

/-- A text field of a record keeps that the texts of the record are read back as they are. -/
theorem rawTextField_keeps
    {σ : Type} {name : String} {getText : σ → RawText} {setText : σ → RawText → σ} {P : σ → Prop}
    (get : ∀ s, P s → (getText s).canonical = getText s)
    (set : ∀ s t, P s → t.canonical = t → P (setText s t)) :
  (rawTextField name getText setText).Keeps P
  := Field.keeps (text_keeps RawText.canonical_ofString) get set

/-- A command that was read is read back as it is. -/
theorem commandDecoder_keeps :
  commandDecoder.Keeps (fun command => command.canonical = command)
  := by
  apply record_keeps
  simp only [List.forall_mem_cons]
  refine ⟨?_, ?_, ?_, ?_, ?_, ?_, by simp⟩ <;> apply rawTextField_keeps <;>
    rintro ⟨_, _, _, _, _, _⟩ <;> simp +contextual [Command.canonical]

/-- The texts and the document of an event are read back as they are. -/
structure Event.Read (event : Event) : Prop where
  type_eq : event.type.canonical = event.type
  payload_eq : ∀ document, event.payload = some document → document.canon = document

/-- An event that was read is read back as it is. -/
theorem eventDecoder_keeps :
  eventDecoder.Keeps Event.Read
  := by
  have document : Decoder.raw.Keeps fun payload => ∀ d, payload = some d → d.canon = d := by
    intro a j b _ read d same
    obtain rfl := Except.ok.inj read
    obtain rfl := Option.some.inj same
    exact j.canon_canon
  apply record_keeps
  simp only [List.forall_mem_cons]
  refine ⟨rawTextField_keeps (fun _ read => read.type_eq) fun _ _ read same =>
    ⟨same, read.payload_eq⟩, ?_, ?_, by simp⟩
  · exact Field.keeps (keeps_of_all fun _ => trivial) (fun _ _ => trivial)
      fun _ _ read _ => ⟨read.type_eq, read.payload_eq⟩
  · exact Field.keeps document (fun _ read => read.payload_eq)
      fun _ _ read same => ⟨read.type_eq, same⟩

/-- The texts, the command and the events of a segment are read back as they are. -/
structure Segment.Read (segment : Segment) : Prop where
  projectId_eq : segment.projectId.canonical = segment.projectId
  previousHash_eq : segment.previousHash.canonical = segment.previousHash
  command_eq : segment.command.canonical = segment.command
  events_read : ∀ event ∈ segment.events, event.Read
  committedAt_eq : segment.committedAt.canonical = segment.committedAt
  segmentHash_eq : segment.segmentHash.canonical = segment.segmentHash

/-- A segment that was read is read back as it is. -/
theorem segmentDecoder_keeps :
  segmentDecoder.Keeps Segment.Read
  := by
  apply record_keeps
  simp only [List.forall_mem_cons]
  refine ⟨?_, ?_, ?_, ?_, ?_, ?_, ?_, ?_, by simp⟩
  · exact Field.keeps (keeps_of_all fun _ => trivial) (fun _ _ => trivial)
      fun _ _ read _ => ⟨read.projectId_eq, read.previousHash_eq, read.command_eq,
        read.events_read, read.committedAt_eq, read.segmentHash_eq⟩
  · exact Field.keeps (keeps_of_all fun _ => trivial) (fun _ _ => trivial)
      fun _ _ read _ => ⟨read.projectId_eq, read.previousHash_eq, read.command_eq,
        read.events_read, read.committedAt_eq, read.segmentHash_eq⟩
  · exact rawTextField_keeps (fun _ read => read.projectId_eq)
      fun _ _ read same => ⟨same, read.previousHash_eq, read.command_eq, read.events_read,
        read.committedAt_eq, read.segmentHash_eq⟩
  · exact rawTextField_keeps (fun _ read => read.previousHash_eq)
      fun _ _ read same => ⟨read.projectId_eq, same, read.command_eq, read.events_read,
        read.committedAt_eq, read.segmentHash_eq⟩
  · exact Field.keeps commandDecoder_keeps (fun _ read => read.command_eq)
      fun _ _ read same => ⟨read.projectId_eq, read.previousHash_eq, same, read.events_read,
        read.committedAt_eq, read.segmentHash_eq⟩
  · exact Field.keeps (listOnto_keeps eventDecoder_keeps
      ⟨rfl, fun _ empty => absurd empty (Option.some_ne_none _).symm⟩)
      (fun _ read => read.events_read)
      fun _ _ read same => ⟨read.projectId_eq, read.previousHash_eq, read.command_eq, same,
        read.committedAt_eq, read.segmentHash_eq⟩
  · exact rawTextField_keeps (fun _ read => read.committedAt_eq)
      fun _ _ read same => ⟨read.projectId_eq, read.previousHash_eq, read.command_eq,
        read.events_read, same, read.segmentHash_eq⟩
  · exact rawTextField_keeps (fun _ read => read.segmentHash_eq)
      fun _ _ read same => ⟨read.projectId_eq, read.previousHash_eq, read.command_eq,
        read.events_read, read.committedAt_eq, same⟩

/-- An event that is read back as it is and has a document is its own canonical form. -/
theorem Event.canonical_of_read
    {event : Event} (read : event.Read) (document : event.payload.isSome = true) :
  event.canonical = event
  := by
  obtain ⟨type, version, payload⟩ := event
  obtain ⟨d, rfl⟩ := Option.isSome_iff_exists.mp document
  have type_eq : type.canonical = type := read.type_eq
  have payload_eq : d.canon = d := read.payload_eq d rfl
  simp [canonical, type_eq, payload_eq]

/-- A segment that was read, whose events have documents, is its own canonical form. -/
theorem Segment.canonical_of_read
    {segment : Segment} {d : Json} (read : segmentDecoder.read default d = .ok segment)
    (documents : ∀ event ∈ segment.events, event.payload.isSome = true) :
  segment.canonical = segment
  := by
  have start : (default : Segment).Read := ⟨rfl, rfl, rfl, nofun, rfl, rfl⟩
  obtain ⟨projectId_eq, previousHash_eq, command_eq, events_read, committedAt_eq, segmentHash_eq⟩ :=
    segmentDecoder_keeps _ _ _ start read
  have events : segment.events.map Event.canonical = segment.events.map id :=
    List.map_congr_left fun event mem =>
      Event.canonical_of_read (events_read event mem) (documents event mem)
  rw [List.map_id] at events
  simp only [canonical, projectId_eq, previousHash_eq, command_eq, events, committedAt_eq,
    segmentHash_eq]

end Journal

end Dagrail
