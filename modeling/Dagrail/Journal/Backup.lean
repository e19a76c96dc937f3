import Dagrail.Journal.Directory

/-!
# Backups

A backup is the whole journal in one document, under the locator of the project and with a digest
of everything in it. Reading it back validates every segment at its place and recomputes the digest
from what was decoded. A backup of a journal without segments is written with an empty list and
decoded to no list at all, which the digest tells apart.
-/

namespace Dagrail

namespace Journal

open Decoder

/-! ### Envelopes -/

/-- The locator of a project. -/
structure Config where
  apiVersion : RawText
  kind : RawText
  projectId : RawText
  name : RawText
  providers : Option (List RawText)
deriving DecidableEq, Inhabited

/-- A list that is written as `null` when it is not there. -/
def listDocument {α : Type} (document : α → Json) : Option (List α) → Json
  | none => .null
  | some items => .arr (items.map document)

/-- A locator as a document. -/
def Config.document (config : Config) : Json :=
  .obj [("apiVersion", text config.apiVersion), ("kind", text config.kind),
    ("projectId", text config.projectId), ("name", text config.name),
    ("providers", listDocument text config.providers)]

/-- A list of texts that may be absent. -/
def textsDecoder : Decoder (Option (List RawText)) :=
  .list? .empty (.text RawText.ofString)

def configDecoder : Decoder Config :=
  .record
    [rawTextField "apiVersion" (·.apiVersion) fun r v => { r with apiVersion := v },
     rawTextField "kind" (·.kind) fun r v => { r with kind := v },
     rawTextField "projectId" (·.projectId) fun r v => { r with projectId := v },
     rawTextField "name" (·.name) fun r v => { r with name := v },
     fieldOf "providers" textsDecoder (·.providers) fun r v => { r with providers := v }]

/-- A backup: the segments are a list, or no list at all. -/
structure BackupEnvelope where
  apiVersion : RawText
  kind : RawText
  project : Config
  createdAt : RawText
  segments : Option (List Segment)
  digest : RawText
deriving DecidableEq, Inhabited

/-- A backup as a document. -/
def BackupEnvelope.document (envelope : BackupEnvelope) : Json :=
  .obj [("apiVersion", text envelope.apiVersion), ("kind", text envelope.kind),
    ("project", envelope.project.document), ("createdAt", text envelope.createdAt),
    ("segments", listDocument Segment.document envelope.segments),
    ("digest", text envelope.digest)]

/-- The digest of a backup, given the hash of canonical documents under the purpose of backups. -/
def backupDigest (digest : Json → Hex) (envelope : BackupEnvelope) : RawText :=
  .ofString (digest { envelope with digest := .empty }.document.canon).digest

/-- What is reported of a backup. -/
structure BackupReport where
  projectId : RawText
  segments : Nat
  headSequence : Nat
  headHash : RawText
  digest : RawText
deriving DecidableEq

/-- The report of a backup. -/
def backupReport (envelope : BackupEnvelope) : BackupReport where
  projectId := envelope.project.projectId
  segments := (envelope.segments.getD []).length
  headSequence := ((envelope.segments.getD []).getLast?.map Segment.sequence).getD 0
  headHash := headHash (envelope.segments.getD [])
  digest := envelope.digest

def backupAPIVersion : String := "dagrail.io/v1alpha1"
def maxPortableJournalBytes : Nat := 268435456

/-- The bytes of a backup: their number, and the document they are. -/
structure BackupData where
  length : Nat
  document : Json

/-- The backup of segments. -/
def backupEnvelope (digest : Json → Hex) (config : Config) (createdAt : String)
    (segments : List Segment) : BackupEnvelope :=
  let envelope : BackupEnvelope :=
    { apiVersion := .ofString backupAPIVersion
      kind := .ofString "JournalBackup"
      project := config
      createdAt := .ofString createdAt
      segments := some segments
      digest := .empty }
  { envelope with digest := backupDigest digest envelope }

/-- Back up the journal in a directory. The document is followed by a line feed. -/
def createBackup (hash : SegmentHash) (digest : Json → Hex) (config : Config) (createdAt : String)
    (dir : Directory) : Fallible (BackupData × BackupReport) := do
  let segments ← readAll hash config.projectId dir
  let envelope := backupEnvelope digest config createdAt segments
  let canonical := envelope.document.canon
  check (decide (canonical.size + 1 ≤ maxPortableJournalBytes)) "backup exceeds 268435456 bytes"
  .ok (⟨canonical.size + 1, canonical⟩, backupReport envelope)

/-! ### Reading a backup -/

/-- A backup that is being decoded: the project of its segments, and the hash of the last one. -/
structure Decoding where
  envelope : BackupEnvelope := default
  segmentProjectId : RawText := .empty
  previousHash : RawText := .empty
deriving Inhabited

/-- Decode a segment behind those before. -/
def decodeBackupSegment (hash : SegmentHash) (r : Decoding) (raw : Json) : Fallible Decoding := do
  let before := r.envelope.segments.getD []
  check (decide (before.length < maxSegmentCount)) "journal exceeds 1000000 segments"
  check raw.validateAuthority "decode journal segment"
  let segment ← segmentDecoder.decodeStrict default raw
  check (!before.isEmpty || segment.projectId ≠ .empty) "journal segment project ID is required"
  let projectId := if before.isEmpty then segment.projectId else r.segmentProjectId
  let h ← validateSegment hash projectId (before.length + 1) r.previousHash segment
  .ok
    { envelope := { r.envelope with segments := some (before ++ [segment]) }
      segmentProjectId := projectId
      previousHash := h }

/-- Decode the segments. -/
def decodeBackupSegments (hash : SegmentHash) (r : Decoding) : Json → Fallible Decoding
  | .arr items => items.foldlM (decodeBackupSegment hash) r
  | _ => .error "backup segments must be an array"

/-- Decode a text onto one that is there. -/
def decodeText (t : RawText) (j : Json) : Fallible RawText :=
  (Decoder.text RawText.ofString).read t j

/-- Decode a member of a backup. Its name has to be spelled as the writer does. -/
def decodeBackupField (hash : SegmentHash) (r : Decoding) (member : String × Json) :
    Fallible Decoding :=
  if member.1 = "apiVersion" then do
    let v ← decodeText r.envelope.apiVersion member.2
    .ok { r with envelope := { r.envelope with apiVersion := v } }
  else if member.1 = "kind" then do
    let v ← decodeText r.envelope.kind member.2
    .ok { r with envelope := { r.envelope with kind := v } }
  else if member.1 = "project" then do
    check member.2.validateAuthority "decode backup field project"
    let v ← configDecoder.decodeStrict r.envelope.project member.2
    .ok { r with envelope := { r.envelope with project := v } }
  else if member.1 = "createdAt" then do
    let v ← decodeText r.envelope.createdAt member.2
    .ok { r with envelope := { r.envelope with createdAt := v } }
  else if member.1 = "segments" then decodeBackupSegments hash r member.2
  else if member.1 = "digest" then do
    let v ← decodeText r.envelope.digest member.2
    .ok { r with envelope := { r.envelope with digest := v } }
  else .error "backup envelope contains unknown field"

/-- Decode a backup. -/
def decodeBackupEnvelope (hash : SegmentHash) (document : Json) : Fallible BackupEnvelope := do
  let members ← need (match document with
      | .obj members => some members
      | _ => none)
    "backup envelope must be a JSON object"
  let r ← members.foldlM (decodeBackupField hash) {}
  check (r.segmentProjectId = .empty || r.envelope.project.projectId = r.segmentProjectId)
    "backup project does not match journal project"
  .ok r.envelope

/-- Is every value of the document well formed, within a depth and a number of values? -/
def validateAuthorityWithLimits (maxDepth maxValues : Nat) (document : Json) : Bool :=
  document.wellFormed maxDepth && decide (document.values ≤ maxValues)

/-- Decode a backup and check its digest. -/
def decodeBackup (hash : SegmentHash) (digest : Json → Hex) (data : BackupData) :
    Fallible BackupEnvelope := do
  check (decide (data.length ≤ maxPortableJournalBytes)) "backup exceeds 256 MiB limit"
  check (validateAuthorityWithLimits (maxAuthorityDepth + 2) data.length data.document)
    "authority JSON"
  let envelope ← decodeBackupEnvelope hash data.document
  check (envelope.apiVersion = .ofString backupAPIVersion
      && envelope.kind = .ofString "JournalBackup" && envelope.project.projectId ≠ .empty
      && envelope.digest ≠ .empty)
    "invalid DAGrail backup envelope"
  check (envelope.digest = backupDigest digest envelope) "backup digest mismatch"
  .ok envelope

/-! ### What is accepted agrees -/

/-- The digest of a backup is that of its contents, its segments are a chain of its project, and its
report names the head of them. -/
structure BackupEnvelope.Agrees (hash : SegmentHash) (digest : Json → Hex)
    (envelope : BackupEnvelope) : Prop where
  digest_eq : envelope.digest = backupDigest digest envelope
  chain : Chain hash envelope.project.projectId (envelope.segments.getD [])
  headSequence : (backupReport envelope).headSequence = (envelope.segments.getD []).length
  headHash : (backupReport envelope).headHash = Journal.headHash (envelope.segments.getD [])

variable {hash : SegmentHash} {digest : Json → Hex}

/-- What is known while a backup is decoded. -/
structure Decoding.Sound (hash : SegmentHash) (r : Decoding) : Prop where
  named : r.segmentProjectId = .empty ↔ r.envelope.segments = none
  filled : r.envelope.segments ≠ some []
  chain : Chain hash r.segmentProjectId (r.envelope.segments.getD [])
  head : r.previousHash = headHash (r.envelope.segments.getD [])

/-- Decoding a segment keeps it. -/
theorem Decoding.Sound.segment
    {r r' : Decoding} {raw : Json} (sound : r.Sound hash)
    (decoded : decodeBackupSegment hash r raw = .ok r') :
  r'.Sound hash
  := by
  simp only [decodeBackupSegment, bind_eq_ok, check_eq_ok, validateSegment_eq_ok,
    Except.ok.injEq] at decoded
  obtain ⟨_, -, _, -, segment, -, _, named, _, ⟨valid, rfl⟩, rfl⟩ := decoded
  obtain ⟨envelope, projectId, previous⟩ := r
  cases segments : envelope.segments with
  | none =>
      simp only [segments, Option.getD_none, List.isEmpty_nil, Bool.not_true, Bool.false_or,
        decide_not, Bool.not_eq_true', decide_eq_false_iff_not, if_true, List.nil_append] at named valid ⊢
      have previous_eq : previous = headHash [] := by simpa [segments] using sound.head
      rw [previous_eq] at valid
      exact ⟨by simp [named], by simp, .concat [] segment .nil valid, by simp [headHash]⟩
  | some before =>
      cases before with
      | nil => exact absurd segments sound.filled
      | cons first rest =>
          have chain := sound.chain
          have head := sound.head
          have known := sound.named
          simp only [segments, Option.getD_some, List.isEmpty_cons, Bool.false_eq_true, if_false]
            at chain head known valid ⊢
          rw [head] at valid
          refine ⟨by simpa using known, by simp, .concat _ segment chain valid, ?_⟩
          exact (headHash_concat _ _).symm

/-- What does not touch the segments keeps it. -/
theorem Decoding.Sound.of_same
    {r r' : Decoding} (sound : r.Sound hash)
    (segments : r'.envelope.segments = r.envelope.segments)
    (projectId : r'.segmentProjectId = r.segmentProjectId)
    (previous : r'.previousHash = r.previousHash) :
  r'.Sound hash
  := by
  obtain ⟨named, filled, chain, head⟩ := sound
  constructor
  · rw [segments, projectId]
    exact named
  · rw [segments]
    exact filled
  · rw [segments, projectId]
    exact chain
  · rw [segments, previous]
    exact head

/-- Decoding the segments keeps it. -/
theorem Decoding.Sound.segments
    {r r' : Decoding} {value : Json} (sound : r.Sound hash)
    (decoded : decodeBackupSegments hash r value = .ok r') :
  r'.Sound hash
  := by
  cases value with
  | arr items =>
      refine foldlM_invariant (Decoding.Sound hash) ?_ sound decoded
      intro r raw r' _ before step
      exact before.segment step
  | _ => simp [decodeBackupSegments] at decoded

/-- Decoding a member keeps it. -/
theorem Decoding.Sound.field
    {r r' : Decoding} {member : String × Json} (sound : r.Sound hash)
    (decoded : decodeBackupField hash r member = .ok r') :
  r'.Sound hash
  := by
  unfold decodeBackupField at decoded
  split at decoded
  · simp only [bind_eq_ok, Except.ok.injEq] at decoded
    obtain ⟨_, -, rfl⟩ := decoded
    exact sound.of_same rfl rfl rfl
  split at decoded
  · simp only [bind_eq_ok, Except.ok.injEq] at decoded
    obtain ⟨_, -, rfl⟩ := decoded
    exact sound.of_same rfl rfl rfl
  split at decoded
  · simp only [bind_eq_ok, Except.ok.injEq] at decoded
    obtain ⟨_, -, _, -, rfl⟩ := decoded
    exact sound.of_same rfl rfl rfl
  split at decoded
  · simp only [bind_eq_ok, Except.ok.injEq] at decoded
    obtain ⟨_, -, rfl⟩ := decoded
    exact sound.of_same rfl rfl rfl
  split at decoded
  · exact sound.segments decoded
  split at decoded
  · simp only [bind_eq_ok, Except.ok.injEq] at decoded
    obtain ⟨_, -, rfl⟩ := decoded
    exact sound.of_same rfl rfl rfl
  · simp at decoded

/-- The segments of a backup that decodes are a chain of its project. -/
theorem decodeBackupEnvelope_chain
    {document : Json} {envelope : BackupEnvelope}
    (decoded : decodeBackupEnvelope hash document = .ok envelope) :
  Chain hash envelope.project.projectId (envelope.segments.getD [])
  := by
  simp only [decodeBackupEnvelope, bind_eq_ok, check_eq_ok, need_eq_ok, Except.ok.injEq,
    Bool.or_eq_true, decide_eq_true_eq] at decoded
  obtain ⟨members, -, r, fields, _, same, rfl⟩ := decoded
  have start : Decoding.Sound hash {} :=
    ⟨⟨fun _ => rfl, fun _ => rfl⟩, (fun filled => by cases filled), .nil, rfl⟩
  have sound : r.Sound hash := by
    refine foldlM_invariant (Decoding.Sound hash) ?_ start fields
    intro r member r' _ before step
    exact before.field step
  rcases same with unnamed | same
  · rw [sound.named.mp unnamed]
    exact .nil
  · rw [same]
    exact sound.chain

/-- The last segment of a chain has the number of them as its sequence. -/
theorem Chain.headSequence
    {projectId : RawText} {segments : List Segment} (chain : Chain hash projectId segments) :
  (segments.getLast?.map Segment.sequence).getD 0 = segments.length
  := by
  cases chain with
  | nil => rfl
  | concat front last before valid => simp [valid.sequence_eq]

/-- What is accepted agrees. -/
theorem decodeBackup_agrees
    {data : BackupData} {envelope : BackupEnvelope}
    (decoded : decodeBackup hash digest data = .ok envelope) :
  envelope.Agrees hash digest
  := by
  simp only [decodeBackup, bind_eq_ok, check_eq_ok, Except.ok.injEq, decide_eq_true_eq] at decoded
  obtain ⟨_, -, _, -, envelope', contents, _, -, _, digest_eq, rfl⟩ := decoded
  have chain := decodeBackupEnvelope_chain contents
  exact ⟨digest_eq, chain, chain.headSequence, rfl⟩

/-! ### What is written is well formed -/

mutual

/-- A document has no more values than bytes. -/
theorem values_le_size : (j : Json) → j.values ≤ j.size
  | .null => by decide
  | .bool b => by cases b <;> decide
  | .num n => by
      have digits := Nat.length_toDigits_pos (b := 10) (n := n.natAbs)
      simp only [Json.values, Json.size, Json.numberSize]
      omega
  | .str s => by
      simp only [Json.values, Json.size, Json.textSize]
      omega
  | .arr items => by
      have inner := itemValues_le_itemsSize items
      simp only [Json.values, Json.size]
      omega
  | .obj members => by
      have inner := memberValues_le_membersSize members
      simp only [Json.values, Json.size]
      omega

/-- So have its items. -/
theorem itemValues_le_itemsSize : (items : List Json) →
    Json.itemValues items ≤ Json.itemsSize items
  | [] => le_refl _
  | x :: xs => by
      have first := values_le_size x
      have rest := itemValues_le_itemsSize xs
      simp only [Json.itemValues, Json.itemsSize]
      omega

/-- So have its members. -/
theorem memberValues_le_membersSize : (members : List (String × Json)) →
    Json.memberValues members ≤ Json.membersSize members
  | [] => le_refl _
  | (_, x) :: xs => by
      have first := values_le_size x
      have rest := memberValues_le_membersSize xs
      simp only [Json.memberValues, Json.membersSize]
      omega

end

mutual

/-- What is well formed within a depth is well formed within a greater one. -/
theorem wellFormed_mono {d d' : Nat} (le : d ≤ d') : (j : Json) →
    j.wellFormed d = true → j.wellFormed d' = true
  | .null, h => h
  | .bool _, h => h
  | .num _, h => h
  | .str _, h => h
  | .arr items, h => itemsWellFormed_mono le items h
  | .obj members, h => by
      simp only [Json.wellFormed, Bool.and_eq_true] at h ⊢
      exact ⟨h.1, membersWellFormed_mono le members h.2⟩

/-- So are items. -/
theorem itemsWellFormed_mono {d d' : Nat} (le : d ≤ d') : (items : List Json) →
    Json.itemsWellFormed d items = true → Json.itemsWellFormed d' items = true
  | [], _ => rfl
  | x :: xs, h => by
      simp only [Json.itemsWellFormed, Bool.and_eq_true, decide_eq_true_eq] at h ⊢
      obtain ⟨⟨deep, first⟩, rest⟩ := h
      exact ⟨⟨by omega, wellFormed_mono (by omega) x first⟩, itemsWellFormed_mono le xs rest⟩

/-- So are members. -/
theorem membersWellFormed_mono {d d' : Nat} (le : d ≤ d') : (members : List (String × Json)) →
    Json.membersWellFormed d members = true → Json.membersWellFormed d' members = true
  | [], _ => rfl
  | (k, x) :: xs, h => by
      simp only [Json.membersWellFormed, Bool.and_eq_true, decide_eq_true_eq] at h ⊢
      obtain ⟨⟨⟨deep, key⟩, first⟩, rest⟩ := h
      exact ⟨⟨⟨by omega, key⟩, wellFormed_mono (by omega) x first⟩, membersWellFormed_mono le xs rest⟩

end

/-- A text of so many characters has at most four times as many bytes. -/
theorem utf8ByteSize_ofList_le
    (cs : List Char) :
  (String.ofList cs).utf8ByteSize ≤ 4 * cs.length
  := by
  induction cs with
  | nil => simp
  | cons c cs ih =>
      have split : String.ofList (c :: cs) = String.singleton c ++ String.ofList cs := by
        apply String.toList_injective
        simp
      have first : (String.singleton c).utf8ByteSize = c.utf8Size := by simp
      have four := Char.utf8Size_le_four c
      rw [split, String.utf8ByteSize_append, first, List.length_cons]
      omega

/-- A digest is short. -/
theorem utf8ByteSize_digest_le
    (h : Hex) :
  h.digest.utf8ByteSize ≤ maxAuthorityStringBytes
  := by
  have valid := h.valid
  simp only [validBareHash, Bool.and_eq_true, decide_eq_true_eq] at valid
  have text := utf8ByteSize_ofList_le h.text.toList
  rw [String.ofList_toList, valid.1] at text
  have seven : digestPrefix.utf8ByteSize = 7 := by decide
  rw [Hex.digest, String.utf8ByteSize_append, seven]
  unfold maxAuthorityStringBytes
  omega

/-! ### Canonical backups -/

/-- The locator as it is read back after it was written. -/
def Config.canonical (config : Config) : Config where
  apiVersion := config.apiVersion.canonical
  kind := config.kind.canonical
  projectId := config.projectId.canonical
  name := config.name.canonical
  providers := config.providers.map (List.map RawText.canonical)

/-- Writing a locator and what is read back of it gives one document. -/
theorem Config.document_canonical
    (config : Config) :
  config.canonical.document = config.document
  := by
  obtain ⟨apiVersion, kind, projectId, name, providers⟩ := config
  cases providers <;> simp [document, canonical, listDocument, Function.comp_def]

/-- The canonical form of a list of texts is the list. -/
theorem canon_texts
    (providers : Option (List RawText)) :
  (listDocument text providers).canon = listDocument text providers
  := by
  cases providers with
  | none => rfl
  | some items =>
      have same : items.map (Json.canon ∘ text) = items.map text := List.map_congr_left fun _ _ => rfl
      simp only [listDocument, Json.canon, Json.canonItems_eq_map, List.map_map, same]

/-- The canonical form of a locator lists its members by name. -/
theorem Config.document_canon
    (config : Config) :
  config.document.canon =
    .obj [("apiVersion", text config.apiVersion), ("kind", text config.kind),
      ("name", text config.name), ("projectId", text config.projectId),
      ("providers", listDocument text config.providers)]
  := by
  have providers := canon_texts config.providers
  simp +decide [document, Json.canon, Json.canonMembers, Json.sortMembers, text, Json.memberLe,
    providers]

/-- The canonical form of a backup lists its members by name. -/
theorem BackupEnvelope.document_canon
    (envelope : BackupEnvelope) :
  envelope.document.canon =
    .obj [("apiVersion", text envelope.apiVersion), ("createdAt", text envelope.createdAt),
      ("digest", text envelope.digest), ("kind", text envelope.kind),
      ("project", envelope.project.document.canon),
      ("segments", (listDocument Segment.document envelope.segments).canon)]
  := by
  simp +decide [document, Json.canon, Json.canonMembers, Json.sortMembers, text, Json.memberLe]

/-- The segments of a backup in canonical form. -/
theorem canon_segments
    (segments : List Segment) :
  (listDocument Segment.document (some segments)).canon =
    .arr (segments.map fun segment => segment.document.canon)
  := by
  simp [listDocument, Json.canon, Json.canonItems_eq_map, Function.comp_def]

/-- Texts that were written are read back. -/
theorem readItems_texts
    (items : List RawText) :
  readItems (.text RawText.ofString) .empty (items.map text) = .ok (items.map RawText.canonical)
  := by
  induction items with
  | nil => rfl
  | cons item rest ih =>
      simp only [List.map_cons, readItems, ih]
      rfl

/-- A locator is read back from its canonical document. -/
theorem Config.decode_canon
    (config : Config) :
  configDecoder.decodeStrict default config.document.canon = .ok config.canonical
  := by
  rw [document_canon]
  have closed : configDecoder.closed (.obj [("apiVersion", text config.apiVersion),
      ("kind", text config.kind), ("name", text config.name), ("projectId", text config.projectId),
      ("providers", listDocument text config.providers)]) = true := by
    obtain ⟨apiVersion, kind, projectId, name, providers⟩ := config
    cases providers <;>
      simp +decide [configDecoder, Decoder.record, rawTextField, viaText, fieldOf, Decoder.text,
        textsDecoder, Decoder.list?, listDocument]
  have providers : textsDecoder.read (default : Config).providers
      (listDocument text config.providers) =
      .ok (config.providers.map (List.map RawText.canonical)) := by
    cases config.providers with
    | none => rfl
    | some items => simp [textsDecoder, Decoder.list?, listDocument, readItems_texts, Except.map]
  unfold Decoder.decodeStrict
  rw [closed]
  simp +decide [check, configDecoder, Decoder.record, readFields, boundValues, rawTextField, viaText,
    fieldOf, Decoder.text, Field.readValues, Except.map, text, canonical, providers,
    RawText.canonical, pure, Except.pure]

/-! ### The round trip -/

/-- A locator that was opened: it is an authority document, and its project is named by a UUID. -/
structure Config.Opened (config : Config) : Prop where
  authority : config.document.validateAuthority = true
  uuid : ∃ id, canonicalUUID id = true ∧ config.projectId = .ofString id

/-- The project of an opened locator is read back as it is, and has a name. -/
theorem Config.Opened.projectId
    {config : Config} (opened : config.Opened) :
  config.projectId.canonical = config.projectId ∧ config.projectId ≠ .empty
  := by
  obtain ⟨id, valid, same⟩ := opened.uuid
  rw [same]
  refine ⟨RawText.canonical_ofString id, ?_⟩
  intro empty
  rw [RawText.ofString_eq_empty] at empty
  rw [empty] at valid
  exact absurd valid (by decide)

/-- The canonical document of an opened locator is an authority document. -/
theorem Config.Opened.authority_canon
    {config : Config} (opened : config.Opened) :
  config.document.canon.validateAuthority = true
  := by
  have authority := opened.authority
  rw [document_canon]
  simp only [document, Json.validateAuthority, Json.wellFormed, Json.membersWellFormed, Json.values,
    Json.memberValues, text, Bool.and_eq_true, decide_eq_true_eq] at authority ⊢
  obtain ⟨⟨-, h₁, h₂, h₃, h₄, h₅⟩, short⟩ := authority
  exact ⟨⟨by simp, h₁, h₂, h₄, h₃, h₅⟩, short⟩

/-- The documents of segments decode to a chain of segments. -/
theorem decodeBackupSegments_documents
    {projectId : RawText} {segments : List Segment} {envelope : BackupEnvelope}
    (nothing : envelope.segments = none) (named : projectId ≠ .empty)
    (chain : Chain hash projectId segments) (own : segments.map Segment.canonical = segments)
    (short : segments.length ≤ maxSegmentCount) :
  ∃ h, (segments.map fun segment => segment.document.canon).foldlM (decodeBackupSegment hash)
      ⟨envelope, .empty, .empty⟩ =
    .ok ⟨{ envelope with segments := if segments = [] then none else some segments },
      if segments = [] then .empty else projectId, h⟩ ∧ h = headHash segments
  := by
  induction segments using List.reverseRecOn with
  | nil =>
      refine ⟨.empty, ?_, rfl⟩
      simp only [if_true, ← nothing]
      rfl
  | append_singleton front last ih =>
      obtain ⟨before, valid⟩ := chain.last
      rw [List.map_append, List.map_singleton] at own
      obtain ⟨own, last_own⟩ := List.append_inj' own rfl
      have last_own := List.singleton_inj.mp last_own
      rw [List.length_append, List.length_singleton] at short
      obtain ⟨_, decoded, rfl⟩ := ih before own (by omega)
      refine ⟨headHash (front ++ [last]), ?_, rfl⟩
      rw [List.map_append, List.foldlM_append, decoded, ok_bind, List.map_singleton,
        List.foldlM_cons]
      have ne : front ++ [last] ≠ [] := by simp
      have list : (if front = [] then none else some front).getD [] = front := by
        cases front <;> rfl
      have project : (if front.isEmpty then last.projectId
          else if front = [] then RawText.empty else projectId) = projectId := by
        cases front with
        | nil => exact valid.projectId_eq
        | cons first rest => rfl
      have some_ : (!front.isEmpty || decide (last.projectId ≠ .empty)) = true := by
        rw [valid.projectId_eq]
        simp [named]
      have room : decide (front.length < maxSegmentCount) = true := decide_eq_true (by omega)
      have read : segmentDecoder.decodeStrict default last.document.canon = .ok last := by
        unfold Decoder.decodeStrict
        rw [last.closed_canon, last.read_canon, last_own]
        rfl
      have step : decodeBackupSegment hash
          ⟨{ envelope with segments := if front = [] then none else some front },
            if front = [] then .empty else projectId, headHash front⟩ last.document.canon =
          .ok ⟨{ envelope with segments := some (front ++ [last]) }, projectId, last.segmentHash⟩ := by
        simp only [decodeBackupSegment, list, project, some_, room, valid.authority, read, check,
          if_true, ok_bind, validateSegment_eq_ok.mpr ⟨valid, rfl⟩]
      rw [step, if_neg ne, if_neg ne, headHash_concat]
      rfl

/-- A backup of a chain of segments decodes to its contents, and to no list where there are no
segments. -/
theorem decodeBackupEnvelope_backup
    {config : Config} {createdAt : String} {segments : List Segment} (opened : config.Opened)
    (chain : Chain hash config.projectId segments)
    (own : segments.map Segment.canonical = segments) (short : segments.length ≤ maxSegmentCount) :
  decodeBackupEnvelope hash (backupEnvelope digest config createdAt segments).document.canon =
    .ok { backupEnvelope digest config createdAt segments with
      project := config.canonical
      segments := if segments = [] then none else some segments }
  := by
  obtain ⟨project, named⟩ := opened.projectId
  have authority := opened.authority_canon
  have read : configDecoder.decodeStrict (default : BackupEnvelope).project config.document.canon =
    .ok config.canonical := config.decode_canon
  let contents : BackupEnvelope :=
    { apiVersion := .ofString backupAPIVersion
      kind := .ofString "JournalBackup"
      project := config.canonical
      createdAt := .ofString createdAt
      segments := none
      digest := (backupEnvelope digest config createdAt segments).digest }
  have digest_ : (backupEnvelope digest config createdAt segments).digest.canonical =
    (backupEnvelope digest config createdAt segments).digest := RawText.canonical_ofString _
  obtain ⟨h, decoded, -⟩ := @decodeBackupSegments_documents hash config.projectId segments contents
    rfl named chain own short
  have fields : [("apiVersion", text (.ofString backupAPIVersion)),
      ("createdAt", text (.ofString createdAt)),
      ("digest", text (backupEnvelope digest config createdAt segments).digest),
      ("kind", text (.ofString "JournalBackup")), ("project", config.document.canon)].foldlM
        (decodeBackupField hash) {} = .ok ⟨contents, .empty, .empty⟩ := by
    simp only [List.foldlM_cons, List.foldlM_nil]
    simp [decodeBackupField, decodeText, Decoder.text, text, authority, read, check, contents,
      pure, Except.pure]
    exact ⟨rfl, digest_⟩
  have list : decodeBackupField hash ⟨contents, .empty, .empty⟩
      ("segments", .arr (segments.map fun segment => segment.document.canon)) =
      .ok ⟨{ contents with segments := if segments = [] then none else some segments },
        if segments = [] then .empty else config.projectId, h⟩ := by
    simp only [decodeBackupField, decodeBackupSegments]
    exact decoded
  have last : config.canonical.projectId = config.projectId := project
  rw [BackupEnvelope.document_canon]
  simp only [decodeBackupEnvelope, need, ok_bind]
  have members : [("apiVersion", text (backupEnvelope digest config createdAt segments).apiVersion),
      ("createdAt", text (backupEnvelope digest config createdAt segments).createdAt),
      ("digest", text (backupEnvelope digest config createdAt segments).digest),
      ("kind", text (backupEnvelope digest config createdAt segments).kind),
      ("project", (backupEnvelope digest config createdAt segments).project.document.canon),
      ("segments", (listDocument Segment.document
        (backupEnvelope digest config createdAt segments).segments).canon)] =
      [("apiVersion", text (.ofString backupAPIVersion)),
        ("createdAt", text (.ofString createdAt)),
        ("digest", text (backupEnvelope digest config createdAt segments).digest),
        ("kind", text (.ofString "JournalBackup")), ("project", config.document.canon)] ++
      [("segments", .arr (segments.map fun segment => segment.document.canon))] := by
    rw [← canon_segments]
    rfl
  rw [members, List.foldlM_append, fields, ok_bind, List.foldlM_cons, list, ok_bind, List.foldlM_nil]
  have same : (decide ((if segments = [] then RawText.empty else config.projectId) = .empty) ||
      decide (contents.project.projectId =
        if segments = [] then RawText.empty else config.projectId)) = true := by
    by_cases none_ : segments = []
    · simp [none_]
    · simp [none_, contents, last]
  simp only [pure, Except.pure, ok_bind, same, check, if_true]
  rfl

/-- A segment that is read is valid at its place if its document is within the bounds. -/
theorem Accepted.validAt
    {projectId : RawText} {name : String} {d : Json} {sequence : Nat} {previous : RawText}
    {segment : Segment} (accepted : Accepted hash projectId name d sequence previous segment)
    (bounds : validateCanonicalSegmentBounds segment.document.canon = .ok ()) :
  ValidAt hash projectId sequence previous segment
  := by
  simp only [validateCanonicalSegmentBounds, bind_eq_ok, check_eq_ok, decide_eq_true_eq] at bounds
  obtain ⟨_, small, authority⟩ := bounds
  exact ⟨accepted.sequence_eq, accepted.projectId_eq, accepted.previous_eq, small, authority,
    accepted.command, accepted.events, accepted.hashed⟩

/-- Segments that are read are validated if their documents are within the bounds. -/
theorem readFiles_validateFrom
    {projectId : RawText} {dir : Directory} {sequence : Nat} {previous : RawText}
    {names : List String} {segments : List Segment}
    (read : readFiles hash projectId dir sequence previous names = .ok segments)
    (bounds : ∀ segment ∈ segments, validateCanonicalSegmentBounds segment.document.canon = .ok ()) :
  ∃ h, validateFrom hash projectId sequence previous segments = .ok h
  := by
  induction names generalizing sequence previous segments with
  | nil =>
      obtain rfl := Except.ok.inj read
      exact ⟨previous, rfl⟩
  | cons name rest ih =>
      simp only [readFiles, bind_eq_ok, Except.ok.injEq] at read
      obtain ⟨text, -, segment, accepted, more, read, rfl⟩ := read
      obtain ⟨d, -, checked⟩ := readSegmentFile_eq_ok.mp accepted
      have valid := checked.validAt (bounds segment (by simp))
      obtain ⟨h, validated⟩ := ih read fun other mem => bounds other (by simp [mem])
      use h
      simp only [validateFrom, validateSegment_eq_ok.mpr ⟨valid, rfl⟩, ok_bind]
      exact validated

/-- The documents of a chain are within the bounds. -/
theorem Chain.bounds
    {projectId : RawText} {segments : List Segment} (chain : Chain hash projectId segments) :
  ∀ segment ∈ segments, validateCanonicalSegmentBounds segment.document.canon = .ok ()
  := by
  induction chain with
  | nil => simp
  | concat front last before valid ih =>
      intro segment mem
      rcases List.mem_append.mp mem with mem | mem
      · exact ih segment mem
      · obtain rfl := List.mem_singleton.mp mem
        simp only [validateCanonicalSegmentBounds, bind_eq_ok, check_eq_ok, decide_eq_true_eq]
        exact ⟨(), valid.small, valid.authority⟩

/-- Items that are authority documents are well formed one level deeper. -/
theorem itemsWellFormed_of_authority
    {items : List Json} (authority : ∀ item ∈ items, item.validateAuthority = true) :
  Json.itemsWellFormed (maxAuthorityDepth + 1) items = true
  := by
  induction items with
  | nil => rfl
  | cons item rest ih =>
      have first := authority item (by simp)
      simp only [Json.validateAuthority, Bool.and_eq_true] at first
      simp only [Json.itemsWellFormed, Bool.and_eq_true, decide_eq_true_eq]
      exact ⟨⟨Nat.succ_pos _, first.1⟩, ih fun other mem => authority other (by simp [mem])⟩

/-- The document of a backup is well formed two levels deeper than an authority document. -/
theorem backupEnvelope_wellFormed
    {config : Config} {createdAt : String} {segments : List Segment} (opened : config.Opened)
    (created : createdAt.utf8ByteSize ≤ maxAuthorityStringBytes)
    (bounds : ∀ segment ∈ segments, validateCanonicalSegmentBounds segment.document.canon = .ok ()) :
  (backupEnvelope digest config createdAt segments).document.canon.wellFormed
    (maxAuthorityDepth + 2) = true
  := by
  have config_ := opened.authority_canon
  simp only [Json.validateAuthority, Bool.and_eq_true] at config_
  have config_ := wellFormed_mono (Nat.le_succ maxAuthorityDepth) _ config_.1
  have items : Json.itemsWellFormed (maxAuthorityDepth + 1)
      (segments.map fun segment => segment.document.canon) = true := by
    apply itemsWellFormed_of_authority
    intro item mem
    obtain ⟨segment, stored, rfl⟩ := List.mem_map.mp mem
    have within := bounds segment stored
    simp only [validateCanonicalSegmentBounds, bind_eq_ok, check_eq_ok] at within
    obtain ⟨_, -, authority⟩ := within
    exact authority
  rw [BackupEnvelope.document_canon]
  simp [backupEnvelope, Json.wellFormed, Json.membersWellFormed, text, canon_segments, items, config_]
  refine ⟨⟨by decide, by decide⟩, ⟨by decide, created⟩, ⟨by decide, ?_⟩, ⟨by decide, by decide⟩,
    by decide, by decide⟩
  rw [backupDigest, RawText.decoded_ofString]
  exact utf8ByteSize_digest_le _

/-- Decoding gives the project, the segments and the digest of a backup back. -/
def RoundTrips (hash : SegmentHash) (digest : Json → Hex) (config : Config)
    (segments : List Segment) (data : BackupData) (report : BackupReport) : Prop :=
  ∃ envelope, decodeBackup hash digest data = .ok envelope ∧
    envelope.project.projectId = config.projectId ∧ envelope.segments.getD [] = segments ∧
    envelope.digest = report.digest

/-- The digest is that of what a backup of a chain decodes to, if that has the same list. -/
theorem backupDigest_decoded
    (config : Config) (createdAt : String) (segments : List Segment)
    (list : Option (List Segment)) :
  backupDigest digest { backupEnvelope digest config createdAt segments with
      project := config.canonical, segments := list } =
    backupDigest digest { backupEnvelope digest config createdAt segments with segments := list }
  := by
  unfold backupDigest
  rw [BackupEnvelope.document_canon, BackupEnvelope.document_canon, Config.document_canonical]
  rfl

/-- A backup whose contents decode is accepted if its digest is theirs. -/
theorem decodeBackup_of_contents
    {data : BackupData} {envelope : BackupEnvelope}
    (small : data.length ≤ maxPortableJournalBytes)
    (limits : validateAuthorityWithLimits (maxAuthorityDepth + 2) data.length data.document = true)
    (contents : decodeBackupEnvelope hash data.document = .ok envelope)
    (apiVersion : envelope.apiVersion = .ofString backupAPIVersion)
    (kind : envelope.kind = .ofString "JournalBackup")
    (named : envelope.project.projectId ≠ .empty) (digested : envelope.digest ≠ .empty) :
  decodeBackup hash digest data =
    (check (envelope.digest = backupDigest digest envelope) "backup digest mismatch").map
      fun _ => envelope
  := by
  unfold decodeBackup
  simp only [small, decide_true, limits, check, if_true, ok_bind, contents, apiVersion, kind, named,
    digested, ne_eq, not_false_eq_true, Bool.and_self]
  by_cases same : envelope.digest = backupDigest digest envelope
  · simp only [same, decide_true, if_true, ok_bind, Except.map]
  · simp only [same, decide_false, Bool.false_eq_true, if_false, error_bind, Except.map]

/-- Where the backup of a chain of segments decodes: where the digest of what was decoded is the
digest it carries. -/
theorem decodeBackup_backup
    {config : Config} {createdAt : String} {segments : List Segment} (opened : config.Opened)
    (created : createdAt.utf8ByteSize ≤ maxAuthorityStringBytes)
    (chain : Chain hash config.projectId segments)
    (own : segments.map Segment.canonical = segments) (short : segments.length ≤ maxSegmentCount)
    (small : (backupEnvelope digest config createdAt segments).document.canon.size + 1
      ≤ maxPortableJournalBytes) :
  decodeBackup hash digest
      ⟨(backupEnvelope digest config createdAt segments).document.canon.size + 1,
        (backupEnvelope digest config createdAt segments).document.canon⟩ =
    (check (backupDigest digest (backupEnvelope digest config createdAt segments) =
        backupDigest digest { backupEnvelope digest config createdAt segments with
          segments := if segments = [] then none else some segments })
      "backup digest mismatch").map fun _ =>
        { backupEnvelope digest config createdAt segments with
          project := config.canonical
          segments := if segments = [] then none else some segments }
  := by
  have bounds := chain.bounds
  have contents := @decodeBackupEnvelope_backup hash digest config createdAt segments opened chain own
    short
  have carried : (backupEnvelope digest config createdAt segments).digest =
    backupDigest digest (backupEnvelope digest config createdAt segments) := rfl
  have recomputed := @backupDigest_decoded digest config createdAt segments
    (if segments = [] then none else some segments)
  have wellFormed := @backupEnvelope_wellFormed digest config createdAt segments opened created bounds
  have values := values_le_size (backupEnvelope digest config createdAt segments).document.canon
  have limits : validateAuthorityWithLimits (maxAuthorityDepth + 2)
      ((backupEnvelope digest config createdAt segments).document.canon.size + 1)
      (backupEnvelope digest config createdAt segments).document.canon = true := by
    simp only [validateAuthorityWithLimits, wellFormed, Bool.true_and, decide_eq_true_eq]
    omega
  have named : config.canonical.projectId ≠ .empty := by
    have project : config.canonical.projectId = config.projectId := opened.projectId.1
    rw [project]
    exact opened.projectId.2
  have digested : (backupEnvelope digest config createdAt segments).digest ≠ .empty := by
    simp [backupEnvelope, backupDigest]
  have accepted := @decodeBackup_of_contents hash digest
    ⟨(backupEnvelope digest config createdAt segments).document.canon.size + 1,
      (backupEnvelope digest config createdAt segments).document.canon⟩
    _ small limits contents rfl rfl named digested
  rw [recomputed] at accepted
  simp only [carried] at accepted
  exact accepted

/-- When a backup decodes to what it was made of, under a digest that tells an empty list from none:
if the journal has segments, and the documents of all of them are within the bounds. Whatever
decodes agrees. -/
theorem backup_round_trip_iff
    {config : Config} {createdAt : String} {dir : Directory} {segments : List Segment}
    {data : BackupData} {report : BackupReport} (opened : config.Opened)
    (shown : createdAt.utf8ByteSize ≤ maxAuthorityStringBytes)
    (read : readAll hash config.projectId dir = .ok segments)
    (created : createBackup hash digest config createdAt dir = .ok (data, report))
    (distinct : backupDigest digest (backupEnvelope digest config createdAt []) ≠
      backupDigest digest { backupEnvelope digest config createdAt [] with segments := none }) :
  (RoundTrips hash digest config segments data report ∧
      ∀ other envelope, decodeBackup hash digest other = .ok envelope → envelope.Agrees hash digest) ↔
    segments ≠ [] ∧
      ∀ segment ∈ segments, validateCanonicalSegmentBounds segment.document.canon = .ok ()
  := by
  obtain ⟨stores, short⟩ := readAll_eq_ok.mp read
  have own := stores.canonical_eq
  simp only [createBackup, read, ok_bind, bind_eq_ok, check_eq_ok, decide_eq_true_eq,
    Except.ok.injEq, Prod.mk.injEq] at created
  obtain ⟨_, small, rfl, rfl⟩ := created
  constructor
  · rintro ⟨⟨envelope, decoded, project, list, -⟩, -⟩
    constructor
    · rintro rfl
      rw [decodeBackup_backup opened shown .nil rfl (Nat.zero_le _) small] at decoded
      simp [distinct, check, Except.map] at decoded
    · have agrees := decodeBackup_agrees decoded
      have chain := agrees.chain
      rw [list] at chain
      exact chain.bounds
  · rintro ⟨some_, bounds⟩
    refine ⟨?_, fun other envelope decoded => decodeBackup_agrees decoded⟩
    obtain ⟨h, validated⟩ := readFiles_validateFrom stores.read bounds
    obtain ⟨chain, -⟩ := validateFrom_eq_ok.mp validated
    have decoded := @decodeBackup_backup hash digest config createdAt segments opened shown chain own
      short small
    rw [if_neg some_] at decoded
    have accepted : decodeBackup hash digest
        ⟨(backupEnvelope digest config createdAt segments).document.canon.size + 1,
          (backupEnvelope digest config createdAt segments).document.canon⟩ =
        .ok { backupEnvelope digest config createdAt segments with
          project := config.canonical, segments := some segments } := by
      rw [decoded]
      exact congrArg (Except.map _) (if_pos (decide_eq_true rfl))
    exact ⟨_, accepted, opened.projectId.1, rfl, rfl⟩

namespace SampleBackup

/-- The project. -/
def project : String := "00000000-0000-4000-8000-000000000001"

/-- The locator. -/
def config : Config where
  apiVersion := .ofString "v1"
  kind := .ofString "Project"
  projectId := .ofString project
  name := .empty
  providers := none

/-- A hash that is always zero. -/
def zeroHash : SegmentHash := fun _ => Hex.zero

/-- A digest that tells the documents apart that have no list of segments. -/
def telling : Json → Hex
  | .obj members =>
      if members.contains ("segments", .null) then ⟨String.ofList (List.replicate 64 '1'), by decide⟩
      else Hex.zero
  | _ => Hex.zero

/-- A segment. -/
def segment : Segment where
  schemaVersion := 3
  sequence := 1
  projectId := .ofString project
  previousHash := .empty
  command :=
    { id := .ofString "c", kind := .ofString "note", actorRole := .empty
      idempotencyKey := .ofString "k", objectRef := .empty, requestDigest := .empty }
  events := [{ type := .ofString "noted", schemaVersion := 1, payload := some (.obj []) }]
  committedAt := .ofString "now"
  segmentHash := .ofString Hex.zero.text

/-- The directory of a journal of this segment. -/
def dir : Directory :=
  (∅ : Directory).insert (segmentName 1 Hex.zero.text) (.file segment.text)

/-- The document of the backup of segments. -/
def backup (segments : List Segment) : Json :=
  (backupEnvelope telling config "now" segments).document.canon

/-- The locator is an authority document, the segment is read and within the bounds, the backups are
small, and their digests are those of an empty list and of no list. -/
theorem runs :
  (config.document.validateAuthority = true ∧ canonicalUUID project = true) ∧
  (readAll zeroHash config.projectId dir = .ok [segment] ∧
    validateCanonicalSegmentBounds segment.document.canon = .ok ()) ∧
  ((backup []).size + 1 ≤ maxPortableJournalBytes ∧
    (backup [segment]).size + 1 ≤ maxPortableJournalBytes) ∧
  backupDigest telling (backupEnvelope telling config "now" []) ≠
    backupDigest telling { backupEnvelope telling config "now" [] with segments := none }
  := by decide

/-- The locator was opened. -/
theorem opened :
  config.Opened
  := ⟨runs.1.1, project, runs.1.2, rfl⟩

/-- A journal that is read and whose backup is small is backed up. -/
theorem created
    {dir : Directory} {segments : List Segment}
    (read : readAll zeroHash config.projectId dir = .ok segments)
    (small : (backup segments).size + 1 ≤ maxPortableJournalBytes) :
  createBackup zeroHash telling config "now" dir =
    .ok (⟨(backup segments).size + 1, backup segments⟩,
      backupReport (backupEnvelope telling config "now" segments))
  := by
  have small' : decide ((backupEnvelope telling config "now" segments).document.canon.size + 1
    ≤ maxPortableJournalBytes) = true := decide_eq_true small
  simp only [createBackup, read, ok_bind, small', check, if_true]
  rfl

end SampleBackup

open SampleBackup in
/-- The backup of an empty journal is refused. -/
theorem backup_of_nothing_refused :
  readAll zeroHash config.projectId ∅ = .ok [] ∧
    ∃ data report, createBackup zeroHash telling config "now" ∅ = .ok (data, report) ∧
      ¬ RoundTrips zeroHash telling config [] data report
  := by
  have read : readAll zeroHash config.projectId ∅ = .ok [] := rfl
  refine ⟨read, _, _, created read runs.2.2.1.1, ?_⟩
  rintro ⟨envelope, decoded, -⟩
  have shown : ("now" : String).utf8ByteSize ≤ maxAuthorityStringBytes := by decide
  have outcome := @decodeBackup_backup zeroHash telling config "now" [] opened shown .nil rfl
    (Nat.zero_le _) runs.2.2.1.1
  have refused := decoded.symm.trans outcome
  simp [runs.2.2.2, check, Except.map] at refused

open SampleBackup in
/-- The backup of a journal of one segment decodes to it. -/
theorem backup_round_trip_segment :
  ∃ data report, RoundTrips zeroHash telling config [segment] data report
  := by
  have read := runs.2.1.1
  refine ⟨_, _, ((backup_round_trip_iff opened (by decide) read (created read runs.2.2.1.2)
    runs.2.2.2).mpr ?_).1⟩
  refine ⟨by simp, ?_⟩
  intro segment' mem
  rw [List.mem_singleton.mp mem]
  exact runs.2.1.2

end Journal

end Dagrail
