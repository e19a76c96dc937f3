import Dagrail.Journal.Backup
import Dagrail.Journal.WriterLaws

/-!
# A journal that is full

The reader of a journal counts its segments, the writers do not. A journal that has as many segments
as are read takes a further one, and is not read any more. The bounds of segments hardly depend on
their places, so that there is such a journal for every hash.
-/

namespace Dagrail

namespace Journal

/-- A character has at most six bytes in a JSON text. -/
theorem charSize_le
    (c : Char) :
  Json.charSize c ≤ 6
  := by
  unfold Json.charSize
  split_ifs
  · decide
  · decide
  · decide
  · exact c.utf8Size_le_four.trans (by decide)

/-- A text has at most six bytes for each character, and its quotes. -/
theorem textSize_le
    (s : String) :
  Json.textSize s ≤ 2 + 6 * s.toList.length
  := by
  unfold Json.textSize
  induction s.toList with
  | nil => simp
  | cons c cs ih =>
      simp only [List.foldr_cons, List.length_cons]
      have one := charSize_le c
      omega

/-- The text of a hash, or none, is short. -/
theorem hashText_short
    {t : RawText} (isHash : t = .empty ∨ ∃ h : Hex, t = .ofString h.text) :
  t.decoded.toList.length ≤ 64
  := by
  rcases isHash with rfl | ⟨h, rfl⟩
  · decide
  · have valid := h.valid
    simp only [validBareHash, Bool.and_eq_true, decide_eq_true_eq] at valid
    rw [RawText.decoded_ofString, valid.1]

/-- The place and the hash of a segment hardly count for the bounds of its document. -/
theorem bounds_of_place
    (segment : Segment) {previous own : RawText} {sequence : Nat}
    (isPrevious : previous = .empty ∨ ∃ h : Hex, previous = .ofString h.text)
    (isOwn : own = .empty ∨ ∃ h : Hex, own = .ofString h.text) (few : sequence < 10 ^ 7)
    (small : segment.document.canon.size + 1000 ≤ maxSegmentBytes)
    (authority : segment.document.canon.validateAuthority = true) :
  validateCanonicalSegmentBounds
    { segment with previousHash := previous, segmentHash := own, sequence }.document.canon = .ok ()
  := by
  have previousShort := hashText_short isPrevious
  have ownShort := hashText_short isOwn
  have previousSize := textSize_le previous.decoded
  have ownSize := textSize_le own.decoded
  have digits : (Nat.toDigits 10 sequence).length ≤ 7 :=
    (Nat.length_toDigits_le_iff (by decide) (by decide)).mpr few
  have number : Json.numberSize sequence ≤ 7 := by
    unfold Json.numberSize
    rw [if_neg (by omega), Int.natAbs_natCast]
    omega
  simp only [validateCanonicalSegmentBounds, bind_eq_ok, check_eq_ok, decide_eq_true_eq]
  rw [Segment.document_canon] at small authority ⊢
  refine ⟨(), ?_, ?_⟩
  · simp only [Json.size, Json.membersSize, text, List.length_cons, List.length_nil] at small ⊢
    omega
  · have texts : ∀ t : RawText, t.decoded.toList.length ≤ 64 →
        t.decoded.utf8ByteSize ≤ maxAuthorityStringBytes := by
      intro t short
      have bytes := utf8ByteSize_ofList_le t.decoded.toList
      rw [String.ofList_toList] at bytes
      have bound : 256 ≤ maxAuthorityStringBytes := by decide
      omega
    have natural : (sequence : Int).natAbs ≤ maxAuthorityInteger.natAbs := by
      have bound : 10 ^ 7 ≤ maxAuthorityInteger.natAbs := by decide
      rw [Int.natAbs_natCast]
      omega
    simp only [Json.validateAuthority, Json.wellFormed, Json.membersWellFormed, Json.values,
      Json.memberValues, text, Bool.and_eq_true, decide_eq_true_eq] at authority ⊢
    obtain ⟨⟨names, command, committed, events, -, project, schema, -, -, ends⟩, values⟩ :=
      authority
    have deep : 0 < maxAuthorityDepth := by decide
    refine ⟨⟨names, command, committed, events, ⟨⟨deep, by decide⟩, texts _ previousShort⟩, project,
      schema, ⟨⟨deep, by decide⟩, texts _ ownShort⟩, ⟨⟨deep, by decide⟩, natural⟩, ends⟩, values⟩

namespace SampleWriter

/-- Writers with a hash of segments and with digests that are always zero. -/
def writers (hash : SegmentHash) : Writers where
  hash
  digest _ := Hex.zero
  screen _ := true

/-- The store of a project. -/
def store : Store := { projectId := "p" }

/-- A command without a key. -/
def command : Command where
  id := .ofString "c"
  kind := .ofString "note"
  actorRole := .empty
  idempotencyKey := .empty
  objectRef := .empty
  requestDigest := .empty

/-- An event of the command. -/
def event : Event where
  type := .ofString "noted"
  schemaVersion := 1
  payload := some (.obj [])

/-- What is written for the command. -/
def contents : Contents where
  schemaVersion := currentSegmentSchemaVersion
  command
  events := [event]
  committedAt := "1970-01-01T00:00:00Z"

/-- The segment of the command, without a place and a hash. -/
def unplaced : Segment where
  schemaVersion := currentSegmentSchemaVersion
  sequence := 0
  projectId := .ofString "p"
  previousHash := .empty
  command
  events := [event]
  committedAt := .ofString "1970-01-01T00:00:00Z"
  segmentHash := .empty

/-- The establishment of the project, with a hash. -/
def established (own : RawText) : Segment :=
  { SampleRestore.established with segmentHash := own }

/-- The segment of the command is small and fit for authority. -/
theorem unplaced_fits :
  unplaced.document.canon.size + 1000 ≤ maxSegmentBytes
    ∧ unplaced.document.canon.validateAuthority = true
  := by
  decide +kernel

/-- The establishment is small. -/
theorem established_small :
  SampleRestore.established.document.canon.size + 1000 ≤ maxSegmentBytes
  := by
  decide +kernel

/-- The establishment is valid as the first segment. -/
theorem established_valid :
  ValidAt SampleRestore.hash (.ofString "p") 1 .empty SampleRestore.established
  := by
  obtain ⟨-, chain⟩ := validateSegments_eq_ok.mp SampleRestore.valid
  have two : Chain SampleRestore.hash (.ofString "p")
      ([SampleRestore.established] ++ [SampleRestore.noted 2 "authority.retired"]) :=
    (Chain.last (chain : Chain _ _ ([_, _] ++ [_]))).1
  have one : Chain SampleRestore.hash (.ofString "p") ([] ++ [SampleRestore.established]) :=
    two.last.1
  exact one.last.2

/-- The establishment is its own canonical form. -/
theorem established_canonical :
  SampleRestore.established.canonical = SampleRestore.established
  := by
  have payloads : (SampleRestore.established.events.map fun event =>
      some (event.payload.getD .null).canon) = SampleRestore.established.events.map Event.payload := by
    decide
  simp only [SampleRestore.established, SampleRestore.segment, List.map_cons, List.map_nil]
    at payloads ⊢
  simp [Segment.canonical, Command.canonical, Event.canonical]
  simpa using payloads

/-- The establishment is one of the project, whatever is behind it. -/
theorem established_prefix
    (own : RawText) (rest : List Segment) :
  validateEstablishedAuthorityPrefix (fun _ => Hex.zero) "p" (established own :: rest) = .ok ()
  :=
  (requireEstablishment_eq_ok.mp SampleRestore.runs.2.1.2).resolve_left (by decide)

/-- The segment of the command at a place. -/
def placed (hash : SegmentHash) (previous : RawText) (sequence : Nat) : Segment :=
  { unplaced with
    previousHash := previous
    segmentHash := .ofString
      (hash { unplaced with previousHash := previous, sequence }.unsigned.canon).text
    sequence }

/-- A segment of the command can be prepared at every place. -/
theorem prepared
    (hash : SegmentHash) {previous : RawText} {sequence : Nat}
    (isPrevious : ∃ h : Hex, previous = .ofString h.text) (few : sequence < 10 ^ 7) :
  prepareSegment (writers hash) "p" contents previous sequence
    = .ok (placed hash previous sequence)
  := by
  obtain ⟨h, rfl⟩ := isPrevious
  have hex : isHexText (.ofString h.text) = true := by
    have valid := h.valid
    simp only [validBareHash, Bool.and_eq_true, decide_eq_true_eq, List.all_eq_true] at valid
    simp only [isHexText, RawText.ofString, List.length_map, valid.1, Bool.and_eq_true,
      List.all_eq_true]
    refine ⟨rfl, fun unit mem => ?_⟩
    obtain ⟨c, own, rfl⟩ := List.mem_map.mp mem
    simp [isHexUnit, valid.2 c own]
  have events : prepareEvents (writers hash) [event] = .ok [event] := rfl
  have bounds : validateCanonicalSegmentBounds
      (placed hash (.ofString h.text) sequence).document.canon = .ok () :=
    bounds_of_place unplaced (.inr ⟨h, rfl⟩) (.inr ⟨_, rfl⟩) few unplaced_fits.1
      unplaced_fits.2
  have hashed : computeHash hash
      { unplaced with previousHash := .ofString h.text, sequence }
      = .ok (placed hash (.ofString h.text) sequence).segmentHash := by
    simp only [computeHash, hex, Bool.or_true, check, if_true, ok_bind]
    rfl
  calc prepareSegment (writers hash) "p" contents (.ofString h.text) sequence
      = (do
          let segmentHash ← computeHash hash
            { unplaced with previousHash := .ofString h.text, sequence }
          validateCanonicalSegmentBounds
            { unplaced with previousHash := .ofString h.text, segmentHash, sequence }.document.canon
          .ok { unplaced with previousHash := .ofString h.text, segmentHash, sequence }) := by
        rw [prepareSegment, contents, events]
        rfl
    _ = .ok (placed hash (.ofString h.text) sequence) := by
        rw [hashed, ok_bind]
        exact (congrArg (· >>= fun _ => _) bounds)

/-- A journal of the project with so many segments behind its establishment, none of which retires
it, in a directory of files. -/
structure Grown (hash : SegmentHash) (n : Nat) (dir : Directory) (segments : List Segment) :
    Prop where
  stores : Stores hash (.ofString "p") dir segments
  length : segments.length = n + 1
  start : ∃ own rest, segments = established own :: rest
  quiet : ∀ segment ∈ segments, ∀ event ∈ segment.events,
    event.type ≠ .ofString "authority.retired"
  files : ∀ name, dir.lookup name ≠ some .directory

/-- The hash behind the segments is the text of a hash. -/
theorem Grown.headHash
    {hash : SegmentHash} {n : Nat} {dir : Directory} {segments : List Segment}
    (grown : Grown hash n dir segments) :
  ∃ h : Hex, headHash segments = .ofString h.text
  := by
  cases segments using List.reverseRecOn with
  | nil => exact absurd grown.length (by simp)
  | append_singleton front last =>
      obtain ⟨-, -, own⟩ := grown.stores.linked.last
      rw [headHash_concat]
      exact ⟨_, own⟩

/-- The command can be appended without a fault. -/
theorem Grown.append
    {hash : SegmentHash} {n : Nat} {dir : Directory} {segments : List Segment}
    (grown : Grown hash n dir segments) (few : n + 2 < 10 ^ 7) :
  ∃ dir' segment, appendSegmentWithSchema (writers hash) "p" contents (Journal.headHash segments)
      (segments.length + 1) none dir = (dir', .ok segment)
    ∧ Grown hash (n + 1) dir' (segments ++ [segment.canonical])
  := by
  have length := grown.length
  have made := prepared hash grown.headHash (by omega : segments.length + 1 < 10 ^ 7)
  generalize placed hash (Journal.headHash segments) (segments.length + 1) = segment at made
  have free : ∀ name text, publishPath dir name text = some (dir.insert name (.file text)) :=
    fun name text => publishPath_eq_some.mpr ⟨grown.files name, rfl⟩
  have done : appendSegmentWithSchema (writers hash) "p" contents (Journal.headHash segments)
      (segments.length + 1) none dir
      = (dir.insert (segmentName (segments.length + 1) segment.segmentHash.decoded)
        (.file segment.text), .ok segment) := by
    unfold appendSegmentWithSchema
    simp only [made, writeFile, free]
  have before : Stores (writers hash).hash (.ofString "p") dir segments := grown.stores
  obtain ⟨_, next, stores, same⟩ := (before.append (by omega) ⟨.inl rfl, .inl rfl⟩
    done).resolve_left fun refused => refused.2 segment rfl
  obtain rfl := same segment rfl
  refine ⟨_, segment, done, stores, ?_, ?_, ?_, ?_⟩
  · rw [List.length_append, length, List.length_singleton]
  · obtain ⟨own, rest, rfl⟩ := grown.start
    exact ⟨own, rest ++ [segment.canonical], rfl⟩
  · intro other mem event isIn
    rcases List.mem_append.mp mem with old | new
    · exact grown.quiet other old event isIn
    · obtain rfl := List.mem_singleton.mp new
      rw [next.events] at isIn
      obtain rfl := List.mem_singleton.mp isIn
      decide
  · intro name
    by_cases own : name = segmentName (segments.length + 1) segment.segmentHash.decoded
    · rw [own, AList.lookup_insert]
      simp
    · rw [AList.lookup_insert_ne own]
      exact grown.files name

/-- The establishment alone is such a journal. -/
theorem grown_established
    (hash : SegmentHash) :
  ∃ dir segments, Grown hash 0 dir segments
  := by
  let own : RawText := .ofString (hash SampleRestore.established.unsigned.canon).text
  have bounds : validateCanonicalSegmentBounds (established own).document.canon = .ok () :=
    bounds_of_place SampleRestore.established (.inl rfl) (.inr ⟨_, rfl⟩) (by decide : 1 < 10 ^ 7)
      established_small established_valid.authority
  simp only [validateCanonicalSegmentBounds, bind_eq_ok, check_eq_ok, decide_eq_true_eq] at bounds
  obtain ⟨_, small, authority⟩ := bounds
  have valid : ValidAt hash (.ofString "p") 1 .empty (established own) :=
    ⟨rfl, rfl, rfl, small, authority, established_valid.command, established_valid.events, rfl⟩
  have nothing : Stores hash (.ofString "p") ∅ [] :=
    ⟨fun _ mem => absurd mem List.not_mem_nil, rfl, rfl⟩
  have stores := nothing.insert_segment (by decide) valid rfl rfl
  have same : (established own).canonical = established own := by
    have text : own.canonical = own := RawText.canonical_ofString _
    calc (established own).canonical
        = { SampleRestore.established.canonical with segmentHash := own.canonical } := rfl
      _ = established own := by
          rw [text, established_canonical]
          rfl
  rw [same] at stores
  refine ⟨_, _, stores, rfl, ⟨own, [], rfl⟩, ?_, ?_⟩
  · intro segment mem event isIn
    obtain rfl := List.mem_singleton.mp mem
    obtain rfl := List.mem_singleton.mp isIn
    decide
  · intro name found
    by_cases own : name = segmentName 1 (established own).segmentHash.decoded
    · rw [own] at found
      exact absurd ((AList.lookup_insert _).symm.trans found) (by simp)
    · exact absurd ((AList.lookup_insert_ne own).symm.trans found) (by simp)

/-- The append of the command. -/
def noteWrite : Write :=
  .append (.ok ()) command [event] none

/-- Such a journal is appended to. -/
theorem Grown.run_append
    {hash : SegmentHash} {n : Nat} {dir : Directory} {segments : List Segment}
    (grown : Grown hash n dir segments) (few : n + 2 < 10 ^ 7)
    (short : segments.length ≤ maxSegmentCount) :
  readAll hash (.ofString "p") dir = .ok segments
    ∧ ∃ dir' segment, noteWrite.run (writers hash) store "1970-01-01T00:00:00Z" none
        { journal := dir } = ({ journal := dir' }, .ok (some segment))
      ∧ Grown hash (n + 1) dir' (segments ++ [segment.canonical])
  := by
  have read : readAll hash (.ofString "p") dir = .ok segments :=
    readAll_eq_ok.mpr ⟨grown.stores, short⟩
  obtain ⟨dir', segment, done, grown'⟩ := grown.append few
  have admitted : admitCommand (writers hash) store command = .ok () := by
    have closed : admitCommand (writers fun _ => Hex.zero) store command = .ok () := by
      decide +kernel
    exact closed
  have started : requirePrefix (writers hash) store segments = .ok () := by
    obtain ⟨own, rest, rfl⟩ := grown.start
    exact established_prefix own rest
  have unretired : retirementEvent segments = none := by
    simp only [retirementEvent, Option.map_eq_none_iff, List.find?_eq_none, List.mem_flatMap,
      decide_eq_true_eq]
    rintro event ⟨segment, mem, isIn⟩
    exact grown.quiet segment mem event isIn
  have ready : appendable (writers hash) store (.ok ()) { journal := dir } = .ok segments := by
    have own : readAll (writers hash).hash (.ofString store.projectId) dir = .ok segments := read
    simp only [appendable, authorityRetirement, ok_bind, Option.isNone_none, check, if_true, own,
      started, unretired]
  have number := grown.stores.nextSequence
  refine ⟨read, dir', segment, ?_, grown'⟩
  have keyless : findKey command segments = none := rfl
  have result : appendOnce (writers hash) store (.ok ()) command [event] "1970-01-01T00:00:00Z" none
      none { journal := dir } = ({ journal := dir' }, .ok (segment, true)) := by
    unfold appendOnce
    simp only [admitted, ok_bind, ready, keyless, Option.any_none, Bool.false_eq_true, if_false,
      number]
    have own : appendSegmentWithSchema (writers hash) store.projectId
        ⟨currentSegmentSchemaVersion, command, [event], "1970-01-01T00:00:00Z"⟩
        (Journal.headHash segments) (segments.length + 1) none dir = (dir', .ok segment) := done
    rw [own]
  rw [noteWrite, Write.run, result]
  rfl

end SampleWriter

open SampleWriter in
/-- A command that is appended behind an establishment is read back. -/
theorem write_reads_back_sample :
  ∃ (dir dir' : Directory) (segments : List Segment) (reply : Option Segment),
    noteWrite.run (writers fun _ => Hex.zero) store "1970-01-01T00:00:00Z" none { journal := dir }
        = ({ journal := dir' }, .ok reply)
      ∧ noteWrite.ReadsBack (writers fun _ => Hex.zero) "p" "1970-01-01T00:00:00Z" segments dir'
        reply
  := by
  obtain ⟨dir, segments, grown⟩ := grown_established fun _ => Hex.zero
  have length : segments.length = 1 := grown.length
  have few : segments.length < maxSegmentCount := by
    rw [length]
    decide
  obtain ⟨read, dir', segment, done, -⟩ := grown.run_append (by decide) few.le
  exact ⟨dir, dir', segments, some segment, done, (write_reads_back_iff read done).mpr (.inr few)⟩

end Journal

end Dagrail
