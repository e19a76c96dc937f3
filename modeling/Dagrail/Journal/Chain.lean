import Dagrail.Journal.Canonical
import Mathlib.Data.List.Induction

/-!
# Chains of segments

Segments in memory are validated one after the other, each against its place in the chain and the
hash of the one before. The hash of a segment covers everything in its canonical document but the
hash itself, so the hash of the last segment determines all of them.
-/

namespace Dagrail

namespace Journal

/-! ### Validation in memory -/

/-- Validate a segment in memory at a place of the chain. The result is its hash. -/
def validateSegment (hash : SegmentHash) (projectId : RawText) (expectedSequence : Nat)
    (previousHash : RawText) (segment : Segment) : Fallible RawText := do
  check (segment.sequence = expectedSequence && segment.projectId = projectId
      && segment.previousHash = previousHash)
    "journal chain mismatch"
  validateCanonicalSegmentBounds segment.document.canon
  validateStoredCommand segment.schemaVersion segment.command
  validateStoredEvents segment.schemaVersion segment.events
  let h ← computeHash hash segment
  check (segment.segmentHash = h) "journal hash mismatch"
  .ok h

/-- Validate segments behind a place of the chain. The result is the hash of the last one. -/
def validateFrom (hash : SegmentHash) (projectId : RawText) :
    Nat → RawText → List Segment → Fallible RawText
  | _, previous, [] => .ok previous
  | sequence, previous, segment :: rest => do
      let h ← validateSegment hash projectId sequence previous segment
      validateFrom hash projectId (sequence + 1) h rest

/-- Validate a whole journal in memory. -/
def validateSegments (hash : SegmentHash) (projectId : RawText) (segments : List Segment) :
    Fallible Unit := do
  check (decide (segments.length ≤ maxSegmentCount)) "journal exceeds 1000000 segments"
  let _ ← validateFrom hash projectId 1 .empty segments
  .ok ()

/-- What is known of a validated segment. -/
structure ValidAt (hash : SegmentHash) (projectId : RawText) (sequence : Nat) (previous : RawText)
    (segment : Segment) : Prop where
  sequence_eq : segment.sequence = sequence
  projectId_eq : segment.projectId = projectId
  previous_eq : segment.previousHash = previous
  small : segment.document.canon.size ≤ maxSegmentBytes
  authority : segment.document.canon.validateAuthority = true
  command : validateStoredCommand segment.schemaVersion segment.command = .ok ()
  events : validateStoredEvents segment.schemaVersion segment.events = .ok ()
  hashed : computeHash hash segment = .ok segment.segmentHash

variable {hash : SegmentHash} {projectId : RawText}

/-- Validation accepts the segments that are valid at their place, with their own hash. -/
theorem validateSegment_eq_ok
    {sequence : Nat} {previous h : RawText} {segment : Segment} :
  validateSegment hash projectId sequence previous segment = .ok h ↔
    ValidAt hash projectId sequence previous segment ∧ h = segment.segmentHash
  := by
  simp only [validateSegment, validateCanonicalSegmentBounds, bind_eq_ok, check_eq_ok,
    Bool.and_eq_true, decide_eq_true_eq, Except.ok.injEq]
  constructor
  · rintro ⟨_, ⟨⟨sequence_eq, projectId_eq⟩, previous_eq⟩, _, ⟨_, small, authority⟩, _, command, _,
      events, h', hashed, _, same, rfl⟩
    rw [← same] at hashed
    exact ⟨⟨sequence_eq, projectId_eq, previous_eq, small, authority, command, events, hashed⟩,
      same.symm⟩
  · rintro ⟨valid, rfl⟩
    exact ⟨(), ⟨⟨valid.sequence_eq, valid.projectId_eq⟩, valid.previous_eq⟩, (),
      ⟨(), valid.small, valid.authority⟩, (), valid.command, (), valid.events, _, valid.hashed, (),
      rfl, rfl⟩

/-- The hash of a validated segment is a hash text. -/
theorem ValidAt.segmentHash_eq
    {sequence : Nat} {previous : RawText} {segment : Segment}
    (valid : ValidAt hash projectId sequence previous segment) :
  segment.segmentHash = .ofString (hash segment.unsigned.canon).text
  := by
  have hashed := valid.hashed
  simp only [computeHash, bind_eq_ok, Except.ok.injEq] at hashed
  obtain ⟨_, -, same⟩ := hashed
  exact same.symm

/-- The hash at the end of segments, or nothing when there are none. -/
def headHash (segments : List Segment) : RawText :=
  (segments.getLast?.map Segment.segmentHash).getD .empty

@[simp]
theorem headHash_nil :
  headHash [] = .empty
  := rfl

@[simp]
theorem headHash_concat
    (front : List Segment) (last : Segment) :
  headHash (front ++ [last]) = last.segmentHash
  := by
  simp [headHash]

/-- Segments are a valid chain when each is valid behind those before. -/
inductive Chain (hash : SegmentHash) (projectId : RawText) : List Segment → Prop where
  | nil : Chain hash projectId []
  | concat (front : List Segment) (last : Segment) (before : Chain hash projectId front)
      (valid : ValidAt hash projectId (front.length + 1) (headHash front) last) :
      Chain hash projectId (front ++ [last])

/-- The last of a valid chain is valid behind those before. -/
theorem Chain.last
    {front : List Segment} {last : Segment} (chain : Chain hash projectId (front ++ [last])) :
  Chain hash projectId front ∧ ValidAt hash projectId (front.length + 1) (headHash front) last
  := by
  generalize all : front ++ [last] = segments at chain
  cases chain with
  | nil => simp at all
  | concat front' last' before valid =>
      obtain ⟨rfl, same⟩ := List.append_inj' all rfl
      obtain rfl := List.singleton_inj.mp same
      exact ⟨before, valid⟩

/-- Validation behind a place goes on behind the segments before. -/
theorem validateFrom_append
    (sequence : Nat) (previous : RawText) (front back : List Segment) :
  validateFrom hash projectId sequence previous (front ++ back) =
    (validateFrom hash projectId sequence previous front >>= fun h =>
      validateFrom hash projectId (sequence + front.length) h back)
  := by
  induction front generalizing sequence previous with
  | nil => rfl
  | cons segment rest ih =>
      simp only [List.cons_append, validateFrom]
      cases validateSegment hash projectId sequence previous segment with
      | error e => rfl
      | ok h =>
          simp only [ok_bind, ih, List.length_cons]
          rw [Nat.add_right_comm, Nat.add_assoc]

/-- Validation accepts the valid chains. -/
theorem validateFrom_eq_ok
    {segments : List Segment} {h : RawText} :
  validateFrom hash projectId 1 .empty segments = .ok h ↔
    Chain hash projectId segments ∧ h = headHash segments
  := by
  induction segments using List.reverseRecOn generalizing h with
  | nil =>
      simp only [validateFrom, Except.ok.injEq, headHash_nil]
      exact ⟨fun same => ⟨.nil, same.symm⟩, fun both => both.2.symm⟩
  | append_singleton front last ih =>
      simp only [validateFrom_append, bind_eq_ok, ih, validateFrom, validateSegment_eq_ok,
        headHash_concat, Except.ok.injEq, Nat.add_comm 1]
      constructor
      · rintro ⟨_, ⟨before, rfl⟩, _, ⟨valid, rfl⟩, rfl⟩
        exact ⟨.concat front last before valid, rfl⟩
      · rintro ⟨chain, rfl⟩
        obtain ⟨before, valid⟩ := chain.last
        exact ⟨_, ⟨before, rfl⟩, _, ⟨valid, rfl⟩, rfl⟩

/-- Whole journals are accepted if they are valid chains that are not too long. -/
theorem validateSegments_eq_ok
    {segments : List Segment} :
  validateSegments hash projectId segments = .ok () ↔
    segments.length ≤ maxSegmentCount ∧ Chain hash projectId segments
  := by
  simp only [validateSegments, bind_eq_ok, check_eq_ok, decide_eq_true_eq, validateFrom_eq_ok]
  constructor
  · rintro ⟨_, short, _, ⟨chain, -⟩, -⟩
    exact ⟨short, chain⟩
  · rintro ⟨short, chain⟩
    exact ⟨(), short, _, ⟨chain, rfl⟩, trivial⟩

/-! ### The head determines the history -/

/-- No two segments of the list with different documents have one hash. -/
def CollisionFree (hash : SegmentHash) (segments : List Segment) : Prop :=
  ∀ a ∈ segments, ∀ b ∈ segments, hash a.unsigned.canon = hash b.unsigned.canon →
    a.unsigned.canon = b.unsigned.canon

/-- The canonical document determines the canonical segment. -/
theorem Segment.canonical_of_document
    {a b : Segment} (same : a.document.canon = b.document.canon) :
  a.canonical = b.canonical
  := by
  have read := a.read_canon
  rw [same, b.read_canon] at read
  exact (Except.ok.inj read).symm

/-- Segments with one document apart from the hash, and one hash, are one canonical segment. -/
theorem Segment.canonical_of_unsigned
    {a b : Segment} (same : a.unsigned.canon = b.unsigned.canon)
    (hashes : a.segmentHash = b.segmentHash) :
  a.canonical = b.canonical
  := by
  apply Segment.canonical_of_document
  rw [Segment.unsigned_canon, Segment.unsigned_canon] at same
  rw [Segment.document_canon, Segment.document_canon, hashes]
  simp only [Json.obj.injEq, List.cons.injEq, Prod.mk.injEq, true_and, and_true] at same ⊢
  exact ⟨same.1, same.2.1, same.2.2.1, same.2.2.2.1, same.2.2.2.2.1, same.2.2.2.2.2.1,
    same.2.2.2.2.2.2⟩

/-- The document without the hash names the place of the segment in its chain. -/
theorem Segment.place_of_unsigned
    {a b : Segment} (same : a.unsigned.canon = b.unsigned.canon) :
  a.sequence = b.sequence ∧ a.previousHash.decoded = b.previousHash.decoded
  := by
  rw [Segment.unsigned_canon, Segment.unsigned_canon] at same
  simp only [Json.obj.injEq, List.cons.injEq, Prod.mk.injEq, true_and, and_true, Journal.text,
    Json.str.injEq, Json.num.injEq] at same
  exact ⟨by exact_mod_cast same.2.2.2.2.2.2, same.2.2.2.1⟩

/-- Segments are linked when each names the hash of the one before and has its own hash. -/
inductive Linked (hash : SegmentHash) : List Segment → Prop where
  | nil : Linked hash []
  | concat (front : List Segment) (last : Segment) (before : Linked hash front)
      (previous_eq : last.previousHash = headHash front)
      (segmentHash_eq : last.segmentHash = .ofString (hash last.unsigned.canon).text) :
      Linked hash (front ++ [last])

/-- The segments of a valid chain are linked. -/
theorem Chain.linked
    {segments : List Segment} (chain : Chain hash projectId segments) :
  Linked hash segments
  := by
  induction chain with
  | nil => exact .nil
  | concat front last before valid ih =>
      exact .concat front last ih valid.previous_eq valid.segmentHash_eq

/-- The last of linked segments is linked to those before. -/
theorem Linked.last
    {front : List Segment} {last : Segment} (linked : Linked hash (front ++ [last])) :
  Linked hash front ∧ last.previousHash = headHash front ∧
    last.segmentHash = .ofString (hash last.unsigned.canon).text
  := by
  generalize all : front ++ [last] = segments at linked
  cases linked with
  | nil => simp at all
  | concat front' last' before previous_eq segmentHash_eq =>
      obtain ⟨rfl, same⟩ := List.append_inj' all rfl
      obtain rfl := List.singleton_inj.mp same
      exact ⟨before, previous_eq, segmentHash_eq⟩

/-- Linked segments have a hash text or nothing at their head. -/
theorem Linked.headHash_eq
    {segments : List Segment} (linked : Linked hash segments) :
  ∃ s : String, headHash segments = .ofString s
  := by
  cases linked with
  | nil => exact ⟨"", rfl⟩
  | concat front last before previous_eq segmentHash_eq =>
      rw [headHash_concat]
      exact ⟨_, segmentHash_eq⟩

/-- Only no segments have nothing at their head. -/
theorem Linked.headHash_eq_empty
    {segments : List Segment} (linked : Linked hash segments) :
  headHash segments = .empty ↔ segments = []
  := by
  cases linked with
  | nil => simp
  | concat front last before previous_eq segmentHash_eq =>
      rw [headHash_concat, segmentHash_eq, RawText.ofString_eq_empty]
      simp [Hex.text_ne_empty]

/-- Linked segments with one head are the same in canonical form. -/
theorem Linked.canonical_eq
    {xs ys : List Segment} (linked : Linked hash xs) (linked' : Linked hash ys)
    (free : CollisionFree hash (xs ++ ys)) (same : headHash xs = headHash ys) :
  xs.map Segment.canonical = ys.map Segment.canonical
  := by
  induction linked generalizing ys with
  | nil =>
      have empty : ys = [] := linked'.headHash_eq_empty.mp same.symm
      rw [empty]
  | concat front last before previous_eq segmentHash_eq ih =>
      cases linked' with
      | nil =>
          have whole := Linked.concat front last before previous_eq segmentHash_eq
          rw [whole.headHash_eq_empty.mp same]
      | concat front' last' before' previous_eq' segmentHash_eq' =>
          rw [headHash_concat, headHash_concat] at same
          have hashes := same
          rw [segmentHash_eq, segmentHash_eq'] at hashes
          have texts := RawText.ofString_injective hashes
          have one : last.unsigned.canon = last'.unsigned.canon :=
            free last (by simp) last' (by simp) (Hex.text_injective texts)
          have within : ∀ {a}, a ∈ front ++ front' → a ∈ front ++ [last] ++ (front' ++ [last']) := by
            intro a mem
            rw [List.mem_append] at mem
            rcases mem with mem | mem
            · simp [mem]
            · simp [mem]
          -- the segments before end in the hash that both name
          obtain ⟨-, previous⟩ := Segment.place_of_unsigned one
          rw [previous_eq, previous_eq'] at previous
          obtain ⟨h, head⟩ := before.headHash_eq
          obtain ⟨h', head'⟩ := before'.headHash_eq
          rw [head, head', RawText.decoded_ofString, RawText.decoded_ofString] at previous
          have ends : headHash front = headHash front' := by rw [head, head', previous]
          have free' : CollisionFree hash (front ++ front') :=
            fun a mem b mem' => free a (within mem) b (within mem')
          have rest := ih before' free' ends
          rw [List.map_append, List.map_append, rest]
          simp only [List.map_cons, List.map_nil, Segment.canonical_of_unsigned one same]

namespace SampleChain

/-- A journal of one segment with one event, under a hash that is always zero. -/
def journal (payload : Json) : List Segment :=
  [{ schemaVersion := 3, sequence := 1, projectId := .ofString "p", previousHash := .empty
     command := ⟨.ofString "c", .ofString "note", .empty, .ofString "k", .empty, .empty⟩
     events := [⟨.ofString "noted", 1, some payload⟩]
     committedAt := .ofString "1970-01-01T00:00:00Z", segmentHash := .ofString Hex.zero.text }]

/-- A payload with its members in the one order and in the other. -/
def payload (swapped : Bool) : Json :=
  if swapped then .obj [("b", .num 2), ("a", .num 1)] else .obj [("a", .num 1), ("b", .num 2)]

end SampleChain

end Journal

end Dagrail
