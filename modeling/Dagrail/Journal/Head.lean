import Dagrail.Journal.Backup

/-!
# The head of a journal

The head is observed by reading the last segment file only, after a look at the names of the others;
and the journal is read again behind an earlier snapshot, when the files of that snapshot are
unchanged. Both agree with the full read, since the name of a file determines the hash of the
segment that is read from it.
-/

namespace Dagrail

namespace Journal

/-! ### The last file -/

/-- How many segments there are, and the hash of the last one. -/
structure Head where
  sequence : Nat := 0
  hash : RawText := .empty
deriving DecidableEq

/-- Check the names that start with a sequence number. -/
def checkNames : Nat → List String → Fallible Unit
  | _, [] => .ok ()
  | sequence, name :: rest => do
      check (validSegmentName sequence name) "journal segment filename is invalid"
      checkNames (sequence + 1) rest

/-- Read the file of the last segment, which has the sequence number. What comes before it is not
looked at. -/
def inspectTail (hash : SegmentHash) (projectId : RawText) (name : String) (file : FileText)
    (sequence : Nat) : Fallible Head :=
  match file with
  | .other _ => .error "journal segment is not canonical RFC 8785 JSON"
  | .document d => do
      check d.validateAuthority "decode journal segment"
      let segment ← segmentDecoder.decodeStrict default d
      check (d.canon = d) "journal segment is not canonical RFC 8785 JSON"
      check (segment.sequence = sequence && segment.projectId = projectId) "journal chain mismatch"
      let h ← computeHash hash segment
      check (segment.segmentHash = h && name = segmentName segment.sequence h.decoded)
        "journal hash mismatch"
      validateStoredCommand segment.schemaVersion segment.command
      validateStoredEvents segment.schemaVersion segment.events
      .ok { sequence := segment.sequence, hash := segment.segmentHash }

/-- Observe the head of the journal. -/
def inspectHead (hash : SegmentHash) (projectId : RawText) (dir : Directory) : Fallible Head := do
  check ((listed dir).all fun entry => entry.2 ≠ .symlink) "journal segment must not be a symlink"
  check (decide ((listed dir).length ≤ maxSegmentCount)) "journal exceeds 1000000 segments"
  let names := sortNames ((listed dir).map Sigma.fst)
  checkNames 1 names
  match names.getLast? with
  | none => .ok {}
  | some name => do
      check (regularFile dir name) "journal segment must be a regular file"
      let text ← need (match dir.lookup name with
          | some (.file text) => some text
          | _ => none)
        "journal segment must be a regular file"
      inspectTail hash projectId name text names.length

/-- The head of segments. -/
def headOf (segments : List Segment) : Head where
  sequence := segments.length
  hash := headHash segments

/-! ### Snapshots -/

/-- What the directory says of a file besides its name and its bytes. -/
structure FileStat where
  modTimeUnixNano : Int
  mode : Nat
deriving DecidableEq

/-- What tells a segment file from another one without reading it. -/
structure SegmentFileIdentity where
  name : String
  size : Nat
  stat : FileStat
deriving DecidableEq

/-- A verified snapshot of the journal. -/
structure VerifiedSnapshot where
  segments : List Segment
  files : List SegmentFileIdentity
  incremental : Bool

/-- The identity of a file. -/
def fileIdentity (dir : Directory) (stat : String → FileStat) (name : String) :
    SegmentFileIdentity where
  name
  size :=
    match dir.lookup name with
    | some (.file text) => text.size
    | _ => 0
  stat := stat name

/-- The segments of an earlier snapshot, if the files it was taken of are the first ones and
unchanged. -/
def keptOf (previous : Option VerifiedSnapshot) (files : List SegmentFileIdentity) :
    List Segment :=
  if previous.any fun v => v.files.isPrefixOf files then
    (previous.map VerifiedSnapshot.segments).getD []
  else []

/-- Read the journal behind an earlier snapshot if the files in front are unchanged, and else the
whole of it. -/
def readSnapshot (hash : SegmentHash) (projectId : RawText) (previous : Option VerifiedSnapshot)
    (dir : Directory) (stat : String → FileStat) : Fallible VerifiedSnapshot := do
  let names ← listSegmentFiles dir
  let files := names.map (fileIdentity dir stat)
  check (previous.all fun v => decide (v.files.length ≤ files.length))
    "journal prefix was truncated"
  let kept := keptOf previous files
  let added ← readFiles hash projectId dir (kept.length + 1) (headHash kept) (names.drop kept.length)
  .ok
    { segments := kept ++ added
      files
      incremental := previous.any fun v => v.files.isPrefixOf files }

/-- The snapshot was taken at some time: of the whole journal, or behind one taken before. -/
inductive Taken (hash : SegmentHash) (projectId : RawText) : VerifiedSnapshot → Prop where
  | whole (dir : Directory) (stat : String → FileStat) (snapshot : VerifiedSnapshot)
      (read : readSnapshot hash projectId none dir stat = .ok snapshot) :
      Taken hash projectId snapshot
  | behind (dir : Directory) (stat : String → FileStat) (previous snapshot : VerifiedSnapshot)
      (before : Taken hash projectId previous)
      (read : readSnapshot hash projectId (some previous) dir stat = .ok snapshot) :
      Taken hash projectId snapshot

/-! ### Names and hashes -/

variable {hash : SegmentHash} {projectId : RawText} {dir : Directory}

/-- The names of the files of segments from a sequence number on. -/
def fileNames : Nat → List Segment → List String
  | _, [] => []
  | sequence, segment :: rest =>
      segmentName sequence segment.segmentHash.decoded :: fileNames (sequence + 1) rest

/-- There is one name for each segment. -/
@[simp]
theorem length_fileNames
    (sequence : Nat) (segments : List Segment) :
  (fileNames sequence segments).length = segments.length
  := by
  induction segments generalizing sequence with
  | nil => rfl
  | cons segment rest ih => simp [fileNames, ih]

/-- The names go on behind those of the segments before. -/
theorem fileNames_append
    (sequence : Nat) (front back : List Segment) :
  fileNames sequence (front ++ back)
    = fileNames sequence front ++ fileNames (sequence + front.length) back
  := by
  induction front generalizing sequence with
  | nil => rfl
  | cons segment rest ih =>
      simp only [List.cons_append, fileNames, ih, List.length_cons]
      rw [Nat.add_right_comm, Nat.add_assoc]

/-- The name of a file tells the hash. -/
theorem segmentName_injective
    {sequence : Nat} {h h' : String} (same : segmentName sequence h = segmentName sequence h') :
  h = h'
  := by
  rw [segmentName, segmentName, String.ofList_inj, List.append_assoc, List.append_assoc] at same
  have digits := List.append_cancel_left same
  exact String.toList_inj.mp (List.append_cancel_right (List.cons.inj digits).2)

/-- Is the hash of the segment text without stray bytes? -/
def Computed (segment : Segment) : Prop :=
  ∃ h, segment.segmentHash = .ofString h

/-- Segments with the same file names have the same hashes. -/
theorem map_segmentHash_of_fileNames
    {sequence : Nat} {segments segments' : List Segment}
    (computed : ∀ segment ∈ segments, Computed segment)
    (computed' : ∀ segment ∈ segments', Computed segment)
    (same : fileNames sequence segments = fileNames sequence segments') :
  segments.map Segment.segmentHash = segments'.map Segment.segmentHash
  := by
  induction segments generalizing sequence segments' with
  | nil =>
      cases segments' with
      | nil => rfl
      | cons segment' rest' => simp [fileNames] at same
  | cons segment rest ih =>
      cases segments' with
      | nil => simp [fileNames] at same
      | cons segment' rest' =>
          rw [fileNames, fileNames, List.cons.injEq] at same
          have first := segmentName_injective same.1
          obtain ⟨h, eq⟩ := computed segment (by simp)
          obtain ⟨h', eq'⟩ := computed' segment' (by simp)
          rw [eq, eq', RawText.decoded_ofString, RawText.decoded_ofString] at first
          rw [List.map_cons, List.map_cons, eq, eq', first,
            ih (fun s mem => computed s (by simp [mem])) (fun s mem => computed' s (by simp [mem]))
              same.2]

/-- Segments with the same hashes have the same head. -/
theorem headOf_congr
    {segments segments' : List Segment}
    (same : segments.map Segment.segmentHash = segments'.map Segment.segmentHash) :
  headOf segments = headOf segments'
  := by
  have lengths : segments.length = segments'.length := by simpa using congrArg List.length same
  rw [headOf, headOf, headHash, headHash, lengths, ← List.getLast?_map, ← List.getLast?_map, same]

/-- The files that are read have the names of the segments. -/
theorem readFiles_fileNames
    {sequence : Nat} {previous : RawText} {names : List String} {segments : List Segment}
    (read : readFiles hash projectId dir sequence previous names = .ok segments) :
  names = fileNames sequence segments ∧ ∀ segment ∈ segments, Computed segment
  := by
  induction names generalizing sequence previous segments with
  | nil =>
      obtain rfl := Except.ok.inj read
      simp [fileNames]
  | cons name rest ih =>
      simp only [readFiles, bind_eq_ok, Except.ok.injEq] at read
      obtain ⟨text, -, segment, accepted, more, read, rfl⟩ := read
      obtain ⟨d, rfl, checked⟩ := readSegmentFile_eq_ok.mp accepted
      obtain ⟨names, computed⟩ := ih read
      have hashed := checked.hashed
      simp only [computeHash, bind_eq_ok, Except.ok.injEq] at hashed
      obtain ⟨_, -, own⟩ := hashed
      refine ⟨?_, ?_⟩
      · rw [fileNames, ← names, checked.named, checked.sequence_eq]
      · intro segment' mem
        rcases List.mem_cons.mp mem with rfl | mem
        · exact ⟨_, own.symm⟩
        · exact computed segment' mem

/-- Files are read behind those before. -/
theorem readFiles_append
    {sequence : Nat} {previous : RawText} {front back : List String} {segments : List Segment}
    (read : readFiles hash projectId dir sequence previous (front ++ back) = .ok segments) :
  ∃ first later, segments = first ++ later ∧
    readFiles hash projectId dir sequence previous front = .ok first ∧
    readFiles hash projectId dir (sequence + front.length)
      ((first.getLast?.map Segment.segmentHash).getD previous) back = .ok later
  := by
  induction front generalizing sequence previous segments with
  | nil => exact ⟨[], segments, rfl, rfl, read⟩
  | cons name rest ih =>
      simp only [List.cons_append, readFiles, bind_eq_ok, Except.ok.injEq] at read
      obtain ⟨text, known, segment, accepted, more, read, rfl⟩ := read
      obtain ⟨first, later, rfl, readFirst, readLater⟩ := ih read
      refine ⟨segment :: first, later, rfl, ?_, ?_⟩
      · simp only [readFiles, known, accepted, readFirst, ok_bind]
      · rw [List.length_cons, Nat.add_comm rest.length, ← Nat.add_assoc]
        rwa [getLast?_hash_cons]

/-! ### Agreement -/

/-- Names that pass with their files pass alone. -/
theorem checkNames_of_validateNames
    {sequence : Nat} {names : List String} (valid : validateNames dir sequence names = .ok ()) :
  checkNames sequence names = .ok ()
  := by
  induction names generalizing sequence with
  | nil => rfl
  | cons name rest ih =>
      simp only [validateNames, bind_eq_ok, check_eq_ok] at valid
      obtain ⟨_, -, _, form, valid⟩ := valid
      simp only [checkNames, check, form, if_true, ok_bind, ih valid]

/-- A file that is read at its place in the chain is read as that of the last segment, with the same
hash. -/
theorem inspectTail_eq_ok
    {name : String} {file : FileText} {sequence : Nat} {previous : RawText} {segment : Segment}
    (accepted : readSegmentFile hash projectId name file sequence previous = .ok segment) :
  inspectTail hash projectId name file sequence
    = .ok { sequence := segment.sequence, hash := segment.segmentHash }
  := by
  obtain ⟨d, rfl, checked⟩ := readSegmentFile_eq_ok.mp accepted
  have decoded : segmentDecoder.decodeStrict default d = .ok segment := by
    simp only [Decoder.decodeStrict, bind_eq_ok, check_eq_ok]
    exact ⟨(), checked.closed, checked.read⟩
  have place : (segment.sequence = sequence && segment.projectId = projectId) = true := by
    simp [checked.sequence_eq, checked.projectId_eq]
  have named : decide (name = segmentName segment.sequence segment.segmentHash.decoded) = true :=
    decide_eq_true checked.named
  have canonical : decide (d.canon = d) = true := decide_eq_true checked.canonical
  simp only [inspectTail, checked.authority, decoded, canonical, place, checked.hashed, named,
    checked.command, checked.events, check, decide_true, Bool.true_and, if_true, ok_bind]

/-- The head that is observed on a journal that is read is the head of its segments. -/
theorem inspectHead_eq_ok
    {segments : List Segment} (read : readAll hash projectId dir = .ok segments) :
  inspectHead hash projectId dir = .ok (headOf segments)
  := by
  obtain ⟨stores, short⟩ := readAll_eq_ok.mp read
  have count : decide ((listed dir).length ≤ maxSegmentCount) = true := by
    rw [readFiles_length stores.read] at short
    simpa [sortNames] using short
  have names := checkNames_of_validateNames stores.named
  have plain : ((listed dir).all fun entry => entry.2 ≠ .symlink) = true := by
    simpa using stores.plain
  simp only [inspectHead, plain, count, names, check, if_true, ok_bind]
  have named := stores.named
  have files := stores.read
  generalize sortNames ((listed dir).map Sigma.fst) = names at named files ⊢
  rcases names.eq_nil_or_concat with rfl | ⟨front, last, rfl⟩
  · obtain rfl := Except.ok.inj files
    rfl
  · rw [List.concat_eq_append] at named files ⊢
    obtain ⟨first, later, rfl, readFirst, readLater⟩ := readFiles_append files
    simp only [readFiles, bind_eq_ok, need_eq_ok, Except.ok.injEq] at readLater
    obtain ⟨text, found, segment, accepted, _, rfl, rfl⟩ := readLater
    have known : dir.lookup last = some (.file text) := by
      split at found <;> simp_all
    obtain ⟨d, -, checked⟩ := readSegmentFile_eq_ok.mp accepted
    obtain ⟨_, -, -, -, regular⟩ := validateNames_ok named
      (List.mem_append_right front (List.mem_singleton_self last))
    have tail := inspectTail_eq_ok accepted
    rw [Nat.add_comm 1] at tail
    have place : segment.sequence = first.length + 1 := by
      rw [checked.sequence_eq, readFiles_length readFirst, Nat.add_comm]
    simp only [List.getLast?_concat, regular, known, need, if_true, ok_bind,
      List.length_append, List.length_singleton, tail, headOf, headHash_concat, place]

/-- The names of the files of a snapshot are those of its segments. -/
def VerifiedSnapshot.Named (snapshot : VerifiedSnapshot) : Prop :=
  snapshot.files.map SegmentFileIdentity.name = fileNames 1 snapshot.segments ∧
    ∀ segment ∈ snapshot.segments, Computed segment

/-- The identities of files have their names. -/
@[simp]
theorem map_name_fileIdentity
    (stat : String → FileStat) (names : List String) :
  (names.map (fileIdentity dir stat)).map SegmentFileIdentity.name = names
  := by
  simp [fileIdentity, Function.comp_def]

/-- The segments that are kept have the names of the first files. -/
theorem keptOf_fileNames
    {previous : Option VerifiedSnapshot} (files : List SegmentFileIdentity)
    (earlier : ∀ v, previous = some v → v.Named) :
  (fileNames 1 (keptOf previous files) <+: files.map SegmentFileIdentity.name) ∧
    ∀ segment ∈ keptOf previous files, Computed segment
  := by
  unfold keptOf
  split
  · rename_i unchanged
    cases previous with
    | none => simp at unchanged
    | some v =>
        obtain ⟨names, computed⟩ := earlier v rfl
        refine ⟨?_, computed⟩
        rw [Option.any_some, List.isPrefixOf_iff_prefix] at unchanged
        have earlier := unchanged.map SegmentFileIdentity.name
        rwa [names] at earlier
  · simp [fileNames]

/-- The names of the files of a new snapshot are those of its segments. -/
theorem readSnapshot_named
    {previous : Option VerifiedSnapshot} {stat : String → FileStat} {snapshot : VerifiedSnapshot}
    (earlier : ∀ v, previous = some v → v.Named)
    (read : readSnapshot hash projectId previous dir stat = .ok snapshot) :
  snapshot.Named
  := by
  simp only [readSnapshot, bind_eq_ok, check_eq_ok, Except.ok.injEq] at read
  obtain ⟨names, -, _, -, added, readAdded, rfl⟩ := read
  obtain ⟨front, computed⟩ := keptOf_fileNames (names.map (fileIdentity dir stat)) earlier
  obtain ⟨back, computed'⟩ := readFiles_fileNames readAdded
  rw [map_name_fileIdentity, List.prefix_iff_eq_take, length_fileNames] at front
  refine ⟨?_, ?_⟩
  · rw [map_name_fileIdentity, fileNames_append, Nat.add_comm 1, ← back, front,
      List.take_append_drop]
  · intro segment mem
    rcases List.mem_append.mp mem with mem | mem
    · exact computed segment mem
    · exact computed' segment mem

/-- The names of the files of a snapshot that was taken are those of its segments. -/
theorem Taken.named
    {snapshot : VerifiedSnapshot} (taken : Taken hash projectId snapshot) :
  snapshot.Named
  := by
  induction taken with
  | whole dir stat snapshot read => exact readSnapshot_named (by simp) read
  | behind dir stat previous snapshot before read ih =>
      refine readSnapshot_named ?_ read
      intro v same
      exact Option.some.inj same ▸ ih

/-- A journal that is read is also read behind an earlier snapshot that is not longer, with the same
hashes. -/
theorem readSnapshot_eq_ok
    {previous : VerifiedSnapshot} {segments : List Segment} (stat : String → FileStat)
    (taken : Taken hash projectId previous) (within : previous.files.length ≤ segments.length)
    (read : readAll hash projectId dir = .ok segments) :
  ∃ snapshot, readSnapshot hash projectId (some previous) dir stat = .ok snapshot ∧
    headOf snapshot.segments = headOf segments
  := by
  simp only [readAll, bind_eq_ok] at read
  obtain ⟨names, listed, readNames⟩ := read
  have earlier : ∀ v, some previous = some v → v.Named := fun v same =>
    Option.some.inj same ▸ taken.named
  have short : ((some previous).all fun v =>
      decide (v.files.length ≤ (names.map (fileIdentity dir stat)).length)) = true := by
    rw [readFiles_length readNames] at within
    simpa using within
  obtain ⟨front, computed⟩ := keptOf_fileNames (names.map (fileIdentity dir stat)) earlier
  simp only [readSnapshot, listed, short, check, if_true, ok_bind]
  generalize keptOf (some previous) (names.map (fileIdentity dir stat)) = kept at front computed ⊢
  rw [map_name_fileIdentity] at front
  obtain ⟨back, rfl⟩ := front
  obtain ⟨first, later, rfl, readFirst, readLater⟩ := readFiles_append readNames
  obtain ⟨firstNames, computed'⟩ := readFiles_fileNames readFirst
  have hashes := map_segmentHash_of_fileNames computed computed' firstNames
  -- the files behind are read with the same hash in front of them
  have heads := headOf_congr hashes
  simp only [headOf, Head.mk.injEq] at heads
  have behind : (first.getLast?.map Segment.segmentHash).getD .empty = headHash kept :=
    heads.2.symm
  have drop : (fileNames 1 kept ++ back).drop kept.length = back := by
    rw [← length_fileNames 1 kept, List.drop_left]
  rw [behind, length_fileNames, Nat.add_comm] at readLater
  rw [drop, readLater]
  refine ⟨_, rfl, headOf_congr ?_⟩
  rw [List.map_append, List.map_append, hashes]

/-- On every directory whose journal is read, the head is observed as the number of segments and the
hash of the last one, and reading behind any earlier snapshot that is not longer leads to the same
head. -/
theorem inspectHead_agrees
    {segments : List Segment} (read : readAll hash projectId dir = .ok segments) :
  inspectHead hash projectId dir
      = .ok { sequence := segments.length, hash := headHash segments } ∧
    (segments = [] → inspectHead hash projectId dir = .ok {}) ∧
    ∀ previous stat, Taken hash projectId previous → previous.files.length ≤ segments.length →
      ∃ snapshot, readSnapshot hash projectId (some previous) dir stat = .ok snapshot ∧
        inspectHead hash projectId dir = .ok (headOf snapshot.segments)
  := by
  have head := inspectHead_eq_ok read
  refine ⟨head, ?_, ?_⟩
  · rintro rfl
    exact head
  · intro previous stat taken within
    obtain ⟨snapshot, extended, same⟩ := readSnapshot_eq_ok stat taken within read
    exact ⟨snapshot, extended, same ▸ head⟩

open SampleBackup in
/-- The head of a journal of one segment is observed. -/
theorem inspectHead_agrees_segment :
  inspectHead zeroHash config.projectId SampleBackup.dir
      = .ok { sequence := 1, hash := segment.segmentHash } ∧
    ∃ snapshot, readSnapshot zeroHash config.projectId (some ⟨[], [], true⟩) SampleBackup.dir
      (fun _ => ⟨0, 0⟩)
      = .ok snapshot
  := by
  have agrees := inspectHead_agrees runs.2.1.1
  have taken : Taken zeroHash config.projectId ⟨[], [], false⟩ :=
    .whole ∅ (fun _ => ⟨0, 0⟩) _ rfl
  have taken' : Taken zeroHash config.projectId ⟨[], [], true⟩ :=
    .behind ∅ (fun _ => ⟨0, 0⟩) _ _ taken rfl
  obtain ⟨snapshot, extended, -⟩ := agrees.2.2 _ (fun _ => ⟨0, 0⟩) taken' (by simp)
  exact ⟨agrees.1, snapshot, extended⟩

end Journal

end Dagrail
