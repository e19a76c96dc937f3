import Dagrail.Journal.Chain
import Mathlib.Algebra.Group.Nat.Defs
import Mathlib.Data.List.Lex
import Mathlib.Data.List.Sort

/-!
# The directory of a journal

Every segment is in a file whose name starts with its sequence number, in so many digits that the
names are in the order of the numbers. A journal is read by listing the names, sorting them, and
reading the files one after the other, each behind the one before.
-/

namespace Dagrail

/-! ### Names in order -/

/-- The code points of characters, by which names are compared. -/
def codes (cs : List Char) : List Nat :=
  cs.map Char.toNat

/-- Different names have different code points. -/
theorem codes_injective :
  Function.Injective codes
  := List.map_injective_iff.mpr fun _ _ same => Char.toNat_inj.mp same

/-- Does the name `a` come no later than `b`? -/
def nameLe (a b : String) : Prop :=
  codes a.toList ≤ codes b.toList

instance : DecidableRel nameLe := fun a b =>
  inferInstanceAs (Decidable (codes a.toList ≤ codes b.toList))

instance : Std.Total nameLe := ⟨fun a b => le_total (codes a.toList) (codes b.toList)⟩

instance : IsTrans String nameLe := ⟨fun _ _ _ => le_trans⟩

instance : Std.Antisymm nameLe :=
  ⟨fun _ _ le ge => String.toList_inj.mp (codes_injective (le_antisymm le ge))⟩

/-- The names in order. -/
def sortNames (names : List String) : List String :=
  names.insertionSort nameLe

/-- A name behind sorted ones is the last of them. -/
theorem sortNames_insert
    {names names' : List String} {name : String} (perm : names'.Perm (name :: names))
    (behind : ∀ other ∈ names, nameLe other name) :
  sortNames names' = sortNames names ++ [name]
  := by
  have sorted : (sortNames names ++ [name]).Pairwise nameLe := by
    rw [List.pairwise_append]
    refine ⟨List.pairwise_insertionSort nameLe names, List.pairwise_singleton _ _, ?_⟩
    intro other mem last same
    obtain rfl := List.mem_singleton.mp same
    exact behind other ((List.perm_insertionSort nameLe names).subset mem)
  apply List.Perm.eq_of_pairwise' (List.pairwise_insertionSort nameLe names') sorted
  apply (List.perm_insertionSort nameLe names').trans (perm.trans _)
  have last : (name :: sortNames names).Perm (sortNames names ++ [name]) :=
    (List.perm_append_singleton name (sortNames names)).symm
  exact ((List.perm_insertionSort nameLe names).symm.cons name).trans last

namespace Journal

@[simp]
theorem decimals_length
    (width n : Nat) :
  (decimals width n).length = width
  := by
  induction width generalizing n with
  | zero => rfl
  | succ width ih => simp [decimals, ih]

/-- What comes behind texts of one length does not change their order. -/
theorem lex_append
    {as bs : List Nat} (less : List.Lex (· < ·) as bs) (same : as.length = bs.length)
    (as' bs' : List Nat) :
  List.Lex (· < ·) (as ++ as') (bs ++ bs')
  := by
  induction less with
  | nil => simp at same
  | rel less => exact .rel less
  | cons _ ih => exact .cons (ih (by simpa using same))

/-- Digits are in the order of their numbers. -/
theorem digitChar_lt :
  ∀ d < 10, ∀ e < 10, d < e → (Nat.digitChar d).toNat < (Nat.digitChar e).toNat
  := by
  decide

/-- Numbers written in as many digits are in the order of the numbers. -/
theorem decimals_lt
    {width n m : Nat} (less : n < m) (short : m < 10 ^ width) :
  List.Lex (· < ·) (codes (decimals width n)) (codes (decimals width m))
  := by
  induction width generalizing n m with
  | zero => omega
  | succ width ih =>
      simp only [decimals, codes, List.map_append, List.map_cons, List.map_nil]
      rcases Nat.lt_or_ge (n / 10) (m / 10) with front | front
      · have shorter : m / 10 < 10 ^ width := by
          rw [Nat.div_lt_iff_lt_mul (by decide)]
          rwa [Nat.pow_succ] at short
        apply lex_append (ih front shorter)
        simp [codes]
      · -- the digits in front are the same, so the last ones decide
        have same : n / 10 = m / 10 := by omega
        rw [same]
        apply List.Lex.append_left
        exact .rel (digitChar_lt _ (by omega) _ (by omega) (by omega))

/-- The sequence numbers of a journal have twelve digits. -/
theorem paddedSequence_eq
    {n : Nat} (short : n < 10 ^ 12) :
  paddedSequence n = decimals 12 n
  := by
  have digits : (Nat.toDigits 10 n).length ≤ 12 :=
    (Nat.length_toDigits_le_iff (by decide) (by decide)).mpr short
  rw [paddedSequence, Nat.max_eq_left digits]

/-! ### The directory -/

/-- What is in a directory under a name. -/
inductive Entry where
  | file (text : FileText)
  | directory
  | symlink
  | other
deriving DecidableEq, Inhabited

/-- A directory: its entries by name. -/
abbrev Directory := Table Entry

/-- Does the name end in `.json`? -/
def isSegmentName (name : String) : Bool :=
  ".json".toList.isSuffixOf name.toList

/-- The entries that are listed as those of segment files. -/
def listed (dir : Directory) : List (Sigma fun _ : String => Entry) :=
  dir.entries.filter fun entry => isSegmentName entry.1 && entry.2 ≠ .directory

/-- The text without a suffix it may have. -/
def trimSuffix (suffix cs : List Char) : List Char :=
  if suffix.isSuffixOf cs then cs.take (cs.length - suffix.length) else cs

/-- Is the name that of a segment with the sequence number, and with some hash? -/
def validSegmentName (sequence : Nat) (name : String) : Bool :=
  let front := paddedSequence sequence ++ ['-']
  let digest := trimSuffix ".json".toList (name.toList.drop front.length)
  front.isPrefixOf name.toList && digest.length = 64 && digest.all fun c => isHexUnit (.inl c)

/-- Is there a regular file of a bounded size? -/
def regularFile (dir : Directory) (name : String) : Bool :=
  match dir.lookup name with
  | some (.file text) => decide (text.size ≤ maxSegmentBytes)
  | _ => false

/-- Check the files of names that start with a sequence number. -/
def validateNames (dir : Directory) : Nat → List String → Fallible Unit
  | _, [] => .ok ()
  | sequence, name :: rest => do
      check (regularFile dir name) "journal segment must be a regular file"
      check (validSegmentName sequence name) "journal segment filename is invalid"
      validateNames dir (sequence + 1) rest

/-- The names of the segment files in order. -/
def listSegmentFiles (dir : Directory) : Fallible (List String) := do
  check ((listed dir).all fun entry => entry.2 ≠ .symlink) "journal segment must not be a symlink"
  check (decide ((listed dir).length ≤ maxSegmentCount)) "journal exceeds 1000000 segments"
  let names := sortNames ((listed dir).map Sigma.fst)
  validateNames dir 1 names
  .ok names

/-- Read files of segments behind a place of the chain. -/
def readFiles (hash : SegmentHash) (projectId : RawText) (dir : Directory) :
    Nat → RawText → List String → Fallible (List Segment)
  | _, _, [] => .ok []
  | sequence, previous, name :: rest => do
      let text ← need (match dir.lookup name with
          | some (.file text) => some text
          | _ => none)
        "journal segment must be a regular file"
      let segment ← readSegmentFile hash projectId name text sequence previous
      let more ← readFiles hash projectId dir (sequence + 1) segment.segmentHash rest
      .ok (segment :: more)

/-- Read the journal. -/
def readAll (hash : SegmentHash) (projectId : RawText) (dir : Directory) :
    Fallible (List Segment) := do
  let names ← listSegmentFiles dir
  readFiles hash projectId dir 1 .empty names

/-- The directory stores the segments, however many they are. -/
structure Stores (hash : SegmentHash) (projectId : RawText) (dir : Directory)
    (segments : List Segment) : Prop where
  plain : ∀ entry ∈ listed dir, entry.2 ≠ .symlink
  named : validateNames dir 1 (sortNames ((listed dir).map Sigma.fst)) = .ok ()
  read : readFiles hash projectId dir 1 .empty (sortNames ((listed dir).map Sigma.fst))
    = .ok segments

variable {hash : SegmentHash} {projectId : RawText} {dir : Directory}

/-- As many segments are read as there are names. -/
theorem readFiles_length
    {sequence : Nat} {previous : RawText} {names : List String} {segments : List Segment}
    (read : readFiles hash projectId dir sequence previous names = .ok segments) :
  segments.length = names.length
  := by
  induction names generalizing sequence previous segments with
  | nil =>
      obtain rfl := Except.ok.inj read
      rfl
  | cons name rest ih =>
      simp only [readFiles, bind_eq_ok, Except.ok.injEq] at read
      obtain ⟨_, -, _, -, more, read, rfl⟩ := read
      rw [List.length_cons, ih read, List.length_cons]

/-- A journal is read if the directory stores it and it is not too long. -/
theorem readAll_eq_ok
    {segments : List Segment} :
  readAll hash projectId dir = .ok segments ↔
    Stores hash projectId dir segments ∧ segments.length ≤ maxSegmentCount
  := by
  have count : (sortNames ((listed dir).map Sigma.fst)).length = (listed dir).length := by
    simp [sortNames]
  simp only [readAll, listSegmentFiles, bind_eq_ok, check_eq_ok, Except.ok.injEq, List.all_eq_true,
    decide_eq_true_eq]
  constructor
  · rintro ⟨_, ⟨_, plain, _, short, _, named, rfl⟩, read⟩
    refine ⟨⟨plain, named, read⟩, ?_⟩
    rw [readFiles_length read, count]
    exact short
  · rintro ⟨stores, short⟩
    rw [readFiles_length stores.read, count] at short
    exact ⟨_, ⟨(), stores.plain, (), short, (), stores.named, rfl⟩, stores.read⟩

/-! ### Names of segment files -/

/-- The name of a segment file has a valid form. -/
theorem validSegmentName_segmentName
    (sequence : Nat) (h : Hex) :
  validSegmentName sequence (segmentName sequence h.text) = true
  := by
  have valid := h.valid
  simp only [validBareHash, Bool.and_eq_true, decide_eq_true_eq, List.all_eq_true] at valid
  have digest : trimSuffix ".json".toList (h.text.toList ++ ".json".toList) = h.text.toList := by
    simp [trimSuffix]
  have parts : paddedSequence sequence ++ '-' :: h.text.toList ++ ".json".toList =
      (paddedSequence sequence ++ ['-']) ++ (h.text.toList ++ ".json".toList) := by simp
  simp only [validSegmentName, segmentName, String.toList_ofList, parts, List.drop_left, digest,
    Bool.and_eq_true, decide_eq_true_eq, List.all_eq_true, List.isPrefixOf_iff_prefix]
  refine ⟨⟨List.prefix_append _ _, valid.1⟩, ?_⟩
  intro c mem
  simp [isHexUnit, valid.2 c mem]

/-- The name of a segment file is that of a segment file. -/
theorem isSegmentName_segmentName
    (sequence : Nat) (h : String) :
  isSegmentName (segmentName sequence h) = true
  := by
  simp only [isSegmentName, segmentName, String.toList_ofList, List.isSuffixOf_iff_suffix]
  exact ⟨paddedSequence sequence ++ '-' :: h.toList, by simp⟩

/-- Names with different sequence numbers are in the order of the numbers. -/
theorem codes_lt_of_valid
    {n m : Nat} {a b : String} (less : n < m) (short : m < 10 ^ 12)
    (valid : validSegmentName n a = true) (valid' : validSegmentName m b = true) :
  codes a.toList < codes b.toList
  := by
  simp only [validSegmentName, Bool.and_eq_true, List.isPrefixOf_iff_prefix] at valid valid'
  obtain ⟨⟨⟨rest, same⟩, -⟩, -⟩ := valid
  obtain ⟨⟨⟨rest', same'⟩, -⟩, -⟩ := valid'
  rw [paddedSequence_eq (less.trans short)] at same
  rw [paddedSequence_eq short] at same'
  have order := lex_append (decimals_lt less short) (by simp [codes])
    (codes ('-' :: rest)) (codes ('-' :: rest'))
  simp only [codes, ← List.map_append] at order
  simp only [codes, ← same, ← same', List.append_assoc, List.singleton_append]
  exact order

/-- The names that are checked are those of files whose names have valid forms. -/
theorem validateNames_ok
    {sequence : Nat} {names : List String} (valid : validateNames dir sequence names = .ok ())
    {name : String} (mem : name ∈ names) :
  ∃ n, sequence ≤ n ∧ n < sequence + names.length ∧ validSegmentName n name = true ∧
    regularFile dir name = true
  := by
  induction names generalizing sequence with
  | nil => simp at mem
  | cons first rest ih =>
      simp only [validateNames, bind_eq_ok, check_eq_ok] at valid
      obtain ⟨_, regular, _, form, valid⟩ := valid
      rcases List.mem_cons.mp mem with rfl | mem
      · exact ⟨sequence, le_refl _, by simp, form, regular⟩
      · obtain ⟨n, lower, upper, found⟩ := ih valid mem
        refine ⟨n, by omega, ?_, found⟩
        simp only [List.length_cons]
        omega

/-- The check of names goes on behind those before. -/
theorem validateNames_append
    (sequence : Nat) (front back : List String) :
  validateNames dir sequence (front ++ back) =
    (validateNames dir sequence front >>= fun _ =>
      validateNames dir (sequence + front.length) back)
  := by
  induction front generalizing sequence with
  | nil => rfl
  | cons name rest ih =>
      simp only [List.cons_append, validateNames, ih, bind_assoc, List.length_cons]
      rw [Nat.add_right_comm, Nat.add_assoc]

/-- The hash that is linked to behind segments is that behind the rest of them. -/
theorem getLast?_hash_cons
    (previous : RawText) (first : Segment) (more : List Segment) :
  ((first :: more).getLast?.map Segment.segmentHash).getD previous
    = (more.getLast?.map Segment.segmentHash).getD first.segmentHash
  := by
  cases more using List.reverseRecOn <;> simp [List.getLast?_cons]

/-- A further file is read behind those before. -/
theorem readFiles_concat
    {sequence : Nat} {previous : RawText} {front : List String} {segments : List Segment}
    {last : String} {text : FileText} {segment : Segment}
    (read : readFiles hash projectId dir sequence previous front = .ok segments)
    (found : dir.lookup last = some (.file text))
    (accepted : readSegmentFile hash projectId last text (sequence + front.length)
      ((segments.getLast?.map Segment.segmentHash).getD previous) = .ok segment) :
  readFiles hash projectId dir sequence previous (front ++ [last]) = .ok (segments ++ [segment])
  := by
  induction front generalizing sequence previous segments with
  | nil =>
      obtain rfl := Except.ok.inj read
      have accepted' : readSegmentFile hash projectId last text sequence previous = .ok segment :=
        accepted
      simp only [List.nil_append, readFiles, found, need, ok_bind, accepted']
  | cons name rest ih =>
      simp only [readFiles, bind_eq_ok, Except.ok.injEq] at read
      obtain ⟨text', known, first, read', more, readMore, rfl⟩ := read
      rw [getLast?_hash_cons, List.length_cons, Nat.add_comm rest.length, ← Nat.add_assoc] at accepted
      simp only [List.cons_append, readFiles, known, ok_bind, read', ih readMore accepted]

/-! ### Segments in memory and in files -/

end Journal

/-- A text without stray bytes is read back as it is. -/
theorem RawText.canonical_eq_self
    {t : RawText} (h : ∀ unit ∈ t.units, unit.isLeft = true) :
  t.canonical = t
  := by
  obtain ⟨units⟩ := t
  simp only [canonical, ofString, decoded, String.toList_ofList, List.map_map, RawText.mk.injEq]
  calc units.map (Sum.inl ∘ decodedUnit) = units.map id := by
        apply List.map_congr_left
        intro unit mem
        cases unit with
        | inl c => rfl
        | inr b => exact absurd (h (.inr b) mem) (by simp)
    _ = units := List.map_id units

namespace Journal

/-- A hexadecimal digit is no stray byte. -/
theorem isLeft_of_isHexUnit
    {unit : Char ⊕ UInt8} (h : isHexUnit unit = true) :
  unit.isLeft = true
  := by
  cases unit with
  | inl c => rfl
  | inr b => exact absurd h (by simp [isHexUnit])

/-- A digest is read back as it is. -/
theorem canonical_of_validRequestDigest
    {t : RawText} (h : validRequestDigest t = true) :
  t.canonical = t
  := by
  simp only [validRequestDigest, Bool.and_eq_true, decide_eq_true_eq, List.all_eq_true] at h
  apply RawText.canonical_eq_self
  intro unit mem
  rw [← List.take_append_drop 7 t.units, List.mem_append] at mem
  rcases mem with front | back
  · rw [h.1.1] at front
    simp only [RawText.ofString, List.mem_map] at front
    obtain ⟨c, -, rfl⟩ := front
    rfl
  · exact isLeft_of_isHexUnit (h.2 unit back)

/-- What is blank stays so when it is read back. -/
theorem blankText_canonical
    (t : RawText) :
  blankText t.canonical = blankText t
  := by
  obtain ⟨units⟩ := t
  simp only [blankText, RawText.canonical, RawText.ofString, RawText.decoded, String.toList_ofList,
    List.map_map]
  induction units with
  | nil => rfl
  | cons unit rest ih =>
      rw [List.map_cons, List.all_cons, List.all_cons, ih]
      cases unit with
      | inl c => rfl
      | inr b => rfl

/-- A command that is accepted in memory is accepted when it is read back. -/
theorem validateStoredCommand_canonical
    {segmentSchema : Int} {command : Command}
    (h : validateStoredCommand segmentSchema command = .ok ()) :
  validateStoredCommand segmentSchema command.canonical = .ok ()
  := by
  simp only [validateStoredCommand, bind_eq_ok, check_eq_ok, Bool.or_eq_true, Bool.and_eq_true,
    decide_eq_true_eq, Command.canonical, RawText.canonical_eq_empty] at h ⊢
  obtain ⟨_, supported, _, intent, digest⟩ := h
  refine ⟨(), supported, (), intent, ?_⟩
  rcases digest with none_ | valid
  · exact Or.inl none_
  · rw [canonical_of_validRequestDigest valid]
    exact Or.inr valid

/-- An event that is accepted in memory is accepted when it is read back. -/
theorem validateEvent_canonical
    {event : Event} (h : validateEvent event = .ok ()) :
  validateEvent event.canonical = .ok ()
  := by
  simp only [validateEvent, bind_eq_ok, check_eq_ok, Event.canonical, blankText_canonical] at h ⊢
  obtain ⟨_, type, object⟩ := h
  refine ⟨(), type, ?_⟩
  obtain ⟨type_, version, payload⟩ := event
  cases payload with
  | none => simp at object
  | some document =>
      cases document with
      | obj members => rfl
      | _ => simp at object

/-- Events that are accepted in memory are accepted when they are read back. -/
theorem validateStoredEvents_canonical
    {segmentSchema : Int} {events : List Event}
    (h : validateStoredEvents segmentSchema events = .ok ()) :
  validateStoredEvents segmentSchema (events.map Event.canonical) = .ok ()
  := by
  simp only [validateStoredEvents, bind_eq_ok, check_eq_ok, decide_eq_true_eq,
    List.length_map, List.isEmpty_map] at h ⊢
  obtain ⟨_, supported, _, some_, _, few, each⟩ := h
  refine ⟨(), supported, (), some_, (), few, ?_⟩
  clear some_ few
  induction events with
  | nil => rfl
  | cons event rest ih =>
      simp only [List.forM_eq_forM, List.forM_cons, bind_eq_ok, check_eq_ok, decide_eq_true_eq,
        List.map_cons] at each ih ⊢
      obtain ⟨_, ⟨_, version, valid⟩, more⟩ := each
      exact ⟨(), ⟨(), version, validateEvent_canonical valid⟩, ih more⟩

variable {hash : SegmentHash} {projectId : RawText} {dir : Directory}

/-- Each of the stored events is accepted. -/
theorem validateEvent_of_stored
    {segmentSchema : Int} {events : List Event}
    (h : validateStoredEvents segmentSchema events = .ok ()) {event : Event}
    (mem : event ∈ events) :
  validateEvent event = .ok ()
  := by
  simp only [validateStoredEvents, bind_eq_ok] at h
  obtain ⟨_, -, _, -, _, -, each⟩ := h
  induction events with
  | nil => simp at mem
  | cons first rest ih =>
      simp only [List.forM_eq_forM, List.forM_cons, bind_eq_ok] at each ih
      obtain ⟨_, ⟨_, -, valid⟩, more⟩ := each
      rcases List.mem_cons.mp mem with rfl | mem
      · exact valid
      · exact ih mem more

/-- The hash of a validated segment does not change when it is read back. -/
theorem computeHash_canonical
    {segment : Segment} {h : RawText} (hashed : computeHash hash segment = .ok h) :
  computeHash hash segment.canonical = .ok h
  := by
  simp only [computeHash, bind_eq_ok, check_eq_ok, Bool.or_eq_true, decide_eq_true_eq,
    Segment.unsigned_canonical] at hashed ⊢
  obtain ⟨_, previous, result⟩ := hashed
  refine ⟨(), ?_, result⟩
  rcases previous with none_ | hex
  · exact Or.inl (by simp [Segment.canonical, none_])
  · right
    have same : segment.previousHash.canonical = segment.previousHash := by
      apply RawText.canonical_eq_self
      simp only [isHexText, Bool.and_eq_true, List.all_eq_true] at hex
      intro unit mem
      exact isLeft_of_isHexUnit (hex.2 unit mem)
    rwa [Segment.canonical, same]

/-- A segment that is valid at its place is read back from its file. -/
theorem ValidAt.readSegmentFile_eq
    {p : String} {sequence : Nat} {previous : RawText} {segment : Segment}
    (valid : ValidAt hash (.ofString p) sequence previous segment)
    (read : previous.canonical = previous) :
  readSegmentFile hash (.ofString p) (segmentName sequence segment.segmentHash.decoded)
    segment.text sequence previous = .ok segment.canonical
  := by
  have hashed := computeHash_canonical valid.hashed
  have own : segment.segmentHash.canonical = segment.segmentHash := by
    rw [valid.segmentHash_eq, RawText.canonical_ofString]
  apply readSegmentFile_eq_ok.mpr
  refine ⟨_, rfl, valid.small, valid.authority, segment.closed_canon, segment.read_canon,
    validateStoredCommand_canonical valid.command, Json.canon_canon _, valid.sequence_eq, ?_, ?_, ?_,
    ?_, validateStoredEvents_canonical valid.events⟩
  · simp [Segment.canonical, valid.projectId_eq]
  · simp [Segment.canonical, valid.previous_eq, read]
  · simpa [Segment.canonical, own] using hashed
  · simp [Segment.canonical, valid.sequence_eq]

/-! ### Growth -/

/-- A new entry under another name changes no file that is read. -/
theorem validateNames_insert
    {name : String} {entry : Entry} {sequence : Nat} {names : List String} (new : name ∉ names) :
  validateNames (dir.insert name entry) sequence names = validateNames dir sequence names
  := by
  induction names generalizing sequence with
  | nil => rfl
  | cons first rest ih =>
      rw [List.mem_cons, not_or] at new
      have kept : regularFile (dir.insert name entry) first = regularFile dir first := by
        rw [regularFile, regularFile, AList.lookup_insert_ne (Ne.symm new.1)]
      simp only [validateNames, kept, ih new.2]

theorem readFiles_insert
    {name : String} {entry : Entry} {sequence : Nat} {previous : RawText} {names : List String}
    (new : name ∉ names) :
  readFiles hash projectId (dir.insert name entry) sequence previous names =
    readFiles hash projectId dir sequence previous names
  := by
  induction names generalizing sequence previous with
  | nil => rfl
  | cons first rest ih =>
      rw [List.mem_cons, not_or] at new
      simp only [readFiles, AList.lookup_insert_ne (Ne.symm new.1), ih new.2]

/-- A new entry that is not that of a segment file is not listed. -/
theorem listed_insert_other
    {name : String} {entry : Entry} (absent : dir.lookup name = none)
    (other : isSegmentName name = false) :
  listed (dir.insert name entry) = listed dir
  := by
  have notMem : name ∉ dir := AList.lookup_eq_none.mp absent
  simp only [listed, AList.entries_insert_of_notMem notMem, List.filter_cons, other, Bool.false_and,
    Bool.false_eq_true, if_false]

/-- A new file of a segment is listed. -/
theorem listed_insert_new
    {name : String} {text : FileText} (absent : dir.lookup name = none)
    (segment : isSegmentName name = true) :
  listed (dir.insert name (.file text)) = ⟨name, .file text⟩ :: listed dir
  := by
  have notMem : name ∉ dir := AList.lookup_eq_none.mp absent
  have file : Entry.file text ≠ .directory := nofun
  simp only [listed, AList.entries_insert_of_notMem notMem, List.filter_cons, segment, file,
    Bool.true_and, decide_not, decide_false, Bool.not_false, if_true]

/-- A directory stores the same when it has a further entry that is not that of a segment. -/
theorem Stores.insert_other
    {segments : List Segment} (stores : Stores hash projectId dir segments) {name : String}
    {entry : Entry} (absent : dir.lookup name = none) (other : isSegmentName name = false) :
  Stores hash projectId (dir.insert name entry) segments
  := by
  have new : name ∉ sortNames ((listed dir).map Sigma.fst) := by
    intro mem
    have listedName := (List.perm_insertionSort nameLe _).subset mem
    simp only [listed, List.mem_map, List.mem_filter, Bool.and_eq_true] at listedName
    obtain ⟨_, ⟨-, segment, -⟩, rfl⟩ := listedName
    rw [other] at segment
    exact Bool.noConfusion segment
  constructor
  · rw [listed_insert_other absent other]
    exact stores.plain
  · rw [listed_insert_other absent other, validateNames_insert new]
    exact stores.named
  · rw [listed_insert_other absent other, readFiles_insert new]
    exact stores.read

/-- As many names are listed as segments are stored. -/
theorem Stores.length_eq
    {segments : List Segment} (stores : Stores hash projectId dir segments) :
  (sortNames ((listed dir).map Sigma.fst)).length = segments.length
  := (readFiles_length stores.read).symm

/-- The listed names have sequence numbers of stored segments. -/
theorem Stores.validName
    {segments : List Segment} (stores : Stores hash projectId dir segments) {name : String}
    (mem : name ∈ (listed dir).map Sigma.fst) :
  ∃ n ≤ segments.length, validSegmentName n name = true
  := by
  have sorted : name ∈ sortNames ((listed dir).map Sigma.fst) :=
    (List.perm_insertionSort nameLe _).symm.subset mem
  obtain ⟨n, -, upper, valid, -⟩ := validateNames_ok stores.named sorted
  rw [stores.length_eq] at upper
  exact ⟨n, by omega, valid⟩

/-- No file has the name of the next segment. -/
theorem Stores.lookup_new
    {segments : List Segment} (stores : Stores hash projectId dir segments)
    (short : segments.length + 1 < 10 ^ 12) (h : Hex) :
  dir.lookup (segmentName (segments.length + 1) h.text) = none ∨
    dir.lookup (segmentName (segments.length + 1) h.text) = some .directory
  := by
  generalize named : segmentName (segments.length + 1) h.text = name
  cases found : dir.lookup name with
  | none => exact Or.inl rfl
  | some entry =>
      by_cases isDirectory : entry = .directory
      · rw [isDirectory]
        exact Or.inr rfl
      · exfalso
        have mem : name ∈ (listed dir).map Sigma.fst := by
          rw [List.mem_map]
          refine ⟨⟨name, entry⟩, ?_, rfl⟩
          have segment := isSegmentName_segmentName (segments.length + 1) h.text
          rw [named] at segment
          simp only [listed, List.mem_filter, segment, Bool.true_and, decide_eq_true_eq]
          exact ⟨AList.mem_lookup_iff.mp found, isDirectory⟩
        obtain ⟨n, upper, valid⟩ := stores.validName mem
        have valid' := validSegmentName_segmentName (segments.length + 1) h
        rw [named] at valid'
        exact lt_irrefl _ (codes_lt_of_valid (Nat.lt_succ_of_le upper) short valid valid')

/-- A journal grows by a file of a segment that is valid behind the others. -/
theorem Stores.insert_segment
    {p : String} {segments : List Segment} (stores : Stores hash (.ofString p) dir segments)
    (short : segments.length + 1 < 10 ^ 12) {segment : Segment}
    (valid : ValidAt hash (.ofString p) (segments.length + 1) (headHash segments) segment)
    (read : (headHash segments).canonical = headHash segments)
    (absent : dir.lookup (segmentName (segments.length + 1) segment.segmentHash.decoded) = none) :
  Stores hash (.ofString p)
    (dir.insert (segmentName (segments.length + 1) segment.segmentHash.decoded)
      (.file segment.text)) (segments ++ [segment.canonical])
  := by
  have accepted := valid.readSegmentFile_eq read
  have own : segment.segmentHash.decoded = (hash segment.unsigned.canon).text := by
    rw [valid.segmentHash_eq, RawText.decoded_ofString]
  have form := validSegmentName_segmentName (segments.length + 1) (hash segment.unsigned.canon)
  rw [← own] at form
  generalize named : segmentName (segments.length + 1) segment.segmentHash.decoded = name
    at absent accepted form ⊢
  have isSegment : isSegmentName name = true := by
    rw [← named]
    exact isSegmentName_segmentName _ _
  have unlisted : name ∉ (listed dir).map Sigma.fst := by
    intro mem
    simp only [listed, List.mem_map, List.mem_filter] at mem
    obtain ⟨entry, ⟨mem, -⟩, rfl⟩ := mem
    rw [AList.mem_lookup_iff.mpr mem] at absent
    exact Option.some_ne_none _ absent
  have new : name ∉ sortNames ((listed dir).map Sigma.fst) :=
    fun mem => unlisted ((List.perm_insertionSort nameLe _).subset mem)
  have grown := @listed_insert_new dir name segment.text absent isSegment
  have sorted : sortNames ((listed (dir.insert name (.file segment.text))).map Sigma.fst) =
      sortNames ((listed dir).map Sigma.fst) ++ [name] := by
    apply sortNames_insert (by rw [grown, List.map_cons])
    intro other mem
    obtain ⟨n, upper, valid⟩ := stores.validName mem
    exact le_of_lt (codes_lt_of_valid (Nat.lt_succ_of_le upper) short valid form)
  have found : (dir.insert name (.file segment.text)).lookup name = some (.file segment.text) :=
    AList.lookup_insert _
  constructor
  · rw [grown]
    intro entry mem
    rcases List.mem_cons.mp mem with rfl | mem
    · simp
    · exact stores.plain entry mem
  · rw [sorted, validateNames_append, validateNames_insert new, stores.named, ok_bind,
      stores.length_eq]
    have small : segment.text.size ≤ maxSegmentBytes := valid.small
    have form' : validSegmentName (1 + segments.length) name = true := by
      rw [Nat.add_comm]
      exact form
    simp [validateNames, regularFile, found, small, form', check]
  · rw [sorted]
    apply readFiles_concat _ found
    · rw [stores.length_eq, Nat.add_comm]
      exact accepted
    · rw [readFiles_insert new]
      exact stores.read

/-- What is read is linked to what was read before. -/
theorem readFiles_linked
    {sequence : Nat} {previous : RawText} {names : List String} {front segments : List Segment}
    (linked : Linked hash front) (behind : headHash front = previous)
    (read : readFiles hash projectId dir sequence previous names = .ok segments) :
  Linked hash (front ++ segments)
  := by
  induction names generalizing sequence previous front segments with
  | nil =>
      obtain rfl := Except.ok.inj read
      rwa [List.append_nil]
  | cons name rest ih =>
      simp only [readFiles, bind_eq_ok, Except.ok.injEq] at read
      obtain ⟨text, -, segment, accepted, more, read, rfl⟩ := read
      obtain ⟨d, -, checked⟩ := readSegmentFile_eq_ok.mp accepted
      have hashed := checked.hashed
      simp only [computeHash, bind_eq_ok, Except.ok.injEq] at hashed
      obtain ⟨_, -, own⟩ := hashed
      have next : Linked hash (front ++ [segment]) :=
        .concat front segment linked (checked.previous_eq.trans behind.symm) own.symm
      have all := ih next (headHash_concat front segment) read
      rwa [List.append_assoc, List.singleton_append] at all

/-- What is read is its own canonical form. -/
theorem readFiles_canonical
    {sequence : Nat} {previous : RawText} {names : List String} {segments : List Segment}
    (read : readFiles hash projectId dir sequence previous names = .ok segments) :
  segments.map Segment.canonical = segments
  := by
  induction names generalizing sequence previous segments with
  | nil =>
      obtain rfl := Except.ok.inj read
      rfl
  | cons name rest ih =>
      simp only [readFiles, bind_eq_ok, Except.ok.injEq] at read
      obtain ⟨text, -, segment, accepted, more, read, rfl⟩ := read
      obtain ⟨d, -, checked⟩ := readSegmentFile_eq_ok.mp accepted
      have documents : ∀ event ∈ segment.events, event.payload.isSome = true := by
        intro event mem
        have valid := validateEvent_of_stored checked.events mem
        simp only [validateEvent, bind_eq_ok, check_eq_ok] at valid
        obtain ⟨_, -, object⟩ := valid
        cases document : event.payload with
        | none => simp [document] at object
        | some d => rfl
      rw [List.map_cons, Segment.canonical_of_read checked.read documents, ih read]

/-- The segments that are stored are linked. -/
theorem Stores.linked
    {segments : List Segment} (stores : Stores hash projectId dir segments) :
  Linked hash segments
  := readFiles_linked .nil rfl stores.read

/-- The segments that are stored are their own canonical form. -/
theorem Stores.canonical_eq
    {segments : List Segment} (stores : Stores hash projectId dir segments) :
  segments.map Segment.canonical = segments
  := readFiles_canonical stores.read

end Journal

end Dagrail
