import Dagrail.Domain.Time
import Dagrail.Journal.Directory

/-!
# Restoring a journal

A restore writes the segments of a list behind those a journal has, one file at a time. It may stop
anywhere: before a file has its name, with a temporary file left behind, or after. The journal is
then a shorter prefix of the list, and the restore may be made again.
-/

namespace Dagrail

namespace Journal

/-! ### Writing files -/

/-- Where the writing of a file stops when it fails: before the file gets its name, when there may
be a temporary file left under a random name, or after. -/
inductive WriteFault where
  | before (left : Option (String × FileText))
  | after

/-- Give a temporary file its name. A file of that name is replaced, a directory is not. -/
def publishPath (dir : Directory) (name : String) (text : FileText) : Option Directory :=
  match dir.lookup name with
  | some .directory => none
  | _ => some (dir.insert name (.file text))

/-- Leave a temporary file behind. Its name is a new one. -/
def leave (dir : Directory) (temporary : String) (text : FileText) : Directory :=
  if dir.has temporary then dir else dir.insert temporary (.file text)

/-- Write a file under a name. -/
def writeFile (temporary : String → String) (dir : Directory) (name : String) (text : FileText)
    (fault : Option WriteFault) : Directory × Fallible Unit :=
  match fault with
  | some (.before none) => (dir, .error "the file was not written")
  | some (.before (some (random, written))) =>
      (leave dir (temporary random) written, .error "the file was not written")
  | some .after =>
      match publishPath dir name text with
      | none => (dir, .error "the file was not published")
      | some dir' => (dir', .error "the directory was not synchronized")
  | none =>
      match publishPath dir name text with
      | none => (dir, .error "the file was not published")
      | some dir' => (dir', .ok ())

/-- The names of temporary files, which are not those of segments. -/
def temporaryName (kind random : String) : String :=
  String.ofList ('.' :: kind.toList ++ '-' :: random.toList ++ ".tmp".toList)

/-- A temporary file is not listed as a segment. -/
theorem isSegmentName_temporaryName
    (kind random : String) :
  isSegmentName (temporaryName kind random) = false
  := by
  rw [Bool.eq_false_iff]
  intro segment
  simp only [isSegmentName, temporaryName, String.toList_ofList, List.isSuffixOf_iff_suffix] at segment
  obtain ⟨front, same⟩ := segment
  have ends := congrArg (fun cs => cs.reverse.head?) same
  simp at ends

/-- What writing a file can do to a directory: nothing, leave a file that is no segment behind, or
give the file its name. -/
inductive Written (dir : Directory) (name : String) (text : FileText) : Directory → Bool → Prop where
  | nothing : Written dir name text dir false
  | left (temporary : String) (written : FileText) (absent : dir.lookup temporary = none)
      (other : isSegmentName temporary = false) :
      Written dir name text (dir.insert temporary (.file written)) false
  | published (done : Bool) (free : dir.lookup name ≠ some .directory) :
      Written dir name text (dir.insert name (.file text)) done

/-- A file gets its name unless there is a directory of that name. -/
theorem publishPath_eq_some
    {dir dir' : Directory} {name : String} {text : FileText} :
  publishPath dir name text = some dir' ↔
    dir.lookup name ≠ some .directory ∧ dir' = dir.insert name (.file text)
  := by
  unfold publishPath
  split
  · rename_i found
    simp [found]
  · rename_i other
    have free : dir.lookup name ≠ some .directory := other
    simp only [Option.some.injEq, free, ne_eq, not_false_eq_true, true_and]
    exact eq_comm

/-- The writing of a file is one of what it can be. -/
theorem writeFile_written
    {kind : String} {dir dir' : Directory} {name : String} {text : FileText}
    {fault : Option WriteFault} {result : Fallible Unit}
    (write : writeFile (temporaryName kind) dir name text fault = (dir', result)) :
  Written dir name text dir' result.isOk
  := by
  cases fault with
  | none =>
      cases published : publishPath dir name text with
      | none =>
          simp only [writeFile, published, Prod.mk.injEq] at write
          obtain ⟨rfl, rfl⟩ := write
          exact .nothing
      | some dir₁ =>
          simp only [writeFile, published, Prod.mk.injEq] at write
          obtain ⟨rfl, rfl⟩ := write
          obtain ⟨free, rfl⟩ := publishPath_eq_some.mp published
          exact .published _ free
  | some fault =>
      cases fault with
      | after =>
          cases published : publishPath dir name text with
          | none =>
              simp only [writeFile, published, Prod.mk.injEq] at write
              obtain ⟨rfl, rfl⟩ := write
              exact .nothing
          | some dir₁ =>
              simp only [writeFile, published, Prod.mk.injEq] at write
              obtain ⟨rfl, rfl⟩ := write
              obtain ⟨free, rfl⟩ := publishPath_eq_some.mp published
              exact .published _ free
      | before left =>
          cases left with
          | none =>
              simp only [writeFile, Prod.mk.injEq] at write
              obtain ⟨rfl, rfl⟩ := write
              exact .nothing
          | some file =>
              simp only [writeFile, leave, Prod.mk.injEq] at write
              obtain ⟨rfl, rfl⟩ := write
              by_cases known : dir.has (temporaryName kind file.1) = true
              · rw [if_pos known]
                exact .nothing
              · rw [if_neg known]
                rw [Table.has, Option.not_isSome_iff_eq_none] at known
                exact .left _ _ known (isSegmentName_temporaryName kind file.1)

/-- What was in the directory stays there, if no file had the name already. -/
theorem Written.lookup_kept
    {dir dir' : Directory} {name : String} {text : FileText} {done : Bool}
    (written : Written dir name text dir' done)
    (new : dir.lookup name = none ∨ dir.lookup name = some .directory) {other : String}
    {entry : Entry} (found : dir.lookup other = some entry) :
  dir'.lookup other = some entry
  := by
  cases written with
  | nothing => exact found
  | left temporary written absent segment =>
      have different : other ≠ temporary := by
        rintro rfl
        simp [found] at absent
      rw [AList.lookup_insert_ne different]
      exact found
  | published done free =>
      have different : other ≠ name := by
        rintro rfl
        rcases new with absent | directory
        · simp [found] at absent
        · exact free directory
      rw [AList.lookup_insert_ne different]
      exact found

/-- The journal after writing the next segment has the same segments, or that one in addition. -/
theorem Written.stores
    {hash : SegmentHash} {p : String} {dir dir' : Directory} {segments : List Segment}
    {segment : Segment} {done : Bool} (stores : Stores hash (.ofString p) dir segments)
    (short : segments.length + 1 < 10 ^ 12)
    (valid : ValidAt hash (.ofString p) (segments.length + 1) (headHash segments) segment)
    (written : Written dir (segmentName (segments.length + 1) segment.segmentHash.decoded)
      segment.text dir' done) :
  (done = false ∧ Stores hash (.ofString p) dir' segments) ∨
    Stores hash (.ofString p) dir' (segments ++ [segment.canonical])
  := by
  cases written with
  | nothing => exact Or.inl ⟨rfl, stores⟩
  | left temporary written absent other => exact Or.inl ⟨rfl, stores.insert_other absent other⟩
  | published done free =>
      right
      have own : segment.segmentHash.decoded = (hash segment.unsigned.canon).text := by
        rw [valid.segmentHash_eq, RawText.decoded_ofString]
      have absent := stores.lookup_new short (hash segment.unsigned.canon)
      rw [← own] at absent
      obtain ⟨h, head⟩ := stores.linked.headHash_eq
      apply stores.insert_segment short valid _ (absent.resolve_right free)
      rw [head, RawText.canonical_ofString]

/-! ### The establishment of a journal -/

/-- The document that establishes the authority of a journal. -/
structure AuthorityEstablishment where
  apiVersion : String := ""
  kind : String := ""
  projectId : String := ""
  previousProjectId : String := ""
  operation : String := ""
  establishedAt : String := ""
  provenanceDigest : String := ""

open Decoder in
def authorityEstablishmentDecoder : Decoder AuthorityEstablishment :=
  .record
    [textField "apiVersion" (·.apiVersion) fun r v => { r with apiVersion := v },
     textField "kind" (·.kind) fun r v => { r with kind := v },
     textField "projectId" (·.projectId) fun r v => { r with projectId := v },
     textField "previousProjectId" (·.previousProjectId) fun r v => { r with previousProjectId := v },
     textField "operation" (·.operation) fun r v => { r with operation := v },
     textField "establishedAt" (·.establishedAt) fun r v => { r with establishedAt := v },
     textField "provenanceDigest" (·.provenanceDigest) fun r v => { r with provenanceDigest := v }]

/-- The operation of an establishment is known, and goes with the project before. -/
def validateOperation (projectId : String) (establishment : AuthorityEstablishment) :
    Fallible Unit :=
  if establishment.operation = "initialization" then
    check (establishment.previousProjectId = "")
      "initial authority establishment has a predecessor"
  else if ["rotation", "legacy-adoption", "relocation"].contains establishment.operation then
    check (establishment.previousProjectId ≠ "" && establishment.previousProjectId ≠ projectId)
      "replacement authority establishment predecessor is invalid"
  else .error "claimed authority establishment operation is invalid"

/-- The journal starts with the establishment of the project. -/
def validateEstablishedAuthorityPrefix (digest : Json → Hex) (projectId : String) :
    List Segment → Fallible Unit
  | [] => .error "claimed authority is missing its schema-4 establishment fence"
  | first :: _ => do
      check (first.schemaVersion = authorityFenceSchemaVersion && first.sequence = 1
          && first.previousHash = .empty && first.projectId = .ofString projectId
          && first.command.kind = .ofString "authority.establish"
          && first.command.actorRole = .ofString "dagrail.recovery"
          && first.command.objectRef = .ofString ("project:" ++ projectId))
        "claimed authority has an invalid schema-4 establishment prefix"
      let event ← need (match first.events with
          | [event] => some event
          | _ => none)
        "claimed authority has an invalid schema-4 establishment prefix"
      check (event.type = .ofString "authority.established"
          && event.schemaVersion = currentEventSchemaVersion)
        "claimed authority has an invalid schema-4 establishment prefix"
      let payload ← need event.payload "claimed authority establishment payload is invalid"
      let establishment ← authorityEstablishmentDecoder.decodeStrict {} payload
      check (establishment.apiVersion = "dagrail.io/authority-establishment/v1alpha1"
          && establishment.kind = "AuthorityEstablishment" && establishment.projectId = projectId
          && RawText.ofString establishment.establishedAt = first.committedAt)
        "claimed authority establishment is bound to different authority"
      validateOperation projectId establishment
      check ((Time.parseZoned establishment.establishedAt).isSome
          && validRequestDigest (.ofString establishment.provenanceDigest))
        "claimed authority establishment evidence is invalid"
      let sum := digest payload
      check (first.command.id
            = .ofString ("authority-establish-" ++ String.ofList (sum.text.toList.take 32))
          && first.command.idempotencyKey = .ofString ("authority-establish/" ++ sum.text)
          && first.command.requestDigest = .ofString sum.digest)
        "claimed authority establishment command binding is invalid"

/-! ### Restoring -/

/-- What a store may be used for. -/
inductive StoreCapability where
  | ordinary
  | establishment
  | inspection
  | recovery
  | rehearsal
deriving DecidableEq

/-- A store of the journal of a project. -/
structure Store where
  projectId : String
  capability : StoreCapability := .ordinary
  testAllowUnestablished : Bool := false

/-- What a store has on disk: the directory of the journal, and the record of a retirement. -/
structure Disk where
  journal : Directory
  sidecar : Option Entry := none

/-- The content of the first event of the segments that retires the authority. -/
def retirementEvent (segments : List Segment) : Option Json :=
  ((segments.flatMap Segment.events).find? fun event =>
    event.type = .ofString "authority.retired").map fun event => event.payload.getD .null

/-- The size up to which the record of a retirement is read. -/
def maxRetirementBytes : Nat := 65536

/-- The record of a retirement. Bytes that are no document without white space are not a record that
was written, and are not told apart from a record that cannot be read. -/
def authorityRetirement (disk : Disk) : Fallible (Option Json) :=
  match disk.sidecar with
  | none => .ok none
  | some (.file (.document d)) => do
      check (decide (0 < d.size) && decide (d.size ≤ maxRetirementBytes))
        "authority retirement marker is not a bounded regular file"
      check d.validateAuthority "authority retirement marker"
      .ok (some d)
  | some _ => .error "authority retirement marker is not a bounded regular file"

/-- A restore asks for the establishment of the project, except in a rehearsal. -/
def requireEstablishment (digest : Json → Hex) (store : Store) (segments : List Segment) :
    Fallible Unit :=
  if store.capability = .rehearsal || store.testAllowUnestablished then .ok ()
  else validateEstablishedAuthorityPrefix digest store.projectId segments

/-- A restore asks for a claim of the authority and for no record of its retirement, except in a
rehearsal. The claim is the answer to whether the authority of the project is claimed here. -/
def requireAuthority (store : Store) (claim : Fallible Unit) (disk : Disk) : Fallible Unit :=
  if store.capability = .rehearsal then .ok ()
  else do
    claim
    let retired ← authorityRetirement disk
    check retired.isNone "project authority is retired and cannot restore journal writes"

/-- The segments a restore has to write: those behind the ones the journal has. -/
def restoreAdmission (hash : SegmentHash) (digest : Json → Hex) (store : Store)
    (claim : Fallible Unit) (segments : List Segment) (disk : Disk) : Fallible (List Segment) := do
  check (store.capability ≠ .establishment)
    "authority establishment store cannot restore journal writes"
  check (store.capability = .ordinary || store.capability = .rehearsal)
    "recovery inspection store cannot restore journal writes"
  validateSegments hash (.ofString store.projectId) segments
  requireEstablishment digest store segments
  requireAuthority store claim disk
  let existing ← readAll hash (.ofString store.projectId) disk.journal
  check (store.capability = .rehearsal || (retirementEvent existing).isNone)
    "project authority is retired and cannot restore journal writes"
  check (decide (existing.length ≤ segments.length)) "existing journal is longer than backup"
  check ((existing.zip segments).all fun (a, b) => a.segmentHash = b.segmentHash)
    "existing journal diverges"
  .ok (segments.drop existing.length)

/-- Write segments one after the other. -/
def writeSegments (dir : Directory) : List Segment → (Nat → Option WriteFault) →
    Directory × Fallible Unit
  | [], _ => (dir, .ok ())
  | segment :: rest, faults =>
      match writeFile (temporaryName "restore") dir
          (segmentName segment.sequence segment.segmentHash.decoded) segment.text (faults 0) with
      | (dir', .ok ()) => writeSegments dir' rest fun i => faults (i + 1)
      | (dir', .error e) => (dir', .error e)

/-- Restore a journal from a list of segments. -/
def restoreSegments (hash : SegmentHash) (digest : Json → Hex) (store : Store)
    (claim : Fallible Unit) (segments : List Segment) (faults : Nat → Option WriteFault)
    (disk : Disk) : Disk × Fallible Unit :=
  match restoreAdmission hash digest store claim segments disk with
  | .error e => (disk, .error e)
  | .ok missing =>
      let (journal, result) := writeSegments disk.journal missing faults
      ({ disk with journal }, result)

section

variable {hash : SegmentHash} {digest : Json → Hex} {store : Store} {claim : Fallible Unit}
  {segments : List Segment} {disk : Disk}

/-- What has been checked when a restore may write. -/
structure Admitted (hash : SegmentHash) (digest : Json → Hex) (store : Store)
    (claim : Fallible Unit) (segments : List Segment) (disk : Disk) (existing : List Segment) :
    Prop where
  capable : store.capability = .ordinary ∨ store.capability = .rehearsal
  valid : validateSegments hash (.ofString store.projectId) segments = .ok ()
  established : (store.capability = .rehearsal ∨ store.testAllowUnestablished = true) ∨
    validateEstablishedAuthorityPrefix digest store.projectId segments = .ok ()
  claimed : store.capability = .rehearsal ∨ (claim = .ok () ∧ authorityRetirement disk = .ok none)
  read : readAll hash (.ofString store.projectId) disk.journal = .ok existing
  unfenced : store.capability = .rehearsal ∨ retirementEvent existing = none
  shorter : existing.length ≤ segments.length
  same : ∀ pair ∈ existing.zip segments, pair.1.segmentHash = pair.2.segmentHash

/-- The establishment that is asked for is there, or need not be. -/
theorem requireEstablishment_eq_ok
    {u : Unit} :
  requireEstablishment digest store segments = .ok u ↔
    (store.capability = .rehearsal ∨ store.testAllowUnestablished = true) ∨
      validateEstablishedAuthorityPrefix digest store.projectId segments = .ok ()
  := by
  rw [requireEstablishment]
  by_cases free : store.capability = .rehearsal ∨ store.testAllowUnestablished = true
  · simp [free]
  · simp only [Bool.or_eq_true, decide_eq_true_eq, free, if_false, false_or]

/-- The authority that is asked for is there, or need not be. -/
theorem requireAuthority_eq_ok
    {u : Unit} :
  requireAuthority store claim disk = .ok u ↔
    store.capability = .rehearsal ∨ (claim = .ok () ∧ authorityRetirement disk = .ok none)
  := by
  rw [requireAuthority]
  by_cases rehearsal : store.capability = .rehearsal
  · simp [rehearsal]
  · rw [if_neg rehearsal]
    simp only [bind_eq_ok, check_eq_ok, Option.isNone_iff_eq_none, rehearsal, false_or]
    constructor
    · rintro ⟨_, claimed, _, retired, rfl⟩
      exact ⟨claimed, retired⟩
    · rintro ⟨claimed, retired⟩
      exact ⟨(), claimed, none, retired, rfl⟩

/-- A restore may write what its checks leave to be written. -/
theorem restoreAdmission_eq_ok
    {missing : List Segment} :
  restoreAdmission hash digest store claim segments disk = .ok missing ↔
    ∃ existing, Admitted hash digest store claim segments disk existing ∧
      missing = segments.drop existing.length
  := by
  simp only [restoreAdmission, bind_eq_ok, check_eq_ok, decide_eq_true_eq, Bool.or_eq_true,
    List.all_eq_true, Except.ok.injEq, Option.isNone_iff_eq_none, requireEstablishment_eq_ok,
    requireAuthority_eq_ok]
  constructor
  · rintro ⟨_, -, _, capable, _, valid, _, established, _, claimed, existing, read, _, unfenced, _,
      shorter, _, same, rfl⟩
    exact ⟨existing, ⟨capable, valid, established, claimed, read, unfenced, shorter, same⟩, rfl⟩
  · rintro ⟨existing, admitted, rfl⟩
    have possible : store.capability ≠ .establishment := by
      rcases admitted.capable with capable | capable <;> rw [capable] <;> decide
    exact ⟨(), possible, (), admitted.capable, (), admitted.valid, (), admitted.established, (),
      admitted.claimed, existing, admitted.read, (), admitted.unfenced, (), admitted.shorter, (),
      admitted.same, rfl⟩

/-! ### What a restore writes -/

/-- A chain is valid up to any place. -/
theorem Chain.of_append
    {projectId : RawText} {front back : List Segment}
    (chain : Chain hash projectId (front ++ back)) :
  Chain hash projectId front
  := by
  induction back using List.reverseRecOn with
  | nil => rwa [List.append_nil] at chain
  | append_singleton back last ih =>
      rw [← List.append_assoc] at chain
      exact ih chain.last.1

/-- The head of segments is the same in canonical form, if it is a text without stray bytes. -/
theorem headHash_canonical
    (segments : List Segment) :
  headHash (segments.map Segment.canonical) = (headHash segments).canonical
  := by
  cases segments using List.reverseRecOn with
  | nil => rfl
  | append_singleton front last => simp [Segment.canonical]

/-- What the writing of segments does to a journal that has those before. The journal has some of
them in addition at the end, all of them if nothing went wrong, and nothing that was in the
directory is lost. -/
theorem writeSegments_spec
    {p : String} {dir dir' : Directory} {front back : List Segment}
    {faults : Nat → Option WriteFault} {result : Fallible Unit}
    (stores : Stores hash (.ofString p) dir (front.map Segment.canonical))
    (chain : Chain hash (.ofString p) (front ++ back)) (short : (front ++ back).length < 10 ^ 12)
    (write : writeSegments dir back faults = (dir', result)) :
  (∃ written rest, back = written ++ rest ∧ (result = .ok () → rest = []) ∧
      Stores hash (.ofString p) dir' ((front ++ written).map Segment.canonical)) ∧
    ∀ name entry, dir.lookup name = some entry → dir'.lookup name = some entry
  := by
  induction back generalizing dir front faults with
  | nil =>
      obtain ⟨rfl, rfl⟩ := Prod.mk.inj write
      refine ⟨⟨[], [], rfl, fun _ => rfl, ?_⟩, fun _ _ found => found⟩
      rwa [List.append_nil]
  | cons segment rest ih =>
      have whole : front ++ segment :: rest = front ++ [segment] ++ rest := by simp
      rw [whole] at chain short
      obtain ⟨before, valid⟩ := chain.of_append.last
      obtain ⟨h, head⟩ := before.linked.headHash_eq
      have head' : headHash (front.map Segment.canonical) = headHash front := by
        rw [headHash_canonical, head, RawText.canonical_ofString]
      have place : ValidAt hash (.ofString p) ((front.map Segment.canonical).length + 1)
          (headHash (front.map Segment.canonical)) segment := by
        rw [head', List.length_map]
        exact valid
      have short' : (front.map Segment.canonical).length + 1 < 10 ^ 12 := by
        simp only [List.length_append, List.length_map, List.length_singleton] at short ⊢
        omega
      have number : segment.sequence = (front.map Segment.canonical).length + 1 := place.sequence_eq
      simp only [writeSegments, number] at write
      cases first : writeFile (temporaryName "restore") dir
          (segmentName ((front.map Segment.canonical).length + 1) segment.segmentHash.decoded)
          segment.text (faults 0) with
      | mk dir₁ result₁ =>
          have written := writeFile_written first
          have absent := stores.lookup_new short' (hash segment.unsigned.canon)
          have own : segment.segmentHash.decoded = (hash segment.unsigned.canon).text := by
            rw [valid.segmentHash_eq, RawText.decoded_ofString]
          rw [← own] at absent
          have kept : ∀ name entry, dir.lookup name = some entry →
              dir₁.lookup name = some entry := fun _ _ => written.lookup_kept absent
          have grown := written.stores stores short' place
          cases result₁ with
          | error e =>
              rw [first] at write
              obtain ⟨rfl, rfl⟩ := Prod.mk.inj write
              refine ⟨?_, kept⟩
              rcases grown with ⟨-, same⟩ | more
              · refine ⟨[], segment :: rest, rfl, nofun, ?_⟩
                rwa [List.append_nil]
              · refine ⟨[segment], rest, rfl, nofun, ?_⟩
                rwa [List.map_append, List.map_singleton]
          | ok u =>
              rw [first] at write
              have more : Stores hash (.ofString p) dir₁
                  ((front ++ [segment]).map Segment.canonical) := by
                rw [List.map_append, List.map_singleton]
                exact grown.resolve_left fun none_ => Bool.noConfusion none_.1
              obtain ⟨⟨written', rest', rfl, done, final⟩, kept'⟩ := ih more chain short write
              refine ⟨⟨segment :: written', rest', rfl, done, ?_⟩, ?_⟩
              · rwa [List.append_assoc, List.singleton_append] at final
              · exact fun name entry found => kept' name entry (kept name entry found)

/-- Nothing goes wrong with the writing of segments if no file fails and no directory has the name
of one. -/
theorem writeSegments_ok
    {dir : Directory} {back : List Segment}
    (free : ∀ segment ∈ back,
      dir.lookup (segmentName segment.sequence segment.segmentHash.decoded) ≠ some .directory) :
  (writeSegments dir back fun _ => none).2 = .ok ()
  := by
  induction back generalizing dir with
  | nil => rfl
  | cons segment rest ih =>
      rw [List.forall_mem_cons] at free
      have published : publishPath dir (segmentName segment.sequence segment.segmentHash.decoded)
          segment.text = some (dir.insert _ (.file segment.text)) :=
        publishPath_eq_some.mpr ⟨free.1, rfl⟩
      simp only [writeSegments, writeFile, published]
      apply ih
      intro other mem
      by_cases same : segmentName other.sequence other.segmentHash.decoded =
          segmentName segment.sequence segment.segmentHash.decoded
      · rw [same, AList.lookup_insert]
        simp
      · rw [AList.lookup_insert_ne same]
        exact free.2 other mem

/-! ### Prefixes -/

/-- Lists whose pairs agree agree as far as the first one goes. -/
theorem map_eq_of_zip
    {α β : Type} {f : α → β} {xs ys : List α} (shorter : xs.length ≤ ys.length)
    (same : ∀ pair ∈ xs.zip ys, f pair.1 = f pair.2) :
  xs.map f = (ys.take xs.length).map f
  := by
  induction xs generalizing ys with
  | nil => rfl
  | cons x xs ih =>
      cases ys with
      | nil => simp at shorter
      | cons y ys =>
          rw [List.zip_cons_cons, List.forall_mem_cons] at same
          simp only [List.length_cons, Nat.add_le_add_iff_right] at shorter
          rw [List.map_cons, List.length_cons, List.take_succ_cons, List.map_cons, same.1,
            ih shorter same.2]

/-- The head is the last of the hashes. -/
theorem headHash_eq_map
    (segments : List Segment) :
  headHash segments = ((segments.map Segment.segmentHash).getLast?).getD .empty
  := by
  rw [headHash, List.getLast?_map]

/-- Every segment of a valid chain has a hash text. -/
theorem Chain.segmentHash_canonical
    {projectId : RawText} (chain : Chain hash projectId segments) :
  ∀ segment ∈ segments, segment.segmentHash.canonical = segment.segmentHash
  := by
  induction chain with
  | nil => simp
  | concat front last before valid ih =>
      intro segment mem
      rcases List.mem_append.mp mem with mem | mem
      · exact ih segment mem
      · obtain rfl := List.mem_singleton.mp mem
        rw [valid.segmentHash_eq, RawText.canonical_ofString]

/-- The journal of an admitted restore is a prefix of the list, if no hashes collide. -/
theorem Admitted.existing_eq
    {existing : List Segment}
    (admitted : Admitted hash digest store claim segments disk existing)
    (free : CollisionFree hash (existing ++ segments)) :
  existing = (segments.take existing.length).map Segment.canonical
  := by
  obtain ⟨-, chain⟩ := validateSegments_eq_ok.mp admitted.valid
  obtain ⟨stores, -⟩ := readAll_eq_ok.mp admitted.read
  have front : Chain hash (.ofString store.projectId) (segments.take existing.length) := by
    rw [← List.take_append_drop existing.length segments] at chain
    exact chain.of_append
  have heads : headHash existing = headHash (segments.take existing.length) := by
    rw [headHash_eq_map, headHash_eq_map, map_eq_of_zip admitted.shorter admitted.same]
  have within : ∀ {a}, a ∈ existing ++ segments.take existing.length → a ∈ existing ++ segments := by
    intro a mem
    rcases List.mem_append.mp mem with mem | mem
    · exact List.mem_append_left _ mem
    · exact List.mem_append_right _ (List.mem_of_mem_take mem)
  have same := stores.linked.canonical_eq front.linked
    (fun a mem b mem' => free a (within mem) b (within mem')) heads
  rwa [stores.canonical_eq] at same

/-- The segments of a list in canonical form have the hashes of the list. -/
theorem zip_canonical
    {n : Nat} (own : ∀ segment ∈ segments, segment.segmentHash.canonical = segment.segmentHash) :
  ∀ pair ∈ ((segments.take n).map Segment.canonical).zip segments,
    pair.1.segmentHash = pair.2.segmentHash
  := by
  induction segments generalizing n with
  | nil => simp
  | cons segment rest ih =>
      rw [List.forall_mem_cons] at own
      cases n with
      | zero => simp
      | succ n =>
          rw [List.take_succ_cons, List.map_cons, List.zip_cons_cons, List.forall_mem_cons]
          exact ⟨own.1, ih own.2⟩

/-- What an admitted restore makes of the journal: a longer prefix of the list, all of it if nothing
goes wrong. -/
theorem Admitted.restored
    {existing : List Segment} {faults : Nat → Option WriteFault} {out : Disk}
    {result : Fallible Unit}
    (admitted : Admitted hash digest store claim segments disk existing)
    (free : CollisionFree hash (existing ++ segments))
    (restored : restoreSegments hash digest store claim segments faults disk = (out, result)) :
  (∃ n, existing.length ≤ n ∧ n ≤ segments.length ∧ (result = .ok () → n = segments.length) ∧
      readAll hash (.ofString store.projectId) out.journal =
        .ok ((segments.take n).map Segment.canonical)) ∧
    ∀ name entry, disk.journal.lookup name = some entry → out.journal.lookup name = some entry
  := by
  obtain ⟨short, chain⟩ := validateSegments_eq_ok.mp admitted.valid
  obtain ⟨stores, -⟩ := readAll_eq_ok.mp admitted.read
  have admission := restoreAdmission_eq_ok.mpr ⟨existing, admitted, rfl⟩
  simp only [restoreSegments, admission, Prod.mk.injEq] at restored
  obtain ⟨rfl, rfl⟩ := restored
  have front := admitted.existing_eq free
  rw [front] at stores
  rw [← List.take_append_drop existing.length segments] at chain
  have bound : (segments.take existing.length ++ segments.drop existing.length).length < 10 ^ 12 := by
    rw [List.take_append_drop]
    exact lt_of_le_of_lt short (by decide)
  obtain ⟨⟨written, rest, missing, done, grown⟩, kept⟩ :=
    writeSegments_spec stores chain bound (Prod.mk.eta (p := writeSegments _ _ faults)).symm
  refine ⟨⟨existing.length + written.length, by omega, ?_, ?_, ?_⟩, kept⟩
  · have count := congrArg List.length missing
    simp only [List.length_drop, List.length_append] at count
    have := admitted.shorter
    omega
  · intro success
    have none_ := done success
    have count := congrArg List.length missing
    simp only [List.length_drop, List.length_append, none_, List.length_nil] at count
    have := admitted.shorter
    omega
  · have all : segments.take (existing.length + written.length) =
        segments.take existing.length ++ written := by
      rw [List.take_add, missing, List.take_left]
    rw [all]
    apply readAll_eq_ok.mpr
    refine ⟨grown, ?_⟩
    rw [List.length_map, ← all, List.length_take]
    exact (min_le_right _ _).trans short

/-- A restore that is not admitted changes nothing. -/
theorem restoreSegments_refused
    {faults : Nat → Option WriteFault} {out : Disk} {result : Fallible Unit}
    (refused : ∀ existing, ¬ Admitted hash digest store claim segments disk existing)
    (restored : restoreSegments hash digest store claim segments faults disk = (out, result)) :
  out = disk ∧ ∃ e, result = .error e
  := by
  cases admission : restoreAdmission hash digest store claim segments disk with
  | error e =>
      simp only [restoreSegments, admission, Prod.mk.injEq] at restored
      exact ⟨restored.1.symm, e, restored.2.symm⟩
  | ok missing =>
      obtain ⟨existing, admitted, -⟩ := restoreAdmission_eq_ok.mp admission
      exact absurd admitted (refused existing)

/-- A restore changes nothing but the journal. -/
theorem restoreSegments_sidecar
    {faults : Nat → Option WriteFault} {out : Disk} {result : Fallible Unit}
    (restored : restoreSegments hash digest store claim segments faults disk = (out, result)) :
  out.sidecar = disk.sidecar
  := by
  cases admission : restoreAdmission hash digest store claim segments disk with
  | error e =>
      simp only [restoreSegments, admission, Prod.mk.injEq] at restored
      rw [← restored.1]
  | ok missing =>
      simp only [restoreSegments, admission, Prod.mk.injEq] at restored
      rw [← restored.1]

/-- The store may write the journal: it may be restored at all, the authority is there, and the
journal has not been retired, unless this is a rehearsal. -/
structure Restorable (hash : SegmentHash) (digest : Json → Hex) (store : Store)
    (claim : Fallible Unit) (segments : List Segment) (disk : Disk) : Prop where
  capable : store.capability = .ordinary ∨ store.capability = .rehearsal
  established : requireEstablishment digest store segments = .ok ()
  claimed : requireAuthority store claim disk = .ok ()
  unfenced : store.capability = .rehearsal ∨ ∀ existing,
    readAll hash (.ofString store.projectId) disk.journal = .ok existing →
      retirementEvent existing = none

/-- A journal that may be written and is a prefix of the list is admitted. -/
theorem Restorable.admitted
    {n : Nat} (restorable : Restorable hash digest store claim segments disk)
    (valid : validateSegments hash (.ofString store.projectId) segments = .ok ())
    (read : readAll hash (.ofString store.projectId) disk.journal =
      .ok ((segments.take n).map Segment.canonical)) :
  Admitted hash digest store claim segments disk ((segments.take n).map Segment.canonical)
  := by
  obtain ⟨-, chain⟩ := validateSegments_eq_ok.mp valid
  refine ⟨restorable.capable, valid, requireEstablishment_eq_ok.mp restorable.established,
    requireAuthority_eq_ok.mp restorable.claimed, read, ?_, ?_, zip_canonical chain.segmentHash_canonical⟩
  · rcases restorable.unfenced with rehearsal | unfenced
    · exact Or.inl rehearsal
    · exact Or.inr (unfenced _ read)
  · rw [List.length_map, List.length_take]
    exact min_le_right _ _

/-- An admitted journal may be written. -/
theorem Admitted.restorable
    {existing : List Segment}
    (admitted : Admitted hash digest store claim segments disk existing) :
  Restorable hash digest store claim segments disk
  := by
  refine ⟨admitted.capable, requireEstablishment_eq_ok.mpr admitted.established,
    requireAuthority_eq_ok.mpr admitted.claimed, ?_⟩
  rcases admitted.unfenced with rehearsal | unfenced
  · exact Or.inl rehearsal
  · right
    intro existing' read
    obtain rfl := Except.ok.inj (admitted.read.symm.trans read)
    exact unfenced

/-- Segments of a list in canonical form collide with none of the list, if those of the list do not
collide. -/
theorem CollisionFree.canonical
    {n : Nat} (free : CollisionFree hash segments) :
  CollisionFree hash ((segments.take n).map Segment.canonical ++ segments)
  := by
  have plain : ∀ a ∈ (segments.take n).map Segment.canonical ++ segments,
      ∃ b ∈ segments, b.unsigned.canon = a.unsigned.canon := by
    intro a mem
    rcases List.mem_append.mp mem with mem | mem
    · obtain ⟨b, taken, rfl⟩ := List.mem_map.mp mem
      exact ⟨b, List.mem_of_mem_take taken, b.unsigned_canonical.symm⟩
    · exact ⟨a, mem, rfl⟩
  intro a mem b mem' same
  obtain ⟨a', mem, same_a⟩ := plain a mem
  obtain ⟨b', mem', same_b⟩ := plain b mem'
  rw [← same_a, ← same_b] at same ⊢
  exact free a' mem b' mem' same

/-- A restore with a list that is valid in memory never takes a file away or changes one. It fails
and changes nothing if the journal is no prefix of the list, or if the store may not write it. Else
the journal is a prefix of the list wherever the restore stops, and the whole list if it succeeds.
When it is made again on a prefix that it has left, and no file fails, it succeeds, as long as the
store may write the journal, which it may not once the prefix holds the retirement of the authority. -/
theorem restore_resumes
    {faults : Nat → Option WriteFault} {out : Disk} {result : Fallible Unit}
    (valid : validateSegments hash (.ofString store.projectId) segments = .ok ())
    (free : ∀ existing, readAll hash (.ofString store.projectId) disk.journal = .ok existing →
      CollisionFree hash (existing ++ segments))
    (restored : restoreSegments hash digest store claim segments faults disk = (out, result)) :
  (out.sidecar = disk.sidecar ∧ ∀ name entry, disk.journal.lookup name = some entry →
      out.journal.lookup name = some entry) ∧
    ((∀ existing, readAll hash (.ofString store.projectId) disk.journal = .ok existing →
        ¬ existing <+: segments.map Segment.canonical) →
      out = disk ∧ ∃ e, result = .error e) ∧
    (∀ existing, readAll hash (.ofString store.projectId) disk.journal = .ok existing →
      existing <+: segments.map Segment.canonical →
      ∃ reached, readAll hash (.ofString store.projectId) out.journal = .ok reached ∧
        existing <+: reached ∧ reached <+: segments.map Segment.canonical ∧
        (result = .ok () → reached = segments.map Segment.canonical) ∧
        (Restorable hash digest store claim segments out →
          (∀ segment ∈ segments, out.journal.lookup
            (segmentName segment.sequence segment.segmentHash.decoded) ≠ some .directory) →
          ∃ final, restoreSegments hash digest store claim segments (fun _ => none) out =
              (final, .ok ()) ∧
            readAll hash (.ofString store.projectId) final.journal =
              .ok (segments.map Segment.canonical))) ∧
    (¬ Restorable hash digest store claim segments out → ∀ faults', ∃ e,
      restoreSegments hash digest store claim segments faults' out = (out, .error e))
  := by
  have sidecar := restoreSegments_sidecar restored
  have refusal : ¬ Restorable hash digest store claim segments out → ∀ faults', ∃ e,
      restoreSegments hash digest store claim segments faults' out = (out, .error e) := by
    intro unwritable faults'
    cases again : restoreSegments hash digest store claim segments faults' out with
    | mk out' result' =>
        obtain ⟨rfl, e, rfl⟩ := restoreSegments_refused
          (fun existing admitted => unwritable admitted.restorable) again
        exact ⟨e, rfl⟩
  by_cases refused : ∀ existing, ¬ Admitted hash digest store claim segments disk existing
  · obtain ⟨rfl, e, rfl⟩ := restoreSegments_refused refused restored
    refine ⟨⟨rfl, fun _ _ found => found⟩, fun _ => ⟨rfl, e, rfl⟩, ?_, refusal⟩
    intro existing read part
    refine ⟨existing, read, List.prefix_rfl, part, nofun, ?_⟩
    -- a journal that may be written would have been admitted
    intro restorable
    rw [List.prefix_iff_eq_take, ← List.map_take] at part
    rw [part] at read
    exact absurd (restorable.admitted valid read) (refused _)
  · simp only [not_forall, not_not] at refused
    obtain ⟨existing, admitted⟩ := refused
    have collisions := free existing admitted.read
    have front := admitted.existing_eq collisions
    obtain ⟨⟨n, longer, within, whole, reached⟩, kept⟩ := admitted.restored collisions restored
    refine ⟨⟨sidecar, kept⟩, ?_, ?_, refusal⟩
    · intro other
      apply absurd _ (other existing admitted.read)
      rw [front, List.map_take]
      exact List.take_prefix _ _
    · intro existing' read part
      obtain rfl := Except.ok.inj (admitted.read.symm.trans read)
      refine ⟨_, reached, ?_, ?_, ?_, ?_⟩
      · rw [front, List.map_take, List.map_take]
        exact List.take_prefix_take_left longer
      · rw [List.map_take]
        exact List.take_prefix _ _
      · intro success
        rw [whole success, List.take_length]
      · intro restorable free'
        have again := restorable.admitted valid reached
        have collisions' : CollisionFree hash segments :=
          fun a mem b mem' => collisions a (List.mem_append_right _ mem) b (List.mem_append_right _ mem')
        cases final : restoreSegments hash digest store claim segments (fun _ => none) out with
        | mk out' result' =>
            obtain ⟨⟨n', longer', within', whole', reached'⟩, -⟩ :=
              again.restored collisions'.canonical final
            have admission := restoreAdmission_eq_ok.mpr ⟨_, again, rfl⟩
            have success : result' = .ok () := by
              simp only [restoreSegments, admission, Prod.mk.injEq] at final
              rw [← final.2]
              exact writeSegments_ok fun segment mem => free' segment (List.mem_of_mem_drop mem)
            refine ⟨out', by rw [success], ?_⟩
            rw [reached', whole' success, List.take_length]

end

namespace SampleRestore

/-- The hash of sixty-four times one digit. -/
def repeated (n : Nat) : Hex :=
  ⟨String.ofList (List.replicate 64 (Nat.digitChar (n % 10))), by
    have digits : ∀ d < 10, validBareHash (String.ofList (List.replicate 64 (Nat.digitChar d))) := by
      decide
    exact digits _ (Nat.mod_lt _ (by decide))⟩

/-- A hash that tells segments apart by their sequence numbers. -/
def hash : SegmentHash
  | .obj members =>
      match members.lookup "sequence" with
      | some (.num n) => repeated n.toNat
      | _ => Hex.zero
  | _ => Hex.zero

/-- A segment with one event and a hash text of its sequence number. -/
def segment (schema : Int) (sequence : Nat) (command : Command) (event : Event) : Segment where
  schemaVersion := schema
  sequence
  projectId := .ofString "p"
  previousHash := if sequence = 1 then .empty else .ofString (repeated (sequence - 1)).text
  command
  events := [event]
  committedAt := .ofString "1970-01-01T00:00:00Z"
  segmentHash := .ofString (repeated sequence).text

/-- The establishment of the project, under digests that are always zero. -/
def established : Segment :=
  segment 4 1
    { id := .ofString ("authority-establish-" ++ String.ofList (List.replicate 32 '0'))
      kind := .ofString "authority.establish"
      actorRole := .ofString "dagrail.recovery"
      idempotencyKey := .ofString ("authority-establish/" ++ Hex.zero.text)
      objectRef := .ofString "project:p"
      requestDigest := .ofString Hex.zero.digest }
    { type := .ofString "authority.established"
      schemaVersion := 1
      payload := some (.obj
        [("apiVersion", .str "dagrail.io/authority-establishment/v1alpha1"),
          ("establishedAt", .str "1970-01-01T00:00:00Z"), ("kind", .str "AuthorityEstablishment"),
          ("operation", .str "initialization"), ("projectId", .str "p"),
          ("provenanceDigest", .str Hex.zero.digest)]) }

/-- A segment with an event of a type. -/
def noted (sequence : Nat) (type : String) : Segment :=
  segment 4 sequence
    { id := .ofString type, kind := .ofString type, actorRole := .empty
      idempotencyKey := .ofString type, objectRef := .empty, requestDigest := .empty }
    { type := .ofString type, schemaVersion := 1, payload := some (.obj []) }

/-- A list with a retirement and a segment behind it. -/
def segments : List Segment :=
  [established, noted 2 "authority.retired", noted 3 "noted"]

/-- The store of the project. -/
def store : Store := { projectId := "p" }

/-- Nothing on disk. -/
def nothing : Disk := { journal := ∅ }

/-- Everything is written up to the file of the retirement, behind which the writing stops. -/
def faults : Nat → Option WriteFault
  | 1 => some .after
  | _ => none

/-- A restore of the list. -/
def restore (faults : Nat → Option WriteFault) (disk : Disk) : Disk × Fallible Unit :=
  restoreSegments hash (fun _ => Hex.zero) store (.ok ()) segments faults disk

/-- The segments of the list have different hashes. -/
theorem different :
  ∀ a ∈ segments, ∀ b ∈ segments, (hash a.unsigned.canon).text = (hash b.unsigned.canon).text →
      a.unsigned.canon = b.unsigned.canon
  := by decide +kernel

/-- The list passes the validation. -/
theorem validated :
  validateSegments hash (.ofString store.projectId) segments = .ok ()
  := by decide +kernel

/-- The list establishes its authority. -/
theorem establishes :
  requireEstablishment (fun _ => Hex.zero) store segments = .ok ()
  := by decide +kernel

/-- What is written of the list has the retirement in it. -/
theorem written :
  (readAll hash (.ofString store.projectId) (writeSegments nothing.journal segments faults).1).map
      (fun existing => (retirementEvent existing).isSome) = .ok true
  := by decide +kernel

/-- The whole list may be written. -/
theorem admission :
  restoreAdmission hash (fun _ => Hex.zero) store (.ok ()) segments nothing = .ok segments
  :=
  restoreAdmission_eq_ok.mpr ⟨[],
    { capable := .inl rfl
      valid := validated
      established := requireEstablishment_eq_ok.mp establishes
      claimed := .inr ⟨rfl, rfl⟩
      read := by decide +kernel
      unfenced := .inr rfl
      shorter := Nat.zero_le _
      same := nofun }, rfl⟩

/-- A restore that may write the whole list has written it. -/
theorem restored_journal :
  (restore faults nothing).1.journal = (writeSegments nothing.journal segments faults).1
  := by
  rw [restore, restoreSegments, admission]

/-- The segments of the list have different hashes, the list is valid and establishes its authority,
there is no journal yet, and the restore that stops behind the retirement leaves it in the journal. -/
theorem runs :
  (∀ a ∈ segments, ∀ b ∈ segments, (hash a.unsigned.canon).text = (hash b.unsigned.canon).text →
      a.unsigned.canon = b.unsigned.canon) ∧
  (validateSegments hash (.ofString store.projectId) segments = .ok () ∧
    requireEstablishment (fun _ => Hex.zero) store segments = .ok ()) ∧
  readAll hash (.ofString store.projectId) nothing.journal = .ok [] ∧
  (readAll hash (.ofString store.projectId) (restore faults nothing).1.journal).map
      (fun existing => (retirementEvent existing).isSome) = .ok true
  := by
  refine ⟨different, ⟨validated, establishes⟩, by decide +kernel, ?_⟩
  rw [restored_journal]
  exact written

/-- No two segments of the list have one hash. -/
theorem collisionFree :
  CollisionFree hash segments
  := fun a mem b mem' same => runs.1 a mem b mem' (congrArg Hex.text same)

/-- The list is valid. -/
theorem valid :
  validateSegments hash (.ofString store.projectId) segments = .ok ()
  := runs.2.1.1

/-- There is no journal yet. -/
theorem read_nothing :
  readAll hash (.ofString store.projectId) nothing.journal = .ok []
  := runs.2.2.1

/-- What that restore leaves may not be written any more. -/
theorem not_restorable
    {reached : List Segment}
    (read : readAll hash (.ofString store.projectId) (restore faults nothing).1.journal = .ok reached) :
  ¬ Restorable hash (fun _ => Hex.zero) store (.ok ()) segments (restore faults nothing).1
  := by
  intro restorable
  have stopped := runs.2.2.2
  rw [read] at stopped
  have unfenced := (restorable.unfenced.resolve_left nofun) reached read
  simp [Except.map, unfenced] at stopped

end SampleRestore

open SampleRestore in
/-- A list with segments behind a retirement is valid, but a restore that stops behind the
retirement is not taken up again. -/
theorem restore_not_resumed :
  ¬ ∀ (hash : SegmentHash) (digest : Json → Hex) (store : Store) (claim : Fallible Unit)
      (segments existing : List Segment) (faults : Nat → Option WriteFault) (disk out : Disk)
      (result : Fallible Unit),
    validateSegments hash (.ofString store.projectId) segments = .ok () →
    readAll hash (.ofString store.projectId) disk.journal = .ok existing →
    CollisionFree hash (existing ++ segments) →
    existing <+: segments.map Segment.canonical →
    Restorable hash digest store claim segments disk →
    (∀ name, disk.journal.lookup name ≠ some .directory) →
    restoreSegments hash digest store claim segments faults disk = (out, result) →
    ∃ final, restoreSegments hash digest store claim segments (fun _ => none) out =
        (final, .ok ()) ∧
      readAll hash (.ofString store.projectId) final.journal = .ok (segments.map Segment.canonical)
  := by
  intro always
  have restorable : Restorable hash (fun _ => Hex.zero) store (.ok ()) segments nothing := by
    refine ⟨Or.inl rfl, runs.2.1.2, rfl, Or.inr ?_⟩
    intro existing read
    obtain rfl := Except.ok.inj (read_nothing.symm.trans read)
    rfl
  obtain ⟨final, again, -⟩ := always hash (fun _ => Hex.zero) store (.ok ()) segments [] faults
    nothing (restore faults nothing).1 (restore faults nothing).2 valid read_nothing collisionFree
    List.nil_prefix restorable (by simp [nothing]) Prod.mk.eta.symm
  obtain ⟨-, e, failed⟩ := restoreSegments_refused
    (fun reached admitted => not_restorable admitted.read admitted.restorable) again
  cases failed

open SampleRestore in
/-- The restore of the list that stops behind the retirement has left a prefix of it, and is refused
from there on. -/
theorem restore_resumes_fenced :
  ∃ reached, readAll hash (.ofString "p") (restore faults nothing).1.journal = .ok reached ∧
    reached <+: segments.map Segment.canonical ∧
    ∃ e, restore (fun _ => none) (restore faults nothing).1 = ((restore faults nothing).1, .error e)
  := by
  have free : ∀ existing, readAll hash (.ofString store.projectId) nothing.journal = .ok existing →
      CollisionFree hash (existing ++ segments) := by
    intro existing read
    obtain rfl := Except.ok.inj (read_nothing.symm.trans read)
    exact collisionFree
  have laws := @restore_resumes hash (fun _ => Hex.zero) store (.ok ()) segments nothing faults
    (restore faults nothing).1 (restore faults nothing).2 valid free Prod.mk.eta.symm
  obtain ⟨reached, read, -, part, -, -⟩ := laws.2.2.1 [] read_nothing List.nil_prefix
  exact ⟨reached, read, part, laws.2.2.2 (not_restorable read) fun _ => none⟩

end Journal

end Dagrail
