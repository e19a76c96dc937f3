import Dagrail.Journal.FullJournal
import Mathlib.Logic.Relation

/-!
# Runs of a journal

The processes that share a journal take its lock one after the other. Each makes a write or restores
a list, and may be stopped at every file. Whatever they do, the journal only grows. A retirement
ends it, and the record beside the journal says what the fence of the retirement says.
-/

namespace Dagrail

namespace Journal

section Runs

variable {writers : Writers} {projectId : String}

/-! ### Steps -/

/-- A step of a process: a write of some kind, or the restore of some list. Restores in a rehearsal
are made in directories of their own. No hashes collide with those of a list that is restored. -/
inductive Step (writers : Writers) (projectId : String) (admits : Write → Prop)
    (allows : List Segment → Prop) : Disk → Disk → Prop where
  | write {store : Store} (named : store.projectId = projectId) (now : String)
      (fault : Option WriteFault) {write : Write} (admitted : admits write) (disk : Disk) :
      Step writers projectId admits allows disk (write.run writers store now fault disk).1
  | restore {store : Store} (named : store.projectId = projectId)
      (live : store.capability ≠ .rehearsal) (claim : Fallible Unit) {segments : List Segment}
      (allowed : allows segments) (faults : Nat → Option WriteFault) (disk : Disk)
      (free : ∀ existing, readAll writers.hash (.ofString projectId) disk.journal = .ok existing →
        CollisionFree writers.hash (existing ++ segments)) :
      Step writers projectId admits allows disk
        (restoreSegments writers.hash writers.digest store claim segments faults disk).1

/-- A directory stores one list of segments. -/
theorem Stores.unique
    {hash : SegmentHash} {project : RawText} {dir : Directory} {segments segments' : List Segment}
    (stores : Stores hash project dir segments) (stores' : Stores hash project dir segments') :
  segments = segments'
  :=
  Except.ok.inj (stores.read.symm.trans stores'.read)

/-- What a step can do to what is stored: nothing, or it appends the segment of a write, or it goes
on with a list. A journal with a fence stays as it is. -/
inductive Grows (writers : Writers) (projectId : String) (admits : Write → Prop)
    (allows : List Segment → Prop) (segments : List Segment) (disk disk' : Disk) : Prop where
  | same (stores : Stores writers.hash (.ofString projectId) disk'.journal segments)
      (sidecar : disk'.sidecar = disk.sidecar ∨ ∃ fenced, retirementEvent segments = some fenced
        ∧ disk'.sidecar = some (.file (.document fenced)))
  | written {write : Write} {now : String} {contents : Contents} {segment : Segment}
      (admitted : admits write) (new : ¬ write.Repeated segments)
      (unretired : retirementEvent segments = none)
      (own : write.contents writers projectId now = some contents)
      (next : IsNext projectId segments contents segment)
      (stores : Stores writers.hash (.ofString projectId) disk'.journal (segments ++ [segment]))
      (sidecar : disk'.sidecar = disk.sidecar ∨ ∃ document,
        contents = retirementContents writers projectId document now
          ∧ document.canon = document ∧ disk'.sidecar = some (.file (.document document)))
  | restored {list : List Segment} {more : List Segment} (allowed : allows list)
      (unretired : retirementEvent segments = none) (unrecorded : disk.sidecar = none)
      (part : segments ++ more <+: list.map Segment.canonical)
      (stores : Stores writers.hash (.ofString projectId) disk'.journal (segments ++ more))
      (sidecar : disk'.sidecar = disk.sidecar)

/-- Nothing is read as a record where there is none. -/
theorem sidecar_eq_none
    {disk : Disk} (none_ : authorityRetirement disk = .ok none) :
  disk.sidecar = none
  := by
  unfold authorityRetirement at none_
  cases record : disk.sidecar with
  | none => rfl
  | some entry =>
      rw [record] at none_
      cases entry with
      | file content =>
          cases content with
          | document d =>
              simp only [bind_eq_ok, Except.ok.injEq] at none_
              obtain ⟨_, -, _, -, same⟩ := none_
              cases same
          | other bytes => cases none_
      | directory => cases none_
      | symlink => cases none_
      | other => cases none_

/-- What a write does to what is stored. -/
theorem Write.grows
    {admits : Write → Prop} {allows : List Segment → Prop} {segments : List Segment} {disk : Disk}
    (stores : Stores writers.hash (.ofString projectId) disk.journal segments) {store : Store}
    (named : store.projectId = projectId) (now : String) (fault : Option WriteFault)
    {write : Write} (admitted : admits write) :
  Grows writers projectId admits allows segments disk (write.run writers store now fault disk).1
  := by
  subst named
  have ends := write.run_ends writers store now fault disk
  generalize write.run writers store now fault disk = outcome at ends
  cases ends with
  | refused message outcome_eq =>
      rw [outcome_eq]
      exact .same stores (.inl rfl)
  | repeated read known journal sidecar given =>
      obtain rfl := stores.unique (readAll_eq_ok.mp read).1
      exact .same (journal ▸ stores) sidecar
  | appended read new unretired own writable appended sidecar given =>
      obtain rfl := stores.unique (readAll_eq_ok.mp read).1
      rw [stores.nextSequence] at appended
      rcases stores.append (Write.short_of_read read) writable appended with
        ⟨stores', refused⟩ | ⟨segment, next, stores', -⟩
      · refine .same stores' (.inl (sidecar.resolve_right ?_))
        rintro ⟨_, segment, made, -⟩
        exact refused segment made
      · refine .written admitted new unretired own next stores' (sidecar.imp_right ?_)
        rintro ⟨document, _, -, contents, canonical, made⟩
        exact ⟨document, contents, canonical, made⟩

/-- What a restore does to what is stored. -/
theorem restore_grows
    {admits : Write → Prop} {allows : List Segment → Prop} {segments list : List Segment}
    {disk : Disk} (stores : Stores writers.hash (.ofString projectId) disk.journal segments)
    {store : Store} (named : store.projectId = projectId) (live : store.capability ≠ .rehearsal)
    (claim : Fallible Unit) (allowed : allows list) (faults : Nat → Option WriteFault)
    (free : ∀ existing, readAll writers.hash (.ofString projectId) disk.journal = .ok existing →
      CollisionFree writers.hash (existing ++ list)) :
  Grows writers projectId admits allows segments disk
    (restoreSegments writers.hash writers.digest store claim list faults disk).1
  := by
  subst named
  cases admission : restoreAdmission writers.hash writers.digest store claim list disk with
  | error e =>
      have refused : (restoreSegments writers.hash writers.digest store claim list faults disk).1
          = disk := by
        rw [restoreSegments, admission]
      rw [refused]
      exact .same stores (.inl rfl)
  | ok missing =>
      obtain ⟨existing, admitted, -⟩ := restoreAdmission_eq_ok.mp admission
      obtain rfl := stores.unique (readAll_eq_ok.mp admitted.read).1
      have restored := admitted.restored (free _ admitted.read)
        (Prod.mk.eta (p := restoreSegments writers.hash writers.digest store claim list faults
          disk)).symm
      obtain ⟨⟨n, le, -, -, back⟩, -⟩ := restored
      obtain ⟨-, unrecorded⟩ := admitted.claimed.resolve_left live
      have unretired := admitted.unfenced.resolve_left live
      have front := admitted.existing_eq (free _ admitted.read)
      have whole : (list.take n).map Segment.canonical
          = segments ++ ((list.take n).drop segments.length).map Segment.canonical := by
        have split := List.take_append_drop segments.length (list.take n)
        rw [List.take_take, Nat.min_eq_left le] at split
        conv_lhs => rw [← split, List.map_append, ← front]
      rw [whole] at back
      refine .restored allowed unretired (sidecar_eq_none unrecorded) ?_ (readAll_eq_ok.mp back).1
        (restoreSegments_sidecar Prod.mk.eta.symm)
      rw [← whole]
      exact (List.take_prefix n list).map Segment.canonical

/-- What a step does to what is stored. -/
theorem Step.grows
    {admits : Write → Prop} {allows : List Segment → Prop} {segments : List Segment}
    {disk disk' : Disk} (step : Step writers projectId admits allows disk disk')
    (stores : Stores writers.hash (.ofString projectId) disk.journal segments) :
  Grows writers projectId admits allows segments disk disk'
  := by
  cases step with
  | write named now fault admitted => exact Write.grows stores named now fault admitted
  | restore named live claim allowed faults _ free =>
      exact restore_grows stores named live claim allowed faults free

/-- After a step the journal has the segments it had, and maybe more. -/
theorem Grows.stores
    {admits : Write → Prop} {allows : List Segment → Prop} {segments : List Segment}
    {disk disk' : Disk} (grows : Grows writers projectId admits allows segments disk disk') :
  ∃ more, Stores writers.hash (.ofString projectId) disk'.journal (segments ++ more)
  := by
  cases grows with
  | same stores sidecar => exact ⟨[], by rwa [List.append_nil]⟩
  | written admitted new unretired own next stores sidecar => exact ⟨_, stores⟩
  | restored allowed unretired unrecorded part stores sidecar => exact ⟨_, stores⟩

/-! ### The journal only grows -/

/-- In a run the journal keeps its segments. -/
theorem run_stores
    {admits : Write → Prop} {allows : List Segment → Prop} {segments : List Segment}
    {disk disk' : Disk}
    (run : Relation.ReflTransGen (Step writers projectId admits allows) disk disk')
    (stores : Stores writers.hash (.ofString projectId) disk.journal segments) :
  ∃ more, Stores writers.hash (.ofString projectId) disk'.journal (segments ++ more)
  := by
  induction run with
  | refl => exact ⟨[], by rwa [List.append_nil]⟩
  | tail _ step ih =>
      obtain ⟨more, stores⟩ := ih
      obtain ⟨more', stores'⟩ := (step.grows stores).stores
      exact ⟨more ++ more', by rwa [← List.append_assoc]⟩

/-- What is read of a journal is a prefix of everything that is read of it later, whatever was
written or restored in between and wherever it stopped. -/
theorem journal_only_grows
    {disk disk' : Disk} {segments later : List Segment}
    (run : Relation.ReflTransGen (Step writers projectId (fun _ => True) fun _ => True) disk disk')
    (read : readAll writers.hash (.ofString projectId) disk.journal = .ok segments)
    (readLater : readAll writers.hash (.ofString projectId) disk'.journal = .ok later) :
  segments <+: later
  := by
  obtain ⟨more, stores⟩ := run_stores run (readAll_eq_ok.mp read).1
  rw [(readAll_eq_ok.mp readLater).1.unique stores]
  exact List.prefix_append segments more

/-- What was read of a journal of one segment is a prefix of what is read when a command was
appended. -/
theorem journal_only_grows_sample :
  ∃ (disk disk' : Disk) (segments later : List Segment),
    readAll (SampleWriter.writers fun _ => Hex.zero).hash (.ofString "p") disk.journal
        = .ok segments
      ∧ readAll (SampleWriter.writers fun _ => Hex.zero).hash (.ofString "p") disk'.journal
        = .ok later
      ∧ segments.length = 1 ∧ later.length = 2 ∧ segments <+: later
  := by
  obtain ⟨dir, segments, grown⟩ := SampleWriter.grown_established fun _ => Hex.zero
  have one : segments.length = 1 := grown.length
  have short : segments.length ≤ maxSegmentCount := by
    rw [one]
    decide
  obtain ⟨read, dir', segment, done, grown'⟩ := grown.run_append (by decide) short
  have two : (segments ++ [segment.canonical]).length = 2 := grown'.length
  have read' : readAll (SampleWriter.writers fun _ => Hex.zero).hash (.ofString "p") dir'
      = .ok (segments ++ [segment.canonical]) := by
    refine readAll_eq_ok.mpr ⟨grown'.stores, ?_⟩
    rw [two]
    decide
  have step : Step (SampleWriter.writers fun _ => Hex.zero) "p" (fun _ => True) (fun _ => True)
      { journal := dir }
      (SampleWriter.noteWrite.run (SampleWriter.writers fun _ => Hex.zero) SampleWriter.store
        "1970-01-01T00:00:00Z" none { journal := dir }).1 :=
    .write (by rfl) _ _ trivial _
  rw [done] at step
  exact ⟨{ journal := dir }, { journal := dir' }, segments, _, read, read', one, two,
    journal_only_grows (.single step) read read'⟩

/-! ### The fence of a retirement -/

/-- The first retirement is found in the first of two parts that has one. -/
theorem retirementEvent_append
    (front back : List Segment) :
  retirementEvent (front ++ back) = (retirementEvent front).or (retirementEvent back)
  := by
  simp only [retirementEvent, List.flatMap_append, List.find?_append]
  cases List.find? (fun event => decide (event.type = .ofString "authority.retired"))
      (front.flatMap Segment.events) with
  | none => rfl
  | some event => rfl

/-- A fenced journal is not written any more. -/
theorem Grows.fenced
    {admits : Write → Prop} {allows : List Segment → Prop} {segments : List Segment}
    {disk disk' : Disk} (grows : Grows writers projectId admits allows segments disk disk')
    (fence : retirementEvent segments ≠ none) :
  Stores writers.hash (.ofString projectId) disk'.journal segments
  := by
  cases grows with
  | same stores sidecar => exact stores
  | written admitted new unretired own next stores sidecar => exact absurd unretired fence
  | restored allowed unretired unrecorded part stores sidecar => exact absurd unretired fence

namespace SampleRuns

/-- A restore of the list grows the empty journal. -/
theorem sample_grows
    (faults : Nat → Option WriteFault) :
  Grows SampleWrite.writers "p" (fun _ => False) (· = SampleRestore.segments) []
    SampleRestore.nothing (SampleRestore.restore faults SampleRestore.nothing).1
  := by
  have free : ∀ existing, readAll SampleWrite.writers.hash (.ofString "p")
      SampleRestore.nothing.journal = .ok existing →
      CollisionFree SampleWrite.writers.hash (existing ++ SampleRestore.segments) := by
    intro existing read
    obtain rfl := Except.ok.inj (SampleRestore.read_nothing.symm.trans read)
    exact SampleRestore.collisionFree
  unfold SampleRestore.restore
  exact restore_grows (readAll_eq_ok.mp SampleRestore.read_nothing).1 (by rfl) (by decide) (.ok ())
    (by rfl) faults free

/-- A journal that is a part of the list with a retirement has that of the list. -/
theorem sample_fence
    {disk : Disk} {reached : List Segment}
    (grows : Grows SampleWrite.writers "p" (fun _ => False) (· = SampleRestore.segments) []
      SampleRestore.nothing disk)
    (read : readAll SampleWrite.writers.hash (.ofString "p") disk.journal = .ok reached)
    (fence : (retirementEvent reached).isSome) :
  retirementEvent reached = some (.obj [])
  := by
  have stores := (readAll_eq_ok.mp read).1
  obtain ⟨document, own⟩ := Option.isSome_iff_exists.mp fence
  cases grows with
  | same stores' sidecar =>
      rw [stores.unique stores'] at own
      cases own
  | written admitted new unretired next stores' sidecar => cases admitted
  | restored allowed unretired unrecorded part stores' sidecar =>
      subst allowed
      obtain ⟨more, split⟩ := part
      have whole : retirementEvent (SampleRestore.segments.map Segment.canonical)
          = some (.obj []) := by
        decide +kernel
      rw [← stores.unique stores'] at split
      rw [← split, retirementEvent_append, own] at whole
      exact own.trans whole

open SampleRestore in
/-- A restore that stops behind the retirement leaves it as the fence. -/
theorem read_fenced :
  ∃ segments, readAll SampleWrite.writers.hash (.ofString "p") (restore faults nothing).1.journal
      = .ok segments
    ∧ retirementEvent segments = some (.obj [])
  := by
  have stopped := runs.2.2.2
  have grows := sample_grows faults
  generalize restore faults nothing = outcome at stopped grows ⊢
  obtain ⟨reached, read, fence⟩ := map_eq_ok.mp stopped
  exact ⟨reached, read, sample_fence grows read fence⟩

end SampleRuns

/-- Once a retirement is in the journal, the journal stays as it is in every run, and no command is
appended or found in it any more. -/
theorem fence_is_terminal
    {disk disk' : Disk} {segments : List Segment}
    (run : Relation.ReflTransGen (Step writers projectId (fun _ => True) fun _ => True) disk disk')
    (read : readAll writers.hash (.ofString projectId) disk.journal = .ok segments)
    (fence : retirementEvent segments ≠ none) :
  readAll writers.hash (.ofString projectId) disk'.journal = .ok segments
    ∧ ∀ (store : Store) claim command events now expectedHead fault,
      store.projectId = projectId →
      ∃ message, appendOnce writers store claim command events now expectedHead fault disk'
        = (disk', .error message)
  := by
  obtain ⟨stores, short⟩ := readAll_eq_ok.mp read
  have stays : Stores writers.hash (.ofString projectId) disk'.journal segments := by
    clear read short
    induction run with
    | refl => exact stores
    | tail _ step ih => exact (step.grows ih).fenced fence
  refine ⟨readAll_eq_ok.mpr ⟨stays, short⟩, ?_⟩
  rintro store claim command events now expectedHead fault rfl
  cases appendOnce_ends writers store claim command events now expectedHead fault disk' with
  | refused message outcome_eq => exact ⟨message, outcome_eq⟩
  | known read' unretired found same outcome_eq =>
      rw [(readAll_eq_ok.mp read').1.unique stays] at unretired
      exact absurd unretired fence
  | appended read' unretired new head digest outcome_eq =>
      rw [(readAll_eq_ok.mp read').1.unique stays] at unretired
      exact absurd unretired fence

open SampleRestore in
/-- A command is not appended behind the retirement of a restore that stopped there. -/
theorem fence_is_terminal_sample :
  ∃ segments, readAll SampleWrite.writers.hash (.ofString "p") (restore faults nothing).1.journal
      = .ok segments
    ∧ readAll SampleWrite.writers.hash (.ofString "p")
      (SampleWriter.noteWrite.run SampleWrite.writers SampleWriter.store "1970-01-01T00:00:00Z" none
        (restore faults nothing).1).1.journal = .ok segments
  := by
  obtain ⟨segments, read, fence⟩ := SampleRuns.read_fenced
  have step : Step SampleWrite.writers "p" (fun _ => True) (fun _ => True)
      (restore faults nothing).1
      (SampleWriter.noteWrite.run SampleWrite.writers SampleWriter.store "1970-01-01T00:00:00Z" none
        (restore faults nothing).1).1 :=
    .write (by rfl) _ _ trivial _
  have isFenced : retirementEvent segments ≠ none := by
    rw [fence]
    exact nofun
  exact ⟨segments, read, (fence_is_terminal (.single step) read isFenced).1⟩

/-- Nothing is behind a retirement. -/
def FenceEnds (segments : List Segment) : Prop :=
  ∀ front back, segments = front ++ back → retirementEvent front ≠ none → back = []

/-- Segments without a retirement and one behind them have nothing behind a retirement. -/
theorem FenceEnds.concat
    {segments : List Segment} (unretired : retirementEvent segments = none) (segment : Segment) :
  FenceEnds (segments ++ [segment])
  := by
  intro front back split fence
  cases back using List.reverseRecOn with
  | nil => rfl
  | append_singleton back last =>
      rw [← List.append_assoc] at split
      obtain ⟨rfl, -⟩ := List.append_inj' split rfl
      rw [retirementEvent_append, Option.or_eq_none_iff] at unretired
      exact absurd unretired.1 fence

/-- A prefix of segments with nothing behind a retirement has nothing behind one. -/
theorem FenceEnds.of_prefix
    {segments list : List Segment} (ends : FenceEnds list) (part : segments <+: list) :
  FenceEnds segments
  := by
  obtain ⟨more, rfl⟩ := part
  rintro front back rfl fence
  have nothing := ends front (back ++ more) (List.append_assoc front back more) fence
  exact (List.append_eq_nil_iff.mp nothing).1

/-- The segment of a retirement is its fence. -/
theorem IsNext.fence
    {segments : List Segment} {segment : Segment} {document : Json} {now : String}
    (next : IsNext projectId segments (retirementContents writers projectId document now) segment)
    (canonical : document.canon = document) :
  retirementEvent [segment] = some document
  := by
  have events := next.events
  simp [retirementContents, authorityContents, Event.versioned, Event.canonical, canonical]
    at events
  simp [retirementEvent, events]

end Runs

namespace SampleRuns

/-- A retirement that has nothing to check and nothing to apply. -/
def calls : RetireCalls where
  requireClaim := true
  claim := .ok ()
  reserved _ := .ok ()
  reservationDigest := ""
  validate := none
  sameIntent := none
  apply := some fun _ => .ok ()

/-- The store of a project whose authority need not be established. -/
def store : Store where
  projectId := "p"
  testAllowUnestablished := true

end SampleRuns

end Journal

end Dagrail
