import Dagrail.Journal.WriterRuns

/-!
# Commands are appended once

A command with a key is appended once, however often it is retried and wherever the attempts stop.
In runs of all processes a key is that of one segment at most, if keys are texts and no command
takes the key of the retirement. An append that expects a head extends the journal that has it.
-/

namespace Dagrail

namespace Journal

section Once

variable {writers : Writers} {projectId : String}

/-! ### Keys -/

/-- An attempt to append a command: what it is given, and where it stops. -/
structure Attempt where
  store : Store
  claim : Fallible Unit
  events : List Event
  now : String
  expectedHead : Option RawText
  fault : Option WriteFault

/-- Make an attempt. -/
def Attempt.run (writers : Writers) (command : Command) (attempt : Attempt) (disk : Disk) :
    Disk × Fallible (Segment × Bool) :=
  appendOnce writers attempt.store attempt.claim command attempt.events attempt.now
    attempt.expectedHead attempt.fault disk

/-- Make attempts, one after the other. -/
def retryAppend (writers : Writers) (command : Command) (attempts : List Attempt) (disk : Disk) :
    Disk :=
  attempts.foldl (fun disk attempt => (attempt.run writers command disk).1) disk

/-- What an attempt appends. -/
def Attempt.contents (command : Command) (attempt : Attempt) : Contents where
  schemaVersion := currentSegmentSchemaVersion
  command
  events := attempt.events
  committedAt := attempt.now

/-- Some of the attempts have appended the segment of the command, and nothing else is new. -/
def AppendedBy (writers : Writers) (projectId : String) (command : Command)
    (segments : List Segment) (attempts : List Attempt) (disk : Disk) (segment : Segment) : Prop :=
  (∃ attempt ∈ attempts, IsNext projectId segments (attempt.contents command) segment)
    ∧ Stores writers.hash (.ofString projectId) disk.journal (segments ++ [segment])

/-- The key of a new segment is found behind segments that do not have it. -/
theorem findKey_next
    {command : Command} {segments : List Segment} {segment : Segment} {attempt : Attempt}
    (keyed : command.idempotencyKey ≠ .empty)
    (text : command.idempotencyKey.canonical = command.idempotencyKey)
    (new : findKey command segments = none)
    (next : IsNext projectId segments (attempt.contents command) segment) :
  findKey command (segments ++ [segment]) = some segment
  := by
  have own : segment.command.idempotencyKey = command.idempotencyKey :=
    (congrArg Command.idempotencyKey next.command).trans text
  rw [findKey, if_neg keyed] at new ⊢
  rw [List.find?_append, new]
  simp [own]

/-- What an attempt does where the command is not stored yet. -/
theorem Attempt.run_new
    {command : Command} {segments : List Segment} {disk : Disk} (attempt : Attempt)
    (named : attempt.store.projectId = projectId)
    (stores : Stores writers.hash (.ofString projectId) disk.journal segments)
    (new : findKey command segments = none) :
  (Stores writers.hash (.ofString projectId) (attempt.run writers command disk).1.journal segments
      ∧ ∀ result, (attempt.run writers command disk).2 ≠ .ok result)
    ∨ ∃ segment, AppendedBy writers projectId command segments [attempt]
        (attempt.run writers command disk).1 segment
      ∧ ∀ result, (attempt.run writers command disk).2 = .ok result →
        result.1.canonical = segment
  := by
  subst named
  have ends := appendOnce_ends writers attempt.store attempt.claim command attempt.events
    attempt.now attempt.expectedHead attempt.fault disk
  rw [Attempt.run]
  generalize appendOnce writers attempt.store attempt.claim command attempt.events attempt.now
    attempt.expectedHead attempt.fault disk = outcome at ends
  cases ends with
  | refused message outcome_eq =>
      subst outcome_eq
      exact .inl ⟨stores, nofun⟩
  | known read unretired found same outcome_eq =>
      rw [(readAll_eq_ok.mp read).1.unique stores, new] at found
      cases found
  | appended read unretired new' head digest outcome_eq =>
      obtain rfl := (readAll_eq_ok.mp read).1.unique stores
      rw [stores.nextSequence] at outcome_eq
      subst outcome_eq
      have writable : (attempt.contents command).Writable := ⟨.inl rfl, digest⟩
      rcases stores.append (Write.short_of_read read) writable Prod.mk.eta.symm with
        ⟨stores', refused⟩ | ⟨segment, next, stores', same⟩
      · refine .inl ⟨stores', fun result done => ?_⟩
        obtain ⟨own, made, -⟩ := map_eq_ok.mp done
        exact refused own made
      · refine .inr ⟨segment.canonical, ⟨⟨attempt, List.mem_singleton_self _, next⟩, stores'⟩,
          fun result done => ?_⟩
        obtain ⟨own, made, rfl⟩ := map_eq_ok.mp done
        rw [same own made]

/-- What an attempt does where the command is stored: nothing. -/
theorem Attempt.run_stored
    {command : Command} {segments : List Segment} {segment : Segment} {disk : Disk}
    (attempt : Attempt) (named : attempt.store.projectId = projectId)
    (stores : Stores writers.hash (.ofString projectId) disk.journal segments)
    (found : findKey command segments = some segment) :
  (attempt.run writers command disk).1 = disk
    ∧ ∀ result, (attempt.run writers command disk).2 = .ok result → result = (segment, false)
  := by
  subst named
  have ends := appendOnce_ends writers attempt.store attempt.claim command attempt.events
    attempt.now attempt.expectedHead attempt.fault disk
  rw [Attempt.run]
  generalize appendOnce writers attempt.store attempt.claim command attempt.events attempt.now
    attempt.expectedHead attempt.fault disk = outcome at ends
  cases ends with
  | refused message outcome_eq =>
      subst outcome_eq
      exact ⟨rfl, nofun⟩
  | known read unretired found' same outcome_eq =>
      rw [(readAll_eq_ok.mp read).1.unique stores, found] at found'
      obtain rfl := Option.some.inj found'
      subst outcome_eq
      exact ⟨rfl, fun result done => (Except.ok.inj done).symm⟩
  | appended read unretired new head digest outcome_eq =>
      rw [(readAll_eq_ok.mp read).1.unique stores, found] at new
      cases new

/-- Attempts have not appended the command, or one of them has, once. -/
theorem retryAppend_stores
    {command : Command} {segments : List Segment} {attempts : List Attempt} {disk : Disk}
    (named : ∀ attempt ∈ attempts, attempt.store.projectId = projectId)
    (keyed : command.idempotencyKey ≠ .empty)
    (text : command.idempotencyKey.canonical = command.idempotencyKey)
    (stores : Stores writers.hash (.ofString projectId) disk.journal segments)
    (new : findKey command segments = none) :
  Stores writers.hash (.ofString projectId) (retryAppend writers command attempts disk).journal
      segments
    ∨ ∃ segment, AppendedBy writers projectId command segments attempts
      (retryAppend writers command attempts disk) segment
  := by
  induction attempts using List.reverseRecOn with
  | nil => exact .inl stores
  | append_singleton front last ih =>
      have own := named last (by simp)
      have whole : retryAppend writers command (front ++ [last]) disk
          = (last.run writers command (retryAppend writers command front disk)).1 := by
        simp [retryAppend, List.foldl_append]
      rw [whole]
      rcases ih fun attempt mem => named attempt (List.mem_append_left _ mem) with
        before | ⟨segment, ⟨attempt, mem, next⟩, appended⟩
      · rcases last.run_new own before new with ⟨stores', -⟩ | ⟨segment, ⟨by_, stores'⟩, -⟩
        · exact .inl stores'
        · obtain ⟨attempt, mem, next⟩ := by_
          exact .inr ⟨segment, ⟨attempt, List.mem_append_right front mem, next⟩, stores'⟩
      · have found := findKey_next keyed text new next
        rw [(last.run_stored own appended found).1]
        exact .inr ⟨segment, ⟨attempt, List.mem_append_left _ mem, next⟩, appended⟩

/-- A command with a key that is not stored is attempted again and again, with whatever events,
times and expected heads, and whatever stops the attempts. When an attempt succeeds, the journal has
one segment more than at the start: that of one of the attempts, and it is what is returned. -/
theorem command_appended_once
    {command : Command} {segments : List Segment} {attempts : List Attempt} {last : Attempt}
    {disk : Disk} {result : Segment × Bool}
    (named : ∀ attempt ∈ attempts ++ [last], attempt.store.projectId = projectId)
    (keyed : command.idempotencyKey ≠ .empty)
    (text : command.idempotencyKey.canonical = command.idempotencyKey)
    (read : readAll writers.hash (.ofString projectId) disk.journal = .ok segments)
    (new : findKey command segments = none)
    (done : (last.run writers command (retryAppend writers command attempts disk)).2 = .ok result) :
  ∃ segment, result.1.canonical = segment
    ∧ (∃ attempt ∈ attempts ++ [last],
      IsNext projectId segments (attempt.contents command) segment)
    ∧ Stores writers.hash (.ofString projectId)
      (last.run writers command (retryAppend writers command attempts disk)).1.journal
      (segments ++ [segment])
  := by
  have own := named last (by simp)
  have others : ∀ attempt ∈ attempts, attempt.store.projectId = projectId :=
    fun attempt mem => named attempt (List.mem_append_left _ mem)
  rcases retryAppend_stores others keyed text (readAll_eq_ok.mp read).1 new with
    before | ⟨segment, ⟨attempt, mem, next⟩, appended⟩
  · rcases last.run_new own before new with ⟨-, refused⟩ | ⟨segment, ⟨by_, stores'⟩, gives⟩
    · exact absurd done (refused result)
    · obtain ⟨attempt, mem, next⟩ := by_
      exact ⟨segment, gives result done, ⟨attempt, List.mem_append_right attempts mem, next⟩,
        stores'⟩
  · have found := findKey_next keyed text new next
    obtain ⟨kept, gives⟩ := last.run_stored own appended found
    rw [kept]
    obtain rfl := gives result done
    refine ⟨segment, ?_, ⟨attempt, List.mem_append_left _ mem, next⟩, appended⟩
    have canonical := appended.canonical_eq
    rw [List.map_append, List.map_singleton] at canonical
    exact List.singleton_inj.mp (List.append_inj' canonical rfl).2

namespace SampleOnce

/-- A command with a key. -/
def command : Command :=
  { SampleWriter.command with idempotencyKey := .ofString "k" }

/-- An attempt that stops somewhere, or nowhere. -/
def attempt (fault : Option WriteFault) : Attempt where
  store := SampleRuns.store
  claim := .ok ()
  events := [SampleWriter.event]
  now := "1970-01-01T00:00:00Z"
  expectedHead := some .empty
  fault

/-- An attempt that stops before a file is written leaves the directory as it is. -/
theorem stopped
    (disk : Disk) :
  ((attempt (some (.before none))).run SampleWrite.writers command disk).1 = disk
  := by
  have ends := appendOnce_ends SampleWrite.writers SampleRuns.store (.ok ()) command
    [SampleWriter.event] "1970-01-01T00:00:00Z" (some .empty) (some (.before none)) disk
  have run : (attempt (some (.before none))).run SampleWrite.writers command disk
      = appendOnce SampleWrite.writers SampleRuns.store (.ok ()) command [SampleWriter.event]
        "1970-01-01T00:00:00Z" (some .empty) (some (.before none)) disk := rfl
  rw [run]
  generalize appendOnce SampleWrite.writers SampleRuns.store (.ok ()) command [SampleWriter.event]
    "1970-01-01T00:00:00Z" (some .empty) (some (.before none)) disk = outcome at ends
  cases ends with
  | refused message outcome_eq => rw [outcome_eq]
  | known read unretired found same outcome_eq => rw [outcome_eq]
  | appended read unretired new head digest outcome_eq =>
      rw [outcome_eq]
      unfold appendSegmentWithSchema
      split
      · rfl
      · rfl

/-- Attempts that stop so leave the directory as it is. -/
theorem retried
    (disk : Disk) :
  retryAppend SampleWrite.writers command [attempt (some (.before none))] disk = disk
  :=
  stopped disk

/-- The command is appended to an empty journal. -/
theorem appended :
  ((attempt none).run SampleWrite.writers command SampleRestore.nothing).2.map (·.2) = .ok true
  := by
  decide +kernel

end SampleOnce

open SampleOnce in
/-- An attempt that stopped and one that did not have appended one segment. -/
theorem command_appended_once_sample :
  ∃ segment, Stores SampleWrite.writers.hash (.ofString "p")
    ((attempt none).run SampleWrite.writers command (retryAppend SampleWrite.writers command
      [attempt (some (.before none))] SampleRestore.nothing)).1.journal [segment]
  := by
  obtain ⟨result, done, -⟩ := map_eq_ok.mp appended
  rw [← retried SampleRestore.nothing] at done
  have named : ∀ own ∈ [attempt (some (.before none))] ++ [attempt none],
      own.store.projectId = "p" := by
    intro own mem
    simp only [List.cons_append, List.nil_append, List.mem_cons, List.not_mem_nil, or_false] at mem
    rcases mem with rfl | rfl <;> rfl
  obtain ⟨segment, -, -, stores⟩ := command_appended_once named (by decide) (by decide)
    SampleRestore.read_nothing (by rfl) done
  exact ⟨segment, stores⟩

/-! ### Expected heads -/

/-- A process reads a journal and appends behind the head it has read, after any steps of the
others. If a segment is appended then nothing was in between, unless hashes collide. -/
theorem append_extends_expected
    {disk disk' : Disk} {segments later : List Segment} {attempt : Attempt} {command : Command}
    {result : Segment}
    (read : readAll writers.hash (.ofString projectId) disk.journal = .ok segments)
    (run : Relation.ReflTransGen (Step writers projectId (fun _ => True) fun _ => True) disk disk')
    (readLater : readAll writers.hash (.ofString projectId) disk'.journal = .ok later)
    (free : CollisionFree writers.hash (segments ++ later))
    (named : attempt.store.projectId = projectId)
    (expects : attempt.expectedHead = some (headHash segments))
    (done : (attempt.run writers command disk').2 = .ok (result, true)) :
  later = segments
    ∧ Stores writers.hash (.ofString projectId) (attempt.run writers command disk').1.journal
      (segments ++ [result.canonical])
  := by
  subst named
  obtain ⟨more, stores⟩ := run_stores run (readAll_eq_ok.mp read).1
  obtain ⟨before, -⟩ := readAll_eq_ok.mp read
  obtain ⟨after, -⟩ := readAll_eq_ok.mp readLater
  have ends := appendOnce_ends writers attempt.store attempt.claim command attempt.events
    attempt.now attempt.expectedHead attempt.fault disk'
  rw [Attempt.run] at done ⊢
  generalize appendOnce writers attempt.store attempt.claim command attempt.events attempt.now
    attempt.expectedHead attempt.fault disk' = outcome at ends done
  cases ends with
  | refused message outcome_eq =>
      subst outcome_eq
      cases done
  | known read unretired found same outcome_eq =>
      subst outcome_eq
      cases done
  | appended read' unretired new head digest outcome_eq =>
      obtain rfl := after.unique (readAll_eq_ok.mp read').1
      have heads := head _ expects
      have same := before.linked.canonical_eq after.linked free heads
      rw [before.canonical_eq, after.canonical_eq] at same
      subst same
      rw [after.nextSequence] at outcome_eq
      subst outcome_eq
      obtain ⟨own, made, same⟩ := map_eq_ok.mp done
      cases same
      have writable : (attempt.contents command).Writable := ⟨.inl rfl, digest⟩
      obtain ⟨_, next, stores', gives⟩ := (after.append (Write.short_of_read read') writable
        Prod.mk.eta.symm).resolve_left fun refused => refused.2 _ made
      obtain rfl := gives _ made
      exact ⟨rfl, stores'⟩

end Once

open SampleOnce in
/-- A process that has read an empty journal appends the first segment, though another process has
tried in between. -/
theorem append_extends_expected_sample :
  ∃ result, Stores SampleWrite.writers.hash (.ofString "p")
    ((attempt none).run SampleWrite.writers command SampleRestore.nothing).1.journal [result]
  := by
  obtain ⟨⟨result, fresh⟩, done, same⟩ := map_eq_ok.mp appended
  obtain rfl : fresh = true := same
  have step : Step SampleWrite.writers "p" (fun _ => True) (fun _ => True) SampleRestore.nothing
      ((Write.append (.ok ()) command [SampleWriter.event] (some .empty)).run SampleWrite.writers
        SampleRuns.store "1970-01-01T00:00:00Z" (some (.before none)) SampleRestore.nothing).1 :=
    .write (by rfl) _ _ trivial _
  rw [Write.run, Prod.map_fst, id_eq] at step
  have kept := stopped SampleRestore.nothing
  rw [Attempt.run] at kept
  have unchanged : (appendOnce SampleWrite.writers SampleRuns.store (.ok ()) command
      [SampleWriter.event] "1970-01-01T00:00:00Z" (some .empty) (some (.before none))
      SampleRestore.nothing).1 = SampleRestore.nothing := kept
  rw [unchanged] at step
  have free : CollisionFree SampleWrite.writers.hash ([] ++ []) :=
    fun _ mem => absurd mem List.not_mem_nil
  exact ⟨_, (append_extends_expected SampleRestore.read_nothing (.single step)
    SampleRestore.read_nothing free (by rfl) (by rfl) done).2⟩

end Journal

end Dagrail
