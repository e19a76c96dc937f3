import Dagrail.Journal.WriterRuns

/-!
# The history of a journal

The history of a journal is given in pages, each behind the cursor of the one before it
(`internal/service/operations.go`). A client that goes on asking while processes write to the
journal follows it: what it has seen is the history up to its cursor, each entry once and in order.
-/

namespace Dagrail

namespace Journal

open Relation

/-! ### Pages -/

/-- An entry of the history. -/
structure HistoryEntry where
  sequence : Nat
  commandKind : RawText
  actorRole : RawText
  eventTypes : List RawText
  committedAt : RawText
  segmentHash : RawText
deriving DecidableEq

/-- The entry of a segment. -/
def historyEntry (segment : Segment) : HistoryEntry where
  sequence := segment.sequence
  commandKind := segment.command.kind
  actorRole := segment.command.actorRole
  eventTypes := segment.events.map (·.type)
  committedAt := segment.committedAt
  segmentHash := segment.segmentHash

/-- A page of the history. -/
structure HistoryPage where
  after : Nat
  nextCursor : Nat
  truncated : Bool
  entries : List HistoryEntry := []
deriving DecidableEq

/-- A segment is added to a page, and the cursor goes to its number. -/
def HistoryPage.add (page : HistoryPage) (segment : Segment) : HistoryPage :=
  { page with entries := page.entries ++ [historyEntry segment], nextCursor := segment.sequence }

/-- The page of the history behind a cursor, with at most so many entries. Zero stands for the usual
number. -/
def historyFromSegments (segments : List Segment) (after : Nat) (limit : Int) :
    Fallible HistoryPage := do
  let limit := if limit = 0 then 25 else limit
  check (decide (1 ≤ limit ∧ limit ≤ 100)) "history limit must be 1..100"
  check (decide (after ≤ segments.length)) "history cursor exceeds journal head"
  let stop := min (after + limit.toNat) segments.length
  .ok (((segments.take stop).drop after).foldl HistoryPage.add
    { after, nextCursor := after, truncated := decide (stop < segments.length) })

/-- Segments that are added to a page are numbered on from its cursor. -/
theorem foldl_add
    {segments : List Segment} {page : HistoryPage}
    (numbered : segments.map Segment.sequence = List.range' (page.nextCursor + 1) segments.length) :
  segments.foldl HistoryPage.add page
    = { page with
        entries := page.entries ++ segments.map historyEntry
        nextCursor := page.nextCursor + segments.length }
  := by
  induction segments generalizing page with
  | nil => simp
  | cons segment rest ih =>
      rw [List.map_cons, List.length_cons, List.range'_succ, List.cons.injEq] at numbered
      obtain ⟨number, numbered⟩ := numbered
      have later : rest.map Segment.sequence
          = List.range' ((page.add segment).nextCursor + 1) rest.length := by
        rw [numbered, HistoryPage.add, number]
      rw [List.foldl_cons, ih later, HistoryPage.add, number, List.map_cons, List.length_cons,
        List.append_assoc, List.singleton_append, Nat.add_right_comm, Nat.add_assoc]

/-- A page that is given has the next entries behind its cursor, all of them unless it is truncated,
and at least one if there is one. -/
theorem historyFromSegments_ok
    {segments : List Segment}
    (numbered : segments.map Segment.sequence = List.range' 1 segments.length) {after : Nat}
    {limit : Int} {page : HistoryPage}
    (given : historyFromSegments segments after limit = .ok page) :
  ∃ n, after + n ≤ segments.length ∧ page.nextCursor = after + n
    ∧ page.entries = ((segments.drop after).take n).map historyEntry
    ∧ page.truncated = decide (after + n < segments.length)
    ∧ (after < segments.length → 0 < n)
  := by
  simp only [historyFromSegments, bind_eq_ok, check_eq_ok, decide_eq_true_eq] at given
  obtain ⟨-, ⟨positive, -⟩, -, inside, given⟩ := given
  obtain rfl := Except.ok.inj given
  generalize (if limit = 0 then 25 else limit) = limit at positive
  have some_ : 0 < limit.toNat := by omega
  refine ⟨min (after + limit.toNat) segments.length - after, ?_⟩
  have stop : after + (min (after + limit.toNat) segments.length - after)
      = min (after + limit.toNat) segments.length := by omega
  have taken : (segments.take (min (after + limit.toNat) segments.length)).drop after
      = (segments.drop after).take (min (after + limit.toNat) segments.length - after) :=
    List.drop_take
  have length : ((segments.drop after).take
      (min (after + limit.toNat) segments.length - after)).length
        = min (after + limit.toNat) segments.length - after := by
    rw [List.length_take, List.length_drop]
    omega
  have numbers : ((segments.drop after).take
      (min (after + limit.toNat) segments.length - after)).map Segment.sequence
        = List.range' (after + 1) (min (after + limit.toNat) segments.length - after) := by
    rw [List.map_take, List.map_drop, numbered, List.drop_range',
      List.take_range'_of_length_ge (by omega), Nat.mul_one, Nat.add_comm]
  rw [taken, foldl_add (by rw [length]; exact numbers), length, stop]
  exact ⟨by omega, rfl, List.nil_append _, rfl, by omega⟩

/-- A page is given for every limit that is allowed and every cursor up to the end. -/
theorem exists_historyFromSegments
    {segments : List Segment} {after : Nat} (inside : after ≤ segments.length) {limit : Int}
    (positive : 0 ≤ limit) (few : limit ≤ 100) :
  ∃ page, historyFromSegments segments after limit = .ok page
  := by
  have allowed : 1 ≤ (if limit = 0 then 25 else limit)
      ∧ (if limit = 0 then 25 else limit) ≤ 100 := by
    split <;> omega
  simp only [historyFromSegments, check, decide_eq_true allowed, decide_eq_true inside, if_true,
    ok_bind]
  exact ⟨_, rfl⟩

/-! ### Followers -/

/-- What is read is numbered. -/
theorem readFiles_numbered
    {hash : SegmentHash} {projectId : RawText} {dir : Directory} {sequence : Nat}
    {previous : RawText} {names : List String} {segments : List Segment}
    (read : readFiles hash projectId dir sequence previous names = .ok segments) :
  segments.map Segment.sequence = List.range' sequence segments.length
  := by
  induction names generalizing sequence previous segments with
  | nil =>
      obtain rfl := Except.ok.inj read
      rfl
  | cons name rest ih =>
      simp only [readFiles, bind_eq_ok, Except.ok.injEq] at read
      obtain ⟨text, -, segment, accepted, more, read, rfl⟩ := read
      obtain ⟨d, -, checked⟩ := readSegmentFile_eq_ok.mp accepted
      rw [List.map_cons, List.length_cons, List.range'_succ, checked.sequence_eq, ih read]

/-- A journal, and a client with its cursor and with what it has seen. -/
structure Tail where
  disk : Disk
  cursor : Nat := 0
  seen : List HistoryEntry := []

variable {writers : Writers} {projectId : String}

/-- What can happen: a process takes a step, or the client reads a page behind its cursor. -/
inductive Follow (writers : Writers) (projectId : String) (t : Tail) : Tail → Prop where
  | other {disk : Disk}
      (step : Step writers projectId (fun _ => True) (fun _ => True) t.disk disk) :
      Follow writers projectId t { t with disk }
  | page {segments : List Segment} {limit : Int} {page : HistoryPage}
      (read : readAll writers.hash (.ofString projectId) t.disk.journal = .ok segments)
      (given : historyFromSegments segments t.cursor limit = .ok page) :
      Follow writers projectId t
        { t with cursor := page.nextCursor, seen := t.seen ++ page.entries }

/-- The client has seen the history up to its cursor. -/
def Follows (writers : Writers) (projectId : String) (t : Tail) : Prop :=
  (t.cursor = 0 ∧ t.seen = []) ∨ ∃ segments,
    Stores writers.hash (.ofString projectId) t.disk.journal segments
      ∧ t.cursor ≤ segments.length ∧ t.seen = (segments.take t.cursor).map historyEntry

/-- What the client has seen is the history of the journal up to its cursor. -/
theorem Follows.seen
    {t : Tail} (follows : Follows writers projectId t) {segments : List Segment}
    (stores : Stores writers.hash (.ofString projectId) t.disk.journal segments) :
  t.cursor ≤ segments.length ∧ t.seen = (segments.take t.cursor).map historyEntry
  := by
  rcases follows with ⟨start, nothing⟩ | ⟨segments', stores', inside, seen⟩
  · rw [start, nothing]
    exact ⟨Nat.zero_le _, rfl⟩
  · obtain rfl := stores.unique stores'
    exact ⟨inside, seen⟩

/-- The entries of a page behind those before it. -/
theorem map_take_append
    (segments : List Segment) (i n : Nat) :
  (segments.take i).map historyEntry ++ ((segments.drop i).take n).map historyEntry
    = (segments.take (i + n)).map historyEntry
  := by
  rw [← List.map_append, ← List.take_add]

/-- Every step keeps that the client has seen the history up to its cursor. -/
theorem Follows.step
    {t t' : Tail} (follows : Follows writers projectId t)
    (step : Follow writers projectId t t') :
  Follows writers projectId t'
  := by
  cases step with
  | other step =>
      rcases follows with nothing | ⟨segments, stores, inside, seen⟩
      · exact .inl nothing
      · obtain ⟨more, stores'⟩ := (step.grows stores).stores
        refine .inr ⟨segments ++ more, stores', ?_, ?_⟩
        · rw [List.length_append]
          exact inside.trans (Nat.le_add_right ..)
        · rw [List.take_append_of_le_length inside]
          exact seen
  | page read given =>
      rename_i segments limit page
      obtain ⟨stores, -⟩ := readAll_eq_ok.mp read
      obtain ⟨-, seen⟩ := follows.seen stores
      obtain ⟨n, inside, next, entries, -⟩ :=
        historyFromSegments_ok (readFiles_numbered stores.read) given
      refine .inr ⟨segments, stores, next ▸ inside, ?_⟩
      rw [seen, entries, next, map_take_append]

/-- In every run the client has seen the history up to its cursor. -/
theorem follows_of_run
    {disk : Disk} {t : Tail} (run : ReflTransGen (Follow writers projectId) { disk } t) :
  Follows writers projectId t
  := by
  induction run with
  | refl => exact .inl ⟨rfl, rfl⟩
  | tail _ step ih => exact ih.step step

/-- In every run a client that goes on from the cursor of each page has seen the history up to its
cursor, each entry once and in order, whatever processes write in between. It is given a next page
for every limit that is allowed, the page brings it forward unless it is at the end, and it has seen
all of the history exactly when the page is not truncated. -/
theorem history_is_followed
    {disk : Disk} {t : Tail} (run : ReflTransGen (Follow writers projectId) { disk } t)
    {segments : List Segment}
    (read : readAll writers.hash (.ofString projectId) t.disk.journal = .ok segments) :
  t.seen = (segments.take t.cursor).map historyEntry
    ∧ ∀ limit : Int, 0 ≤ limit → limit ≤ 100 →
      ∃ page, historyFromSegments segments t.cursor limit = .ok page
        ∧ (page.truncated = false ↔ t.seen ++ page.entries = segments.map historyEntry)
        ∧ (t.cursor < segments.length → t.cursor < page.nextCursor)
  := by
  have follows := follows_of_run run
  obtain ⟨stores, -⟩ := readAll_eq_ok.mp read
  obtain ⟨before, seen⟩ := follows.seen stores
  refine ⟨seen, fun limit positive few => ?_⟩
  obtain ⟨page, given⟩ := exists_historyFromSegments before positive few
  obtain ⟨n, inside, next, entries, truncated, forward⟩ :=
    historyFromSegments_ok (readFiles_numbered stores.read) given
  refine ⟨page, given, ?_, fun short => ?_⟩
  · rw [seen, entries, map_take_append, truncated, decide_eq_false_iff_not]
    constructor
    · intro all
      rw [List.take_of_length_le (Nat.le_of_not_lt all)]
    · intro same
      have length := congrArg List.length same
      rw [List.length_map, List.length_map, List.length_take] at length
      omega
  · have some_ := forward short
    omega

/-- A journal of one segment is followed. -/
theorem history_is_followed_sample :
  ∃ (disk : Disk) (t : Tail) (segments : List Segment),
    readAll (SampleWriter.writers fun _ => Hex.zero).hash (.ofString "p") t.disk.journal
        = .ok segments
      ∧ segments.length = 1 ∧ t.cursor = 1
      ∧ ReflTransGen (Follow (SampleWriter.writers fun _ => Hex.zero) "p") { disk } t
      ∧ t.seen = (segments.take t.cursor).map historyEntry
  := by
  obtain ⟨dir, segments, grown⟩ := SampleWriter.grown_established fun _ => Hex.zero
  have one : segments.length = 1 := grown.length
  have short : segments.length ≤ maxSegmentCount := by
    rw [one]
    decide
  have read : readAll (SampleWriter.writers fun _ => Hex.zero).hash (.ofString "p") dir
      = .ok segments :=
    readAll_eq_ok.mpr ⟨grown.stores, short⟩
  obtain ⟨page, given⟩ :=
    exists_historyFromSegments (Nat.zero_le segments.length) (le_refl (0 : Int)) (by decide)
  obtain ⟨n, inside, next, -, -, forward⟩ :=
    historyFromSegments_ok (readFiles_numbered grown.stores.read) given
  have cursor : page.nextCursor = 1 := by
    have some_ := forward (by omega)
    omega
  have run : ReflTransGen (Follow (SampleWriter.writers fun _ => Hex.zero) "p")
      { disk := { journal := dir } }
      { disk := { journal := dir }, cursor := page.nextCursor, seen := [] ++ page.entries } :=
    .single (.page read given)
  exact ⟨_, _, segments, read, one, cursor, run, (history_is_followed run read).1⟩

end Journal

end Dagrail
