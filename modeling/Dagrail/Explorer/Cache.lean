import Mathlib.Logic.Relation
import Dagrail.Service.LifecycleLedger

/-!
# The cache of the explorer

All views of the explorer are served from one snapshot of the journal (`internal/ui/cache.go`).
Requests that come while the journal is replayed wait for that replay, whoever started it, and a
request that is cancelled leaves the replay to the others. What the requests are given are replays
of prefixes of the journal, and never older ones than before.
-/

namespace Dagrail

namespace Explorer

open Relation

/-! ### Snapshots -/

/-- The type of an event. -/
def eventType : Event → String
  | .authorityEstablished _ => "authority.established"
  | .authorityRetired _ => "authority.retired"
  | .lifecycleHistoryImported _ => "lifecycle.history-imported"
  | .graphImported .. => "graph.imported"
  | .graphRevised .. => "graph.revised"
  | .nodeAutoCompleted .. => "node.auto-completed"
  | .nodeAutoSkipped .. => "node.auto-skipped"
  | .unsupported type => type
  | event => event.nativeType

/-- An entry of the history of a journal. -/
structure HistoryEntry where
  sequence : Nat
  commandKind : String
  actorRole : String
  eventTypes : List String
  committedAt : Stamp
  segmentHash : String
deriving DecidableEq

/-- The entry of a segment. -/
def historyEntry (segment : Segment) : HistoryEntry where
  sequence := segment.sequence
  commandKind := segment.command.kind
  actorRole := segment.command.actorRole
  eventTypes := segment.events.map eventType
  committedAt := segment.committedAt
  segmentHash := segment.segmentHash

/-- What a replay of a journal gives to an inspection. -/
structure InspectionSnapshot where
  state : State
  history : List HistoryEntry

/-- Replay a journal for an inspection. -/
def inspectionSnapshot (p : Platform) (projectId : String) (segments : List Segment) :
    Fallible InspectionSnapshot := do
  let state ← reduceSegments p projectId segments
  .ok { state, history := segments.map historyEntry }

/-- A snapshot in the cache: a replay with its head, and when it was loaded. -/
structure ExplorerSnapshot extends InspectionSnapshot where
  headSequence : Nat
  headHash : String
  loadedAt : Instant

/-- The snapshot of a replay. -/
def InspectionSnapshot.explorer (loaded : InspectionSnapshot) (loadedAt : Instant) :
    ExplorerSnapshot where
  toInspectionSnapshot := loaded
  headSequence := loaded.state.headSequence
  headHash := loaded.state.headHash
  loadedAt

/-! ### The cache -/

/-- The cache: the last snapshot, and the load that is going on. -/
structure ExplorerCache where
  snapshot : Option ExplorerSnapshot := none
  loading : Option Nat := none

/-- What a request finds: a snapshot, a load that is going on, or none, so that it starts one. -/
inductive Found where
  | snapshot (snapshot : ExplorerSnapshot)
  | joined (loading : Nat)
  | started (loading : Nat)

/-- What a request does under the lock of the cache. -/
def snapshotFor (cache : ExplorerCache) (force : Bool) (fresh : Nat) : ExplorerCache × Found :=
  match cache.loading, cache.snapshot with
  | some loading, _ => (cache, .joined loading)
  | none, some snapshot =>
      if force then ({ cache with loading := some fresh }, .started fresh)
      else (cache, .snapshot snapshot)
  | none, none => ({ cache with loading := some fresh }, .started fresh)

/-- What the end of a load does under the lock of the cache: the result is what the requests that
wait for it are given. -/
def populate (cache : ExplorerCache) (loading : Nat) (loaded : Fallible InspectionSnapshot)
    (loadedAt : Instant) : ExplorerCache × Fallible ExplorerSnapshot :=
  let result := loaded.map (·.explorer loadedAt)
  ({ snapshot := match result with
      | .ok snapshot => some snapshot
      | .error _ => cache.snapshot
     loading := if cache.loading = some loading then none else cache.loading }, result)

/-! ### Runs -/

/-- How far a load is. -/
inductive Load where
  | running
  | loaded (result : Fallible InspectionSnapshot)
  | done (result : Fallible ExplorerSnapshot)

/-- How far a request is. -/
inductive Request where
  | waiting (loading : Nat)
  | answered (answer : Fallible ExplorerSnapshot)

/-- The journal, the cache, the loads and the requests. -/
structure World where
  journal : List Segment
  cache : ExplorerCache := {}
  loads : Nat → Option Load := fun _ => none
  requests : Nat → Option Request := fun _ => none

namespace World

/-- The history of the journal. -/
def history (w : World) : List HistoryEntry :=
  w.journal.map historyEntry

/-- A request comes and looks at the cache. -/
def enter (w : World) (request : Nat) (force : Bool) (fresh : Nat) : World :=
  match snapshotFor w.cache force fresh with
  | (_, .snapshot snapshot) =>
      { w with requests := Function.update w.requests request (some (.answered (.ok snapshot))) }
  | (_, .joined loading) =>
      { w with requests := Function.update w.requests request (some (.waiting loading)) }
  | (cache, .started loading) =>
      { w with
        cache
        loads := Function.update w.loads loading (some .running)
        requests := Function.update w.requests request (some (.waiting loading)) }

/-- A load ends. -/
def publish (w : World) (loading : Nat) (loaded : Fallible InspectionSnapshot)
    (loadedAt : Instant) : World :=
  { w with
    cache := (populate w.cache loading loaded loadedAt).1
    loads := Function.update w.loads loading
      (some (.done (populate w.cache loading loaded loadedAt).2)) }

/-- A request is answered. -/
def answer (w : World) (request : Nat) (answer : Fallible ExplorerSnapshot) : World :=
  { w with requests := Function.update w.requests request (some (.answered answer)) }

end World

section Runs

variable {p : Platform} {projectId : String}

/-- What can happen: the journal grows, a request comes, a load reads the journal, which may fail,
and ends, a request gets what the load it waits for came to, or it is cancelled. -/
inductive Step (p : Platform) (projectId : String) (w : World) : World → Prop where
  | append (more : List Segment) : Step p projectId w { w with journal := w.journal ++ more }
  | enter {request fresh : Nat} (force : Bool) (new : w.requests request = none)
      (unused : w.loads fresh = none) : Step p projectId w (w.enter request force fresh)
  | load {loading : Nat} {result : Fallible InspectionSnapshot}
      (running : w.loads loading = some .running)
      (reads : ∀ snapshot, result = .ok snapshot →
        inspectionSnapshot p projectId w.journal = .ok snapshot) :
      Step p projectId w
        { w with loads := Function.update w.loads loading (some (.loaded result)) }
  | publish {loading : Nat} {result : Fallible InspectionSnapshot} (loadedAt : Instant)
      (loaded : w.loads loading = some (.loaded result)) :
      Step p projectId w (w.publish loading result loadedAt)
  | answer {request loading : Nat} {result : Fallible ExplorerSnapshot}
      (waiting : w.requests request = some (.waiting loading))
      (done : w.loads loading = some (.done result)) :
      Step p projectId w (w.answer request result)
  | cancel {request loading : Nat} (waiting : w.requests request = some (.waiting loading)) :
      Step p projectId w (w.answer request (.error "context canceled"))
  | refuse {request : Nat} (new : w.requests request = none) :
      Step p projectId w (w.answer request (.error "context canceled"))

/-- The load is not over. -/
def Load.busy : Load → Bool
  | .running => true
  | .loaded _ => true
  | .done _ => false

/-- The snapshot is the replay of a prefix of the journal. -/
def Genuine (p : Platform) (projectId : String) (journal : List Segment)
    (snapshot : InspectionSnapshot) : Prop :=
  ∃ front, front <+: journal ∧ inspectionSnapshot p projectId front = .ok snapshot

/-- The snapshot is that of a replay of a prefix of the journal, with the head of the replay. -/
def Served (p : Platform) (projectId : String) (journal : List Segment)
    (snapshot : ExplorerSnapshot) : Prop :=
  Genuine p projectId journal snapshot.toInspectionSnapshot
    ∧ snapshot = snapshot.toInspectionSnapshot.explorer snapshot.loadedAt

/-- The snapshot is not newer than that of the cache. -/
def Known (w : World) (snapshot : ExplorerSnapshot) : Prop :=
  ∃ cached, w.cache.snapshot = some cached ∧ snapshot.history <+: cached.history

/-- What holds in every run. -/
structure Sound (p : Platform) (projectId : String) (w : World) : Prop where
  busy : ∀ loading load, w.loads loading = some load →
    (load.busy = true ↔ w.cache.loading = some loading)
  started : ∀ loading, w.cache.loading = some loading → ∃ load, w.loads loading = some load
  waiting : ∀ request loading, w.requests request = some (.waiting loading) →
    ∃ load, w.loads loading = some load
  cached : ∀ snapshot, w.cache.snapshot = some snapshot → Served p projectId w.journal snapshot
  loaded : ∀ loading snapshot, w.loads loading = some (.loaded (.ok snapshot)) →
    Genuine p projectId w.journal snapshot
      ∧ ∀ cached, w.cache.snapshot = some cached → cached.history <+: snapshot.history
  done : ∀ loading snapshot, w.loads loading = some (.done (.ok snapshot)) →
    Served p projectId w.journal snapshot ∧ Known w snapshot
  answered : ∀ request snapshot, w.requests request = some (.answered (.ok snapshot)) →
    Served p projectId w.journal snapshot ∧ Known w snapshot

/-! ### Snapshots of prefixes -/

/-- A replay has the history of its segments. -/
theorem inspectionSnapshot_ok
    {segments : List Segment} {snapshot : InspectionSnapshot}
    (replayed : inspectionSnapshot p projectId segments = .ok snapshot) :
  reduceSegments p projectId segments = .ok snapshot.state
    ∧ snapshot.history = segments.map historyEntry
  := by
  obtain ⟨state, reduced, same⟩ := bind_eq_ok.mp replayed
  obtain rfl := Except.ok.inj same
  exact ⟨reduced, rfl⟩

/-- A replay of a prefix is one of a prefix of a longer journal. -/
theorem Genuine.append
    {journal : List Segment} {snapshot : InspectionSnapshot}
    (genuine : Genuine p projectId journal snapshot) (more : List Segment) :
  Genuine p projectId (journal ++ more) snapshot
  := by
  obtain ⟨front, part, replayed⟩ := genuine
  exact ⟨front, part.trans (List.prefix_append journal more), replayed⟩

/-- A replay has a part of the history of the journal. -/
theorem Genuine.history
    {w : World} {snapshot : InspectionSnapshot} (genuine : Genuine p projectId w.journal snapshot) :
  snapshot.history <+: w.history
  := by
  obtain ⟨front, part, replayed⟩ := genuine
  rw [(inspectionSnapshot_ok replayed).2]
  exact part.map historyEntry

/-- A replay that is served has a prefix of the journal still when the journal has grown. -/
theorem Served.append
    {journal : List Segment} {snapshot : ExplorerSnapshot}
    (served : Served p projectId journal snapshot) (more : List Segment) :
  Served p projectId (journal ++ more) snapshot
  :=
  ⟨served.1.append more, served.2⟩

/-! ### What a step keeps -/

/-- What a request that comes does: it joins the load that is going on, or it is given the snapshot
of the cache, or it starts a load. -/
theorem enter_cases
    (w : World) (request : Nat) (force : Bool) (fresh : Nat) :
  (∃ loading, w.cache.loading = some loading ∧ w.enter request force fresh
      = { w with requests := Function.update w.requests request (some (.waiting loading)) })
    ∨ (∃ snapshot, w.cache.loading = none ∧ force = false ∧ w.cache.snapshot = some snapshot
      ∧ w.enter request force fresh = w.answer request (.ok snapshot))
    ∨ w.cache.loading = none ∧ w.enter request force fresh
      = { w with
          cache := { w.cache with loading := some fresh }
          loads := Function.update w.loads fresh (some .running)
          requests := Function.update w.requests request (some (.waiting fresh)) }
  := by
  cases loading : w.cache.loading with
  | some id => exact .inl ⟨id, rfl, by simp [World.enter, snapshotFor, loading]⟩
  | none =>
      cases kept : w.cache.snapshot with
      | none => exact .inr (.inr ⟨rfl, by simp [World.enter, snapshotFor, loading, kept]⟩)
      | some snapshot =>
          cases force with
          | true => exact .inr (.inr ⟨rfl, by simp [World.enter, snapshotFor, loading, kept]⟩)
          | false =>
              exact .inr (.inl ⟨snapshot, rfl, rfl, rfl,
                by simp [World.enter, snapshotFor, loading, kept, World.answer]⟩)

namespace Sound

variable {w : World}

/-- The journal may grow. -/
theorem append
    (sound : Sound p projectId w) (more : List Segment) :
  Sound p projectId { w with journal := w.journal ++ more }
  where
  busy := sound.busy
  started := sound.started
  waiting := sound.waiting
  cached snapshot own := (sound.cached snapshot own).append more
  loaded loading snapshot own :=
    ⟨(sound.loaded loading snapshot own).1.append more, (sound.loaded loading snapshot own).2⟩
  done loading snapshot own :=
    ⟨(sound.done loading snapshot own).1.append more, (sound.done loading snapshot own).2⟩
  answered request snapshot own :=
    ⟨(sound.answered request snapshot own).1.append more, (sound.answered request snapshot own).2⟩

/-- A request may be answered with what is served. -/
theorem answer
    (sound : Sound p projectId w) (request : Nat) {result : Fallible ExplorerSnapshot}
    (good : ∀ snapshot, result = .ok snapshot →
      Served p projectId w.journal snapshot ∧ Known w snapshot) :
  Sound p projectId (w.answer request result)
  where
  busy := sound.busy
  started := sound.started
  waiting other loading own := by
    simp only [World.answer, Function.update_apply] at own
    split_ifs at own
    · cases own
    · exact sound.waiting other loading own
  cached := sound.cached
  loaded := sound.loaded
  done := sound.done
  answered other snapshot own := by
    simp only [World.answer, Function.update_apply] at own
    split_ifs at own
    · cases own
      exact good snapshot rfl
    · exact sound.answered other snapshot own

/-- A request may wait for a load. -/
theorem wait
    (sound : Sound p projectId w) (request : Nat) {loading : Nat} {load : Load}
    (there : w.loads loading = some load) :
  Sound p projectId
    { w with requests := Function.update w.requests request (some (.waiting loading)) }
  where
  busy := sound.busy
  started := sound.started
  waiting other id own := by
    simp only [Function.update_apply] at own
    split_ifs at own
    · cases own
      exact ⟨load, there⟩
    · exact sound.waiting other id own
  cached := sound.cached
  loaded := sound.loaded
  done := sound.done
  answered other snapshot own := by
    simp only [Function.update_apply] at own
    split_ifs at own
    · cases own
    · exact sound.answered other snapshot own

/-- A load may be started when none is going on. -/
theorem start
    (sound : Sound p projectId w) (fresh : Nat) (idle : w.cache.loading = none) :
  Sound p projectId
    { w with
      cache := { w.cache with loading := some fresh }
      loads := Function.update w.loads fresh (some .running) }
  where
  busy id load own := by
    simp only [Function.update_apply] at own
    split_ifs at own with same
    · cases own
      simp [Load.busy, same]
    · have before := sound.busy id load own
      rw [idle] at before
      simpa [Ne.symm same] using before
  started id own := by
    obtain rfl := Option.some.inj own
    exact ⟨.running, Function.update_self ..⟩
  waiting request id own := by
    obtain ⟨load, there⟩ := sound.waiting request id own
    simp only [Function.update_apply]
    split_ifs
    · exact ⟨_, rfl⟩
    · exact ⟨load, there⟩
  cached := sound.cached
  loaded id snapshot own := by
    simp only [Function.update_apply] at own
    split_ifs at own
    · cases own
    · exact sound.loaded id snapshot own
  done id snapshot own := by
    simp only [Function.update_apply] at own
    split_ifs at own
    · cases own
    · exact sound.done id snapshot own
  answered := sound.answered

/-- A load may read the journal. -/
theorem load
    (sound : Sound p projectId w) {loading : Nat} {result : Fallible InspectionSnapshot}
    (running : w.loads loading = some .running)
    (reads : ∀ snapshot, result = .ok snapshot →
      inspectionSnapshot p projectId w.journal = .ok snapshot) :
  Sound p projectId { w with loads := Function.update w.loads loading (some (.loaded result)) }
  where
  busy id load own := by
    simp only [Function.update_apply] at own
    split_ifs at own with same
    · cases own
      subst same
      exact sound.busy id .running running
    · exact sound.busy id load own
  started id own := by
    obtain ⟨load, there⟩ := sound.started id own
    simp only [Function.update_apply]
    split_ifs
    · exact ⟨_, rfl⟩
    · exact ⟨load, there⟩
  waiting request id own := by
    obtain ⟨load, there⟩ := sound.waiting request id own
    simp only [Function.update_apply]
    split_ifs
    · exact ⟨_, rfl⟩
    · exact ⟨load, there⟩
  cached := sound.cached
  loaded id snapshot own := by
    simp only [Function.update_apply] at own
    split_ifs at own
    · cases own
      have replayed := reads snapshot rfl
      refine ⟨⟨w.journal, List.prefix_refl _, replayed⟩, fun cached there => ?_⟩
      rw [(inspectionSnapshot_ok replayed).2]
      exact (sound.cached cached there).1.history
    · exact sound.loaded id snapshot own
  done id snapshot own := by
    simp only [Function.update_apply] at own
    split_ifs at own
    · cases own
    · exact sound.done id snapshot own
  answered := sound.answered

/-- The load that is published is the one that is going on. -/
theorem current
    (sound : Sound p projectId w) {loading : Nat} {load : Load}
    (there : w.loads loading = some load) (busy : load.busy = true) :
  w.cache.loading = some loading
  :=
  (sound.busy loading load there).mp busy

/-- The snapshots that were not newer than that of the cache are not newer than the one that is
published. -/
theorem known
    (sound : Sound p projectId w) {loading : Nat} {result : Fallible InspectionSnapshot}
    (loaded : w.loads loading = some (.loaded result)) (loadedAt : Instant)
    {snapshot : ExplorerSnapshot} (known : Known w snapshot) :
  Known (w.publish loading result loadedAt) snapshot
  := by
  obtain ⟨cached, own, part⟩ := known
  cases result with
  | error e => exact ⟨cached, own, part⟩
  | ok replayed =>
      have grown := (sound.loaded loading replayed loaded).2 cached own
      exact ⟨replayed.explorer loadedAt, rfl, part.trans grown⟩

/-- A load may end. -/
theorem publish
    (sound : Sound p projectId w) {loading : Nat} {result : Fallible InspectionSnapshot}
    (loaded : w.loads loading = some (.loaded result)) (loadedAt : Instant) :
  Sound p projectId (w.publish loading result loadedAt)
  := by
  have current := sound.current loaded rfl
  have idle : (w.publish loading result loadedAt).cache.loading = none := by
    simp [World.publish, populate, current]
  have cached : ∀ snapshot, (w.publish loading result loadedAt).cache.snapshot = some snapshot →
      Served p projectId w.journal snapshot := by
    intro snapshot own
    cases result with
    | error e => exact sound.cached snapshot own
    | ok replayed =>
        obtain rfl : replayed.explorer loadedAt = snapshot := Option.some.inj own
        exact ⟨(sound.loaded loading replayed loaded).1, rfl⟩
  have busy : ∀ id load, w.loads id = some load → id ≠ loading → load.busy = false := by
    intro id load own other
    rw [Bool.eq_false_iff]
    intro isBusy
    exact other (Option.some.inj ((sound.current own isBusy).symm.trans current))
  refine ⟨?_, ?_, ?_, cached, ?_, ?_, ?_⟩
  · intro id load own
    rw [idle]
    simp only [World.publish, Function.update_apply] at own
    split_ifs at own with same
    · cases own
      simp [Load.busy]
    · simp [busy id load own same]
  · intro id own
    rw [idle] at own
    cases own
  · intro request id own
    obtain ⟨load, there⟩ := sound.waiting request id own
    simp only [World.publish, Function.update_apply]
    split_ifs
    · exact ⟨_, rfl⟩
    · exact ⟨load, there⟩
  · intro id snapshot own
    simp only [World.publish, Function.update_apply] at own
    split_ifs at own with same
    · cases own
    · have ended : (Load.loaded (.ok snapshot)).busy = false := busy id _ own same
      cases ended
  · intro id snapshot own
    simp only [World.publish, Function.update_apply] at own
    split_ifs at own with same
    · cases result with
      | error e => cases own
      | ok replayed =>
          cases own
          exact ⟨cached _ rfl, _, rfl, List.prefix_refl _⟩
    · obtain ⟨served, known⟩ := sound.done id snapshot own
      exact ⟨served, sound.known loaded loadedAt known⟩
  · intro request snapshot own
    obtain ⟨served, known⟩ := sound.answered request snapshot own
    exact ⟨served, sound.known loaded loadedAt known⟩

/-- A request may come. -/
theorem enter
    (sound : Sound p projectId w) (request : Nat) (force : Bool) (fresh : Nat) :
  Sound p projectId (w.enter request force fresh)
  := by
  rcases enter_cases w request force fresh with
    ⟨loading, current, same⟩ | ⟨snapshot, -, -, own, same⟩ | ⟨idle, same⟩
  · rw [same]
    obtain ⟨load, there⟩ := sound.started loading current
    exact sound.wait request there
  · rw [same]
    refine sound.answer request fun other given => ?_
    obtain rfl := Except.ok.inj given
    exact ⟨sound.cached snapshot own, snapshot, own, List.prefix_refl _⟩
  · rw [same]
    exact (sound.start fresh idle).wait request (Function.update_self ..)

/-- A step may be taken. -/
theorem step
    (sound : Sound p projectId w) {w' : World} (step : Step p projectId w w') :
  Sound p projectId w'
  := by
  cases step with
  | append more => exact sound.append more
  | enter force new unused => exact sound.enter _ force _
  | load running reads => exact sound.load running reads
  | publish loadedAt loaded => exact sound.publish loaded loadedAt
  | answer waiting done =>
      refine sound.answer _ fun snapshot own => ?_
      subst own
      exact sound.done _ snapshot done
  | cancel waiting => exact sound.answer _ nofun
  | refuse new => exact sound.answer _ nofun

end Sound

/-- What holds at the start. -/
theorem sound_start
    (journal : List Segment) :
  Sound p projectId { journal }
  :=
  ⟨nofun, nofun, nofun, nofun, nofun, nofun, nofun⟩

/-- What holds in every run. -/
theorem Sound.run
    {w w' : World} (sound : Sound p projectId w)
    (run : ReflTransGen (Step p projectId) w w') :
  Sound p projectId w'
  := by
  induction run with
  | refl => exact sound
  | tail _ step ih => exact ih.step step

namespace SampleCache

/-- The replay of an empty journal. -/
def empty : InspectionSnapshot where
  state := State.new "p"
  history := []

/-- An empty journal, for which a request has come. -/
def asked : World :=
  World.enter { journal := [] } 0 false 0

/-- Then the journal was read. -/
def replayed : World :=
  { asked with loads := Function.update asked.loads 0 (some (.loaded (.ok empty))) }

/-- Then the request was answered. -/
def answered : World :=
  (replayed.publish 0 (.ok empty) 0).answer 0 (.ok (empty.explorer 0))

/-- A request comes. -/
theorem asks :
  Step Platform.plain "p" { journal := [] } asked
  :=
  .enter false rfl rfl

/-- It is answered. -/
theorem answers :
  ReflTransGen (Step Platform.plain "p") asked answered
  :=
  .tail (.tail (.single (.load rfl fun _ same => Except.ok.inj same ▸ rfl)) (.publish 0 rfl))
    (.answer rfl rfl)

/-- It waits before, and has the replay behind. -/
theorem requests :
  asked.requests 0 = some (.waiting 0)
    ∧ answered.requests 0 = some (.answered (.ok (empty.explorer 0)))
  :=
  ⟨rfl, rfl⟩

end SampleCache

/-! ### One replay at a time -/

/-- In every run one load is going on at most, and a request that waits waits for that load or for
one that is over. -/
theorem replays_collapse
    {journal : List Segment} {w : World} (run : ReflTransGen (Step p projectId) { journal } w) :
  (∀ a b load load', w.loads a = some load → w.loads b = some load' → load.busy = true →
      load'.busy = true → a = b)
    ∧ ∀ request loading, w.requests request = some (.waiting loading) →
      w.cache.loading = some loading ∨ ∃ result, w.loads loading = some (.done result)
  := by
  have sound := (sound_start journal).run run
  refine ⟨fun a b load load' own own' busy busy' => ?_, fun request loading waiting => ?_⟩
  · exact Option.some.inj ((sound.current own busy).symm.trans (sound.current own' busy'))
  · obtain ⟨load, there⟩ := sound.waiting request loading waiting
    cases load with
    | running => exact .inl (sound.current there rfl)
    | loaded result => exact .inl (sound.current there rfl)
    | done result => exact .inr ⟨result, there⟩

open SampleCache in
/-- The request waits for the load that is going on. -/
theorem replays_collapse_sample :
  asked.cache.loading = some 0 ∨ ∃ result, asked.loads 0 = some (.done result)
  :=
  (replays_collapse (.single asks)).2 0 0 requests.1

/-- Where a load is over, a request that waits for it can be answered. -/
theorem answer_of_done
    {w : World} {request loading : Nat} {result : Fallible ExplorerSnapshot}
    (waiting : w.requests request = some (.waiting loading))
    (done : w.loads loading = some (.done result)) :
  ReflTransGen (Step p projectId) w (w.answer request result)
  :=
  .single (.answer waiting done)

/-- In every run a request that waits can be answered with the result of the load it waits for, by
steps of that load and of the request alone. -/
theorem waiting_is_answered
    {journal : List Segment} {w : World} (run : ReflTransGen (Step p projectId) { journal } w)
    {request loading : Nat} (waiting : w.requests request = some (.waiting loading)) :
  ∃ w' result, ReflTransGen (Step p projectId) w w'
    ∧ w'.loads loading = some (.done result)
    ∧ w'.requests = Function.update w.requests request (some (.answered result))
    ∧ w'.journal = w.journal ∧ ∀ other ≠ loading, w'.loads other = w.loads other
  := by
  have published : ∀ v : World, v.requests = w.requests → v.journal = w.journal →
      (∀ other ≠ loading, v.loads other = w.loads other) →
      ReflTransGen (Step p projectId) w v →
      ∀ result, v.loads loading = some (.loaded result) →
      ∃ w' result, ReflTransGen (Step p projectId) w w'
        ∧ w'.loads loading = some (.done result)
        ∧ w'.requests = Function.update w.requests request (some (.answered result))
        ∧ w'.journal = w.journal ∧ ∀ other ≠ loading, w'.loads other = w.loads other := by
    intro v requests sameJournal others reached result loaded
    have ended : (v.publish loading result 0).loads loading
        = some (.done (populate v.cache loading result 0).2) := Function.update_self ..
    have waits : (v.publish loading result 0).requests request = some (.waiting loading) :=
      (congrFun requests request).trans waiting
    refine ⟨_, _, (reached.tail (.publish 0 loaded)).trans (answer_of_done waits ended), ended, ?_,
      sameJournal, fun other ne => ?_⟩
    · exact congrArg (Function.update · request _) requests
    · exact (Function.update_of_ne ne _ _).trans (others other ne)
  obtain ⟨load, there⟩ := ((sound_start journal).run run).waiting request loading waiting
  cases load with
  | done result =>
      exact ⟨_, result, answer_of_done waiting there, there, rfl, rfl, fun _ _ => rfl⟩
  | loaded result =>
      exact published w rfl rfl (fun _ _ => rfl) .refl result there
  | running =>
      refine published
        { w with
          loads := Function.update w.loads loading
            (some (.loaded (inspectionSnapshot p projectId w.journal))) }
        rfl rfl (fun other ne => Function.update_of_ne ne _ _)
        (.single (.load there fun snapshot same => same))
        (inspectionSnapshot p projectId w.journal) (Function.update_self ..)

open SampleCache in
/-- The request can be answered. -/
theorem waiting_is_answered_sample :
  ∃ w result, ReflTransGen (Step Platform.plain "p") asked w
    ∧ w.requests 0 = some (.answered result)
  := by
  obtain ⟨w, result, run, -, given, -, -⟩ := waiting_is_answered (.single asks) requests.1
  exact ⟨w, result, run, (congrFun given 0).trans (Function.update_self ..)⟩

/-! ### What is served -/

/-- The loads that are late have read the floor at least. -/
structure LoadsAhead (floor : List HistoryEntry) (late : Nat → Prop) (w : World) : Prop where
  grown : floor <+: w.history
  loaded : ∀ loading snapshot, late loading → w.loads loading = some (.loaded (.ok snapshot)) →
    floor <+: snapshot.history
  done : ∀ loading snapshot, late loading → w.loads loading = some (.done (.ok snapshot)) →
    floor <+: snapshot.history

/-- A step keeps it that the late loads have read the floor. -/
theorem LoadsAhead.step
    {floor : List HistoryEntry} {late : Nat → Prop} {w w' : World} (ahead : LoadsAhead floor late w)
    (step : Step p projectId w w') :
  LoadsAhead floor late w'
  := by
  cases step with
  | append more =>
      refine ⟨ahead.grown.trans ?_, ahead.loaded, ahead.done⟩
      rw [World.history, World.history, List.map_append]
      exact List.prefix_append _ _
  | enter force new unused =>
      rename_i request fresh
      rcases enter_cases w request force fresh with
        ⟨loading, -, same⟩ | ⟨snapshot, -, -, -, same⟩ | ⟨-, same⟩
      · rw [same]
        exact ⟨ahead.grown, ahead.loaded, ahead.done⟩
      · rw [same]
        exact ⟨ahead.grown, ahead.loaded, ahead.done⟩
      · rw [same]
        refine ⟨ahead.grown, fun id snapshot isLate own => ?_, fun id snapshot isLate own => ?_⟩
        · simp only [Function.update_apply] at own
          split_ifs at own
          · cases own
          · exact ahead.loaded id snapshot isLate own
        · simp only [Function.update_apply] at own
          split_ifs at own
          · cases own
          · exact ahead.done id snapshot isLate own
  | load running reads =>
      refine ⟨ahead.grown, fun id snapshot isLate own => ?_, fun id snapshot isLate own => ?_⟩
      · simp only [Function.update_apply] at own
        split_ifs at own
        · cases own
          rw [(inspectionSnapshot_ok (reads snapshot rfl)).2]
          exact ahead.grown
        · exact ahead.loaded id snapshot isLate own
      · simp only [Function.update_apply] at own
        split_ifs at own
        · cases own
        · exact ahead.done id snapshot isLate own
  | publish loadedAt loaded =>
      rename_i loading result
      refine ⟨ahead.grown, fun id snapshot isLate own => ?_, fun id snapshot isLate own => ?_⟩
      · simp only [World.publish, Function.update_apply] at own
        split_ifs at own
        · cases own
        · exact ahead.loaded id snapshot isLate own
      · simp only [World.publish, Function.update_apply] at own
        split_ifs at own with same
        · subst same
          cases result with
          | error e => cases own
          | ok replayed =>
              cases own
              exact ahead.loaded id replayed isLate loaded
        · exact ahead.done id snapshot isLate own
  | answer waiting done => exact ⟨ahead.grown, ahead.loaded, ahead.done⟩
  | cancel waiting => exact ⟨ahead.grown, ahead.loaded, ahead.done⟩
  | refuse new => exact ⟨ahead.grown, ahead.loaded, ahead.done⟩

/-- In a run the late loads have read the floor. -/
theorem LoadsAhead.run
    {floor : List HistoryEntry} {late : Nat → Prop} {w w' : World} (ahead : LoadsAhead floor late w)
    (run : ReflTransGen (Step p projectId) w w') :
  LoadsAhead floor late w'
  := by
  induction run with
  | refl => exact ahead
  | tail _ step ih => exact ih.step step

/-- What a step can do to a request. -/
inductive RequestStep (w : World) (old new : Option Request) : Prop where
  | same (same : new = old)
  | came {loading : Nat} (unknown : old = none)
      (current : w.cache.loading = some loading ∨ w.loads loading = none)
      (waits : new = some (.waiting loading))
  | found {snapshot : ExplorerSnapshot} (unknown : old = none)
      (cached : w.cache.snapshot = some snapshot) (given : new = some (.answered (.ok snapshot)))
  | given {loading : Nat} {result : Fallible ExplorerSnapshot}
      (waiting : old = some (.waiting loading)) (done : w.loads loading = some (.done result))
      (given : new = some (.answered result))
  | failed (message : String) (given : new = some (.answered (.error message)))

/-- What a step does to a request. -/
theorem Step.request
    {w w' : World} (step : Step p projectId w w') (request : Nat) :
  RequestStep w (w.requests request) (w'.requests request)
  := by
  cases step with
  | append more => exact .same rfl
  | enter force new unused =>
      rename_i own fresh
      by_cases its : request = own
      · subst its
        rcases enter_cases w request force fresh with
          ⟨loading, current, same⟩ | ⟨snapshot, -, -, cached, same⟩ | ⟨-, same⟩
        · rw [same]
          exact .came new (.inl current) (Function.update_self ..)
        · rw [same]
          exact .found new cached (Function.update_self ..)
        · rw [same]
          exact .came new (.inr unused) (Function.update_self ..)
      · rcases enter_cases w own force fresh with
          ⟨loading, -, same⟩ | ⟨snapshot, -, -, -, same⟩ | ⟨-, same⟩
        · rw [same]
          exact .same (Function.update_of_ne its _ _)
        · rw [same]
          exact .same (Function.update_of_ne its _ _)
        · rw [same]
          exact .same (Function.update_of_ne its _ _)
  | load running reads => exact .same rfl
  | publish loadedAt loaded => exact .same rfl
  | answer waiting done =>
      rename_i own loading result
      by_cases its : request = own
      · subst its
        exact .given waiting done (Function.update_self ..)
      · exact .same (Function.update_of_ne its _ _)
  | cancel waiting =>
      rename_i own loading
      by_cases its : request = own
      · subst its
        exact .failed "context canceled" (Function.update_self ..)
      · exact .same (Function.update_of_ne its _ _)
  | refuse new =>
      rename_i own
      by_cases its : request = own
      · subst its
        exact .failed "context canceled" (Function.update_self ..)
      · exact .same (Function.update_of_ne its _ _)

/-- A load that is over stays as it is. -/
theorem Step.done_stays
    {w w' : World} (step : Step p projectId w w') {loading : Nat}
    {result : Fallible ExplorerSnapshot} (done : w.loads loading = some (.done result)) :
  w'.loads loading = some (.done result)
  := by
  cases step with
  | append more => exact done
  | enter force new unused =>
      rename_i request fresh
      rcases enter_cases w request force fresh with
        ⟨_, -, same⟩ | ⟨_, -, -, -, same⟩ | ⟨-, same⟩
      · rw [same]
        exact done
      · rw [same]
        exact done
      · rw [same]
        have other : loading ≠ fresh := by
          rintro rfl
          exact absurd (unused.symm.trans done) nofun
        exact (Function.update_of_ne other _ _).trans done
  | load running reads =>
      rename_i own result
      have other : loading ≠ own := by
        rintro rfl
        exact absurd (running.symm.trans done) nofun
      exact (Function.update_of_ne other _ _).trans done
  | publish loadedAt loaded =>
      rename_i own result
      have other : loading ≠ own := by
        rintro rfl
        exact absurd (loaded.symm.trans done) nofun
      exact (Function.update_of_ne other _ _).trans done
  | answer waiting ended => exact done
  | cancel waiting => exact done
  | refuse new => exact done

/-- The snapshot of the cache stays or gets newer. -/
theorem Known.step
    {w w' : World} {snapshot : ExplorerSnapshot} (known : Known w snapshot)
    (sound : Sound p projectId w) (step : Step p projectId w w') :
  Known w' snapshot
  := by
  cases step with
  | append more => exact known
  | enter force new unused =>
      rename_i request fresh
      rcases enter_cases w request force fresh with
        ⟨_, -, same⟩ | ⟨_, -, -, -, same⟩ | ⟨-, same⟩
      · rw [same]
        exact known
      · rw [same]
        exact known
      · rw [same]
        exact known
  | load running reads => exact known
  | publish loadedAt loaded => exact sound.known loaded loadedAt known
  | answer waiting done => exact known
  | cancel waiting => exact known
  | refuse new => exact known

/-- What is known of the requests that came after a moment, at which a snapshot was served: the
loads that were over at the moment still are, the cache is not older than the snapshot, and the
requests wait for later loads or are answered with snapshots that are not older. -/
structure Since (past : World) (served : ExplorerSnapshot) (w : World) : Prop where
  ended : ∀ loading result, past.loads loading = some (.done result) →
    w.loads loading = some (.done result)
  known : Known w served
  ahead : LoadsAhead served.history (fun id => ∀ result, past.loads id ≠ some (.done result)) w
  waiting : ∀ request loading, past.requests request = none →
    w.requests request = some (.waiting loading) →
    ∀ result, past.loads loading ≠ some (.done result)
  answered : ∀ request snapshot, past.requests request = none →
    w.requests request = some (.answered (.ok snapshot)) → served.history <+: snapshot.history

/-- A step keeps what is known of the requests that came after the moment. -/
theorem Since.step
    {past w w' : World} {served : ExplorerSnapshot} (since : Since past served w)
    (sound : Sound p projectId w) (step : Step p projectId w w') :
  Since past served w'
  := by
  refine ⟨fun id result done => step.done_stays (since.ended id result done),
    since.known.step sound step, since.ahead.step step, ?_, ?_⟩
  · intro request loading new own result done
    have ended := since.ended loading result done
    cases step.request request with
    | same same => exact since.waiting request loading new (same.symm.trans own) result done
    | came unknown current waits =>
        cases waits.symm.trans own
        rcases current with current | unused
        · have busy := (sound.busy loading _ ended).mpr current
          cases busy
        · exact absurd (unused.symm.trans ended) nofun
    | found unknown cached given => exact absurd (given.symm.trans own) nofun
    | given waits _ given => exact absurd (given.symm.trans own) nofun
    | failed message given => exact absurd (given.symm.trans own) nofun
  · intro request snapshot new own
    cases step.request request with
    | same same => exact since.answered request snapshot new (same.symm.trans own)
    | came unknown current waits => exact absurd (waits.symm.trans own) nofun
    | found unknown cached given =>
        cases given.symm.trans own
        obtain ⟨newest, there, part⟩ := since.known
        cases there.symm.trans cached
        exact part
    | given waits done given =>
        cases given.symm.trans own
        exact since.ahead.done _ snapshot (since.waiting request _ new waits) done
    | failed message given => exact absurd (given.symm.trans own) nofun

end Runs

end Explorer

end Dagrail
