import Dagrail.Service.ResourceLaws
import Mathlib.Algebra.Group.Int.Defs

/-!
# Resources over runs

In a run whose imported histories read from the journal as the importer read them, a resource is
released only with a confirmed closure of its own, stays released, and the active resources of a
kind stay within its capacity. A history that reads otherwise breaks both laws.
-/

namespace Dagrail

/-! ### Sanctioned segments -/

/-- The events of a history read from the journal as the importer reads them. Other calls import
none. -/
def Call.Faithful : Call → Prop
  | .importHistory value => ∀ commands, value.manifest.sourceCommands = .ok commands →
      ∀ event ∈ commands.flatMap Lifecycle.SourceCommand.events, event.stored = event.read
  | _ => True

variable {p : Platform} {projectId : String}

/-- Every event that a call writes is sanctioned on the state it is applied to. -/
theorem Write.sanctioned
    {n : Nat} {at_ : Stamp} {s s₁ : State} {env : Env} {call : Call} {events before after : List Event}
    {event : Event} (write : Write p s env call events)
    (limits : Plain events ∨ (call.Faithful ∧ env.Fresh s))
    (valid : ∀ g, s.graph = some g → g.Valid) (split : events = before ++ event :: after)
    (reached : before.foldlM (State.applyEvent p n at_) s = .ok s₁) :
  event.Sanctioned events s₁
  := by
  have listed : event ∈ events := by simp [split]
  rcases limits with plain | ⟨faithful, fresh⟩
  · have plain := plain event listed
    cases event <;> trivial
  cases write with
  | plain events plain =>
      have plain := plain event listed
      cases event <;> trivial
  | start ref node attempt now action i declared ready =>
      have fresh' : (env.after i).Fresh s := ⟨fun j => fresh.unused _, ?_⟩
      · exact sanctioned_of_start valid fresh' declared ready split reached _
      · intro j k same
        have := fresh.distinct same
        omega
  | closure ref resource status receipt now action closable => exact sanctioned_of_closure listed
  | importGraph graph revision inputDigest first accepted =>
      obtain ⟨rfl, rfl, rfl⟩ : before = [] ∧ event = .graphImported graph revision inputDigest ∧
          after = [] := by
        rcases List.cons_eq_append_iff.mp split with ⟨rfl, same⟩ | ⟨rest, rfl, same⟩
        · obtain ⟨rfl, rfl⟩ := List.cons.inj same
          exact ⟨rfl, rfl, rfl⟩
        · simp at same
      obtain rfl : s = s₁ := Except.ok.inj reached
      exact ⟨first, valid_of_validateGraph accepted⟩
  | changeGraph patch graph impact impact' revision previous superseded patched =>
      obtain ⟨rfl, rfl, rfl⟩ : before = [] ∧
          event = .graphRevised graph revision previous superseded impact' ∧ after = [] := by
        rcases List.cons_eq_append_iff.mp split with ⟨rfl, same⟩ | ⟨rest, rfl, same⟩
        · obtain ⟨rfl, rfl⟩ := List.cons.inj same
          exact ⟨rfl, rfl, rfl⟩
        · simp at same
      obtain rfl : s = s₁ := Except.ok.inj reached
      exact applyGraphPatch_careful patched
  | skip nodeId at_ cut =>
      obtain rfl := List.mem_singleton.mp listed
      trivial
  | complete node outcome at_ declared deterministic ready =>
      obtain rfl := List.mem_singleton.mp listed
      trivial
  | importHistory value segments history receipt called admitted =>
      subst called
      have all : ∀ event ∈ history.events, event.stored = event.read := by
        rw [admitted.events]
        exact faithful _ admitted.commands
      have sanctioned := sanctioned_of_import admitted all split reached
      rw [split]
      exact sanctioned

/-! ### Moments -/

variable {w : World}

/-- Leases and attempts are filed at every moment of a journal. -/
theorem Moment.runsFiled
    {journal : List Segment} {segment : Segment} {event : Event} {s s' : State}
    (moment : Moment p projectId journal segment event s s') :
  RunsFiled s
  := by
  obtain ⟨front, rest, before, after, r, -, -, loaded, reached, -⟩ := moment
  refine foldlM_invariant RunsFiled ?_ (runsFiled_of_reduceSegments loaded) reached
  intro s event s' _ filed applied
  exact State.applyEvent_runsFiled filed applied

/-- Every event of a run with faithful imports is sanctioned. -/
theorem Reachable.sanctioned
    {segment : Segment} {event : Event} {s s' : State}
    (reachable : Reachable p projectId (fun _ call => call.Faithful) w)
    (free : CollisionFree w.journal) (moment : Moment p projectId w.journal segment event s s') :
  event.Sanctioned segment.events s
  := by
  obtain ⟨front, rest, before, after, r, segments, events, loaded, reached, -⟩ := moment
  rcases reachable.segment_created free segments with ⟨-, e, fence⟩ | ⟨r', env, call, loaded', write, limits⟩
  · have listed : event ∈ segment.events := by simp [events]
    rw [fence] at listed
    obtain rfl := List.mem_singleton.mp listed
    trivial
  · obtain rfl : r = r' := Except.ok.inj (loaded.symm.trans loaded')
    refine write.sanctioned limits ?_ events reached
    intro g graph
    exact valid_of_validateGraph (reachable.validGraph ⟨_, segments.symm⟩ loaded graph)

/-! ### Releases -/

/-- In a run with faithful imports, an active resource stays active until it is released by a command
that records a confirmed closure of that very resource; and a released resource stays released. -/
theorem resources_released_once
    (reachable : Reachable p projectId (fun _ call => call.Faithful) w)
    (free : CollisionFree w.journal) (id : String) :
  (∀ segment event s s', Moment p projectId w.journal segment event s s' →
    s.ResourceIs id .active → s'.ResourceIs id .active ∨
      (s'.ResourceIs id .released ∧ (∃ releasedAt, event = .resourceReleased id releasedAt) ∧
        ∃ receipt at_, .resourceClosureObserved id .confirmed receipt at_ ∈ segment.events)) ∧
  (∀ segment event s s', Moment p projectId w.journal segment event s s' →
    s.ResourceIs id .released → s'.ResourceIs id .released) ∧
  ∀ front front' s s', front <+: front' → front' <+: w.journal →
    reduceSegments p projectId front = .ok s → reduceSegments p projectId front' = .ok s' →
    s.ResourceIs id .released → s'.ResourceIs id .released
  := by
  have kept : ∀ segment event s s', Moment p projectId w.journal segment event s s' →
      s.ResourceIs id .released → s'.ResourceIs id .released := by
    intro segment event s s' moment released
    have sanctioned := reachable.sanctioned free moment
    have filed := moment.runsFiled
    obtain ⟨-, -, -, -, -, -, -, -, -, applied⟩ := moment
    exact released_of_sanctioned filed sanctioned applied released
  refine ⟨?_, kept, ?_⟩
  · intro segment event s s' moment active
    have sanctioned := reachable.sanctioned free moment
    have filed := moment.runsFiled
    obtain ⟨-, -, -, -, -, -, -, -, -, applied⟩ := moment
    rcases active_of_sanctioned filed sanctioned applied active with stays | ⟨releasedAt, rfl⟩
    · exact Or.inl stays
    · right
      obtain ⟨closed, known, -, rfl⟩ := State.releaseResource_ok applied
      have own : closed.id = id := filed.resources id closed known
      refine ⟨⟨{ closed with status := .released, releasedAt }, ?_, rfl⟩, ⟨releasedAt, rfl⟩, sanctioned⟩
      rw [Table.lookup_insert, if_pos own.symm]
  · intro front front' s s' later within loaded loaded' released
    exact moments_invariant (fun s => s.ResourceIs id .released) (fun _ _ h => h) kept released
      loaded later within loaded'

/-! ### Imported leases -/

namespace SampleLeases

/-- The project of the samples. -/
def project : String := "11111111-1111-4111-8111-111111111111"

/-- The time of everything in the samples. -/
def stamp : Json := .str "1970-01-01T00:00:00Z"

/-- A graph with one task that takes one of each resource kind. -/
def graph (kinds : List String) : GraphDefinition where
  apiVersion := graphAPIVersion
  kind := graphKind
  metadata := { name := "sample" }
  spec :=
    { roles := [{ id := "dev", capabilities := [.nodeRun, .resourceClose] }]
      nodes :=
        [{ id := "build"
           title := "build"
           kind := .task
           role := "dev"
           objective := "build"
           resources := kinds.map fun kind => { kind, quantity := 1 }
           outcomes := [⟨"done", .success⟩] }]
      resourceCapacities := kinds.map fun kind => { kind, capacity := 1 } }

def event (type : String) (members : List (String × Json)) : LifecycleMigrationEvent :=
  { type, payload := .obj members }

/-- A lease of a resource for the first attempt, with further members of its payload. -/
def leased (id kind : String) (more : List (String × Json)) : LifecycleMigrationEvent :=
  event "resource.leased"
    ([("id", .str id), ("kind", .str kind), ("nodeId", .str "build"), ("attemptId", .str "a1"),
      ("roleId", .str "dev"), ("status", .str "active"), ("leasedAt", stamp)] ++ more)

/-- An action of the first attempt. -/
def action (kind : String) (input : List (String × Json)) : LifecycleMigrationEvent :=
  event "action.applied"
    [("id", .str kind), ("kind", .str kind), ("nodeId", .str "build"), ("attemptId", .str "a1"),
      ("status", .str "confirmed"), ("input", .obj input)]

/-- The binding of the role. -/
def bind : LifecycleMigrationCommand where
  commandIndex := 1
  events :=
    [event "role.bound"
      [("roleId", .str "dev"), ("harness", .str "cli"), ("sessionId", .str "first"),
        ("boundAt", stamp), ("expiresAt", .str "1970-01-01T01:00:00Z"), ("active", .bool true)]]

/-- The start of the first attempt with its leases. -/
def start (leases : List LifecycleMigrationEvent) : LifecycleMigrationCommand where
  commandIndex := 2
  events :=
    [event "attempt.leased"
        [("id", .str "a1"), ("nodeId", .str "build"), ("roleId", .str "dev"), ("number", .num 1),
          ("status", .str "leased"), ("startedAt", stamp), ("updatedAt", stamp)],
      event "attempt.status-changed"
        [("attemptId", .str "a1"), ("status", .str "running"), ("updatedAt", stamp)]]
      ++ leases ++ [action "node.start" []]

/-- The closure of the first resource, with the members that name what was observed. -/
def close (observed : List (String × Json)) : LifecycleMigrationCommand where
  commandIndex := 3
  events :=
    [event "resource.closure-observed"
        ([("status", .str "confirmed"), ("receipt", .str "closed"), ("updatedAt", stamp)] ++ observed),
      event "resource.released" [("resourceId", .str "r1"), ("releasedAt", stamp)],
      action "resource.close" [("resourceId", .str "r1")]]

/-- The history of the commands. -/
def manifest (commands : List LifecycleMigrationCommand) : LifecycleMigrationManifest where
  apiVersion := lifecycleMigrationBundleAPIVersion
  kind := "LifecycleMigration"
  projectId := project
  graphRevision := Hex.zero.text
  expectedJournalHead := numberedText 1
  source :=
    { system := "tracker"
      project := "sample"
      authorityHash := Hex.zero.digest
      headSequence := 1
      headEventId := "e1"
      headEventHash := Hex.zero.digest }
  recordsDigest := Hex.zero.digest
  records :=
    [{ sourceSequence := 1
       sourceEventId := "e1"
       sourceEventHash := Hex.zero.digest
       occurredAt := .utc 0
       events := []
       commands }]

/-- The graph is imported, then the history. -/
def calls (kinds : List String) (commands : List LifecycleMigrationCommand) : List Call :=
  [.importGraph
      { graph := graph kinds, idempotencyKey := "graph", actorRole := "lead", requestDigest := "" },
    .importHistory
      { manifest := manifest commands
        trustedSourceAuthority := Hex.zero.digest
        actorRole := "lead"
        idempotencyKey := "history" }]

/-- The journal after the calls. -/
def journal (kinds : List String) (commands : List LifecycleMigrationCommand) :
    Fallible (List Segment) :=
  commitCalls .numbered project 0 [] (calls kinds commands)

/-- Does every event of the history bind its fields once? -/
def single (commands : List LifecycleMigrationCommand) : Bool :=
  (manifest commands).sourceCommands.toOption.all fun commands =>
    (commands.flatMap Lifecycle.SourceCommand.events).all LifecycleMigrationEvent.single

/-- The journal after the calls is reachable. -/
theorem reachable
    {kinds : List String} {commands : List LifecycleMigrationCommand} {journal' : List Segment}
    (committed : journal kinds commands = .ok journal') :
  Reachable .numbered project (fun _ _ => True) (World.initial journal' 0)
  := by
  have start : Reachable .numbered project (fun _ _ => True) (World.initial [] 0) :=
    ⟨[], 0, .empty, .refl⟩
  exact reachable_of_commitCalls start (fun _ _ _ => trivial) committed

/-- If the history binds every field once, its import is faithful. -/
theorem reachable_of_single
    {kinds : List String} {commands : List LifecycleMigrationCommand} {journal' : List Segment}
    (once : single commands = true) (committed : journal kinds commands = .ok journal') :
  Reachable .numbered project (fun _ call => call.Faithful) (World.initial journal' 0)
  := by
  have start : Reachable .numbered project (fun _ call => call.Faithful) (World.initial [] 0) :=
    ⟨[], 0, .empty, .refl⟩
  refine reachable_of_commitCalls start ?_ committed
  intro s call mem
  simp only [calls, List.mem_cons, List.not_mem_nil, or_false] at mem
  rcases mem with rfl | rfl
  · trivial
  · intro source given event mem
    simp only [single, given, Except.toOption, Option.all_some, List.all_eq_true] at once
    exact LifecycleMigrationEvent.stored_eq_read (once event mem)

/-- A history of two leases, of which the first one is closed. The journal reads another resource
for the closure than the importer, and no closure status for the lease. -/
def swapped : List LifecycleMigrationCommand :=
  [bind,
    start
      [leased "r1" "gpu"
          [("quantity", .num 1), ("closureStatus", .str ""), ("CLOSURESTATUS", .str "pending")],
        leased "r2" "disk" [("quantity", .num 1), ("closureStatus", .str "pending")]],
    close [("resourceId", .str "r2"), ("RESOURCEID", .str "r1")]]

/-- The same history without the further members. -/
def plain : List LifecycleMigrationCommand :=
  [bind,
    start
      [leased "r1" "gpu" [("quantity", .num 1), ("closureStatus", .str "pending")],
        leased "r2" "disk" [("quantity", .num 1), ("closureStatus", .str "pending")]],
    close [("resourceId", .str "r1")]]

/-- A history of one lease. The journal reads another quantity for it than the importer. -/
def oversized : List LifecycleMigrationCommand :=
  [bind,
    start
      [leased "r1" "gpu"
        [("quantity", .num 5), ("closureStatus", .str "pending"), ("QUANTITY", .num 1)]]]

/-- Is the event a closure observation of the resource? -/
def observes (id : String) : Event → Bool
  | .resourceClosureObserved id' .. => id' = id
  | _ => false

/-- The segment of the import, its release, and the states around it. -/
def release (journal : List Segment) : Fallible (Segment × Event × State × State) := do
  let segment ← need journal[1]? "the history is not imported"
  let r ← reduceSegments .numbered project (journal.take 1)
  let s ← (segment.events.take 8).foldlM
    (State.applyEvent .numbered segment.sequence segment.committedAt) r
  let event ← need segment.events[8]? "the history has no release"
  let s' ← s.applyEvent .numbered segment.sequence segment.committedAt event
  .ok (segment, event, s, s')

/-- What is around the release is a moment of the journal. -/
theorem release_moment
    {journal : List Segment} {segment : Segment} {event : Event} {s s' : State}
    (h : release journal = .ok (segment, event, s, s')) :
  Moment .numbered project journal segment event s s'
  := by
  simp only [release, bind_eq_ok, need_eq_ok, Except.ok.injEq, Prod.mk.injEq] at h
  obtain ⟨segment', second, r, loaded, s₀, reached, event', next, _, applied, rfl, rfl, rfl, rfl⟩ := h
  refine .mk (journal.take 1) (journal.drop 2) (segment'.events.take 8) (segment'.events.drop 9) r
    ?_ ?_ loaded reached applied
  · conv_lhs => rw [← List.take_append_drop 1 journal]
    rw [List.drop_eq_getElem?_toList_append, second]
    rfl
  · conv_lhs => rw [← List.take_append_drop 8 segment'.events]
    rw [List.drop_eq_getElem?_toList_append, next]
    rfl

/-- The first history leads to a release whose closure is that of another resource. -/
theorem swapped_run :
  (journal ["gpu", "disk"] swapped >>= fun journal =>
      release journal >>= fun (segment, _, s, s') =>
        .ok (decide (journal.map Segment.segmentHash).Nodup
          && (s.resources.lookup "r1").any (fun lease => lease.status = .active)
          && (s'.resources.lookup "r1").any (fun lease => lease.status = .released)
          && !segment.events.any (observes "r1"))) = .ok true
  := by decide +kernel

/-- The second history leads to a release with its own closure. -/
theorem own_run :
  (journal ["gpu", "disk"] plain >>= fun journal =>
      reduceSegments .numbered project journal >>= fun s =>
        .ok (decide (journal.map Segment.segmentHash).Nodup
          && (s.resources.lookup "r1").any (fun lease => lease.status = .released)
          && s.graph.isSome && decide (s.leasedQuantity "disk" = 1))) = .ok true
  := by decide +kernel

/-- The third history leads to a lease over the capacity of its kind. -/
theorem oversized_run :
  (journal ["gpu"] oversized >>= fun journal =>
      reduceSegments .numbered project journal >>= fun s =>
        .ok (decide (journal.map Segment.segmentHash).Nodup
          && s.graph.any fun g => g.spec.resourceCapacities.any fun c =>
            decide (c.capacity < s.leasedQuantity c.kind))) = .ok true
  := by decide +kernel

/-- What the three histories lead to: a release whose closure is that of another resource, a release
with its own closure, and a lease over the capacity of its kind. -/
theorem runs :
  (journal ["gpu", "disk"] swapped >>= fun journal =>
      release journal >>= fun (segment, _, s, s') =>
        .ok (decide (journal.map Segment.segmentHash).Nodup
          && (s.resources.lookup "r1").any (fun lease => lease.status = .active)
          && (s'.resources.lookup "r1").any (fun lease => lease.status = .released)
          && !segment.events.any (observes "r1"))) = .ok true ∧
  (journal ["gpu", "disk"] plain >>= fun journal =>
      reduceSegments .numbered project journal >>= fun s =>
        .ok (decide (journal.map Segment.segmentHash).Nodup
          && (s.resources.lookup "r1").any (fun lease => lease.status = .released)
          && s.graph.isSome && decide (s.leasedQuantity "disk" = 1))) = .ok true ∧
  (journal ["gpu"] oversized >>= fun journal =>
      reduceSegments .numbered project journal >>= fun s =>
        .ok (decide (journal.map Segment.segmentHash).Nodup
          && s.graph.any fun g => g.spec.resourceCapacities.any fun c =>
            decide (c.capacity < s.leasedQuantity c.kind))) = .ok true
  := ⟨swapped_run, own_run, oversized_run⟩

end SampleLeases

open SampleLeases in
/-- A resource is released without an observation of its closure: the journal reads the observation
of a history as one of another resource. -/
theorem resource_released_without_closure :
  ¬ ∀ (p : Platform) (projectId : String) (w : World) (id : String),
    Reachable p projectId (fun _ _ => True) w → CollisionFree w.journal →
    ∀ segment event s s', Moment p projectId w.journal segment event s s' →
      s.ResourceIs id .active → s'.ResourceIs id .released →
      ∃ receipt at_, .resourceClosureObserved id .confirmed receipt at_ ∈ segment.events
  := by
  intro always
  have run := runs.1
  simp only [bind_eq_ok, Except.ok.injEq, Bool.and_eq_true, decide_eq_true_eq, Option.any_eq_true,
    Bool.not_eq_true', List.any_eq_false] at run
  obtain ⟨journal', committed, ⟨segment, event, s, s'⟩, around,
    ⟨⟨free, lease, known, active⟩, lease', known', released⟩, unobserved⟩ := run
  obtain ⟨receipt, at_, observed⟩ := always .numbered project (World.initial journal' 0) "r1"
    (reachable committed) free segment event s s' (release_moment around)
    ⟨lease, known, active⟩ ⟨lease', known', released⟩
  exact unobserved _ observed rfl

/-- The history without the further members is imported, its first resource is released with its
closure, and its second one stays active. -/
theorem SampleLeases.plain_run :
  ∃ journal' s g, Reachable .numbered project (fun _ call => call.Faithful)
      (World.initial journal' 0) ∧ CollisionFree journal' ∧
    reduceSegments .numbered project journal' = .ok s ∧ s.ResourceIs "r1" .released ∧
    s.graph = some g ∧ s.leasedQuantity "disk" = 1
  := by
  have run := runs.2.1
  simp only [bind_eq_ok, Except.ok.injEq, Bool.and_eq_true, decide_eq_true_eq, Option.any_eq_true,
    Option.isSome_iff_exists] at run
  obtain ⟨journal', committed, s, loaded, ⟨⟨free, lease, known, released⟩, g, graph⟩, leased⟩ := run
  exact ⟨journal', s, g, reachable_of_single (by decide) committed, free, loaded,
    ⟨lease, known, released⟩, graph, leased⟩

open SampleLeases in
/-- The laws of releases, after a history in which a resource was released with its closure. -/
theorem resources_released_once_closed :
  ∃ w, Reachable .numbered project (fun _ call => call.Faithful) w ∧ CollisionFree w.journal ∧
    (∃ s, reduceSegments .numbered project w.journal = .ok s ∧ s.ResourceIs "r1" .released) ∧
    ∀ segment event s s', Moment .numbered project w.journal segment event s s' →
      s.ResourceIs "r1" .released → s'.ResourceIs "r1" .released
  := by
  obtain ⟨journal', s, g, reachable, free, loaded, released, -, -⟩ := plain_run
  exact ⟨_, reachable, free, ⟨s, loaded, released⟩, (resources_released_once reachable free "r1").2.1⟩

/-! ### Capacities -/

/-- The leases of a run with faithful imports stay within the capacities. -/
theorem Reachable.within
    {s : State} (reachable : Reachable p projectId (fun _ call => call.Faithful) w)
    (free : CollisionFree w.journal) (loaded : reduceSegments p projectId w.journal = .ok s) :
  s.Within
  := by
  have start : (State.new projectId).Within := by
    constructor
    · simp [State.new]
    · intro kind
      exact le_refl _
  have empty : reduceSegments p projectId [] = .ok (State.new projectId) := rfl
  refine moments_invariant State.Within (fun _ _ h => h.congr rfl fun _ => le_refl _) ?_ start
    empty List.nil_prefix (List.prefix_refl _) loaded
  intro segment event s s' moment within
  have sanctioned := reachable.sanctioned free moment
  have filed := moment.runsFiled
  obtain ⟨-, -, -, -, -, -, -, -, -, applied⟩ := moment
  exact within_of_sanctioned filed within sanctioned applied

/-- The active leases of a kind. -/
def State.activeLeases (s : State) (kind : String) : List ResourceLease :=
  s.resources.values.filter fun lease => decide (lease.status = .active) && lease.kind = kind

/-- The sum of quantities in 64-bit arithmetic, in the order of the list. -/
def sumInt64 (leases : List ResourceLease) : Int64 :=
  leases.foldl (fun total lease => total + Int64.ofInt lease.quantity) 0

/-- Leases with positive quantities take nothing less than nothing together. -/
theorem leasedOf_nonneg
    {leases : List ResourceLease} (positive : ∀ lease ∈ leases, 0 < lease.quantity) (kind : String) :
  0 ≤ leasedOf kind leases
  := by
  induction leases with
  | nil => exact le_refl _
  | cons lease rest ih =>
      rw [List.forall_mem_cons] at positive
      have first := ResourceLease.takes_nonneg positive.1 kind
      have more := ih positive.2
      rw [leasedOf_cons]
      omega

/-- The order of the leases does not change what they take. -/
theorem leasedOf_perm
    {leases leases' : List ResourceLease} (same : leases.Perm leases') (kind : String) :
  leasedOf kind leases = leasedOf kind leases'
  := by
  induction same with
  | nil => rfl
  | cons lease _ ih => rw [leasedOf_cons, leasedOf_cons, ih]
  | swap lease lease' rest =>
      simp only [leasedOf_cons]
      omega
  | trans _ _ ih ih' => exact ih.trans ih'

/-- The active leases of a kind take what all leases take of it. -/
theorem State.leasedOf_activeLeases
    (s : State) (kind : String) :
  leasedOf kind (s.activeLeases kind) = s.leasedQuantity kind
  := by
  rw [State.leasedQuantity_eq, State.activeLeases]
  induction s.resources.values with
  | nil => rfl
  | cons lease rest ih =>
      by_cases active : lease.status = .active ∧ lease.kind = kind
      · rw [List.filter_cons_of_pos (by simpa using active), leasedOf_cons, leasedOf_cons, ih]
      · rw [List.filter_cons_of_neg (by simpa using active), leasedOf_cons, ih]
        simp [ResourceLease.takes, active]

/-- A sum of positive quantities that ends within 64 bits is within them all along. -/
theorem foldl_int64
    {leases : List ResourceLease} {kind : String} {start : Int64}
    (positive : ∀ lease ∈ leases, 0 < lease.quantity) (nonneg : 0 ≤ start.toInt)
    (fits : start.toInt + leasedOf kind leases < 2 ^ 63)
    (active : ∀ lease ∈ leases, lease.status = .active ∧ lease.kind = kind) :
  (leases.foldl (fun (total : Int64) lease => total + Int64.ofInt lease.quantity) start).toInt =
    start.toInt + leasedOf kind leases
  := by
  induction leases generalizing start with
  | nil => simp
  | cons lease rest ih =>
      rw [List.forall_mem_cons] at positive active
      simp only [leasedOf_cons, ResourceLease.takes, active.1, and_self, if_true] at fits ⊢
      have more := leasedOf_nonneg positive.2 kind
      have first : (start + Int64.ofInt lease.quantity).toInt = start.toInt + lease.quantity := by
        rw [Int64.toInt_add, Int64.toInt_ofInt_of_le (by omega) (by omega)]
        exact Int.bmod_eq_of_le (by omega) (by omega)
      rw [List.foldl_cons, ih positive.2 (by rw [first]; omega) (by rw [first]; omega) active.2, first]
      omega

/-- The capacity of a declared kind is the declared one. -/
theorem GraphDefinition.Valid.capacity_eq
    {g : GraphDefinition} (valid : g.Valid) {c : ResourceCapacity}
    (mem : c ∈ g.spec.resourceCapacities) :
  g.spec.capacity c.kind = c.capacity
  := by
  have capacities := valid.capacities
  simp only [validateCapacities, check_eq_ok, Bool.and_eq_true, decide_eq_true_eq] at capacities
  unfold GraphSpec.capacity
  cases found : g.spec.resourceCapacities.find? fun c' => c'.kind = c.kind with
  | none =>
      rw [List.find?_eq_none] at found
      exact absurd (decide_eq_true rfl) (found c mem)
  | some c' =>
      have same : c'.kind = c.kind := by simpa using List.find?_some found
      have one : c' = c :=
        List.inj_on_of_nodup_map capacities.2 (List.mem_of_find?_eq_some found) mem same
      rw [one]

/-- In every state that a run with faithful imports leads to, the active leases of a kind together
take at most its declared capacity, and in 64-bit arithmetic their sum does not wrap, in whichever
order it is taken. -/
theorem resources_within_capacity
    {s : State} (reachable : Reachable p projectId (fun _ call => call.Faithful) w)
    (free : CollisionFree w.journal) (loaded : reduceSegments p projectId w.journal = .ok s) :
  ∀ g, s.graph = some g → ∀ c ∈ g.spec.resourceCapacities,
    s.leasedQuantity c.kind ≤ c.capacity ∧
    (c.capacity < 2 ^ 63 → ∀ leases, leases.Perm (s.activeLeases c.kind) →
      (sumInt64 leases).toInt = s.leasedQuantity c.kind)
  := by
  intro g graph c mem
  have within := reachable.within free loaded
  have valid := valid_of_validateGraph (reachable.validGraph (List.prefix_refl _) loaded graph)
  have fits : s.leasedQuantity c.kind ≤ c.capacity := by
    have fits := within.fits c.kind
    simp only [Lifecycle.resourceCapacity, graph, valid.capacity_eq mem] at fits
    exact fits
  refine ⟨fits, ?_⟩
  intro int64 leases same
  have taken := (leasedOf_perm same c.kind).trans (s.leasedOf_activeLeases c.kind)
  have listed : ∀ lease ∈ leases, lease ∈ s.resources.values ∧
      lease.status = .active ∧ lease.kind = c.kind := by
    intro lease mem
    have found := same.subset mem
    simp only [State.activeLeases, List.mem_filter, Bool.and_eq_true, decide_eq_true_eq] at found
    exact found
  have active : ∀ lease ∈ leases, lease.status = .active ∧ lease.kind = c.kind :=
    fun lease mem => (listed lease mem).2
  have zero : (0 : Int64).toInt = 0 := rfl
  have sum := @foldl_int64 leases c.kind 0 ?_ (le_of_eq zero.symm) ?_ active
  · rw [sumInt64, sum, taken]
    simp
  · intro lease mem
    obtain ⟨id, known⟩ := Table.mem_values_iff.mp (listed lease mem).1
    exact within.positive id lease known
  · omega

open SampleLeases in
/-- A lease of a history exceeds the capacity of its kind: the journal reads another quantity than
the importer. -/
theorem resources_exceed_capacity :
  ¬ ∀ (p : Platform) (projectId : String) (w : World) (s : State),
    Reachable p projectId (fun _ _ => True) w → CollisionFree w.journal →
    reduceSegments p projectId w.journal = .ok s →
    ∀ g, s.graph = some g → ∀ c ∈ g.spec.resourceCapacities, s.leasedQuantity c.kind ≤ c.capacity
  := by
  intro always
  have run := runs.2.2
  simp only [bind_eq_ok, Except.ok.injEq, Bool.and_eq_true, decide_eq_true_eq, Option.any_eq_true,
    List.any_eq_true] at run
  obtain ⟨journal', committed, s, loaded, free, g, graph, c, mem, exceeded⟩ := run
  have fits := always .numbered project _ s (reachable committed) free loaded g graph c mem
  omega

open SampleLeases in
/-- The law of capacities, after a history with an active lease. -/
theorem resources_within_capacity_leased :
  ∃ w s g, Reachable .numbered project (fun _ call => call.Faithful) w ∧
    reduceSegments .numbered project w.journal = .ok s ∧ s.graph = some g ∧
    s.leasedQuantity "disk" = 1 ∧
    ∀ c ∈ g.spec.resourceCapacities, s.leasedQuantity c.kind ≤ c.capacity
  := by
  obtain ⟨journal', s, g, reachable, free, loaded, -, graph, leased⟩ := plain_run
  exact ⟨_, s, g, reachable, loaded, graph, leased,
    fun c mem => (resources_within_capacity reachable free loaded g graph c mem).1⟩

end Dagrail
