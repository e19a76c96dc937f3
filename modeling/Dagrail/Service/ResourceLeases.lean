import Dagrail.Service.SkippedSources
import Dagrail.Service.LifecycleRefinement

/-!
# Resource leases along runs

A start leases the resources its node asks for, a confirmed closure releases a resource, and no
other command does. The leases of a kind never exceed the capacity the graph declares for it.

Both laws come from one description of the events that write resources: what is known of such an
event and of the state it is applied to, whichever call has written it.
-/

namespace Dagrail

/-! ### Sums of leases -/

/-- What a lease takes of the resource kind. -/
def ResourceLease.takes (kind : String) (lease : ResourceLease) : Int :=
  if lease.status = .active ∧ lease.kind = kind then lease.quantity else 0

/-- What the leases of a list take of a kind. -/
def leasedOf (kind : String) (leases : List ResourceLease) : Int :=
  leases.foldr (fun lease total => lease.takes kind + total) 0

@[simp]
theorem leasedOf_nil
    (kind : String) :
  leasedOf kind [] = 0
  := rfl

@[simp]
theorem leasedOf_cons
    (kind : String) (lease : ResourceLease) (leases : List ResourceLease) :
  leasedOf kind (lease :: leases) = lease.takes kind + leasedOf kind leases
  := rfl

@[simp]
theorem leasedOf_append
    (kind : String) (leases leases' : List ResourceLease) :
  leasedOf kind (leases ++ leases') = leasedOf kind leases + leasedOf kind leases'
  := by
  induction leases with
  | nil => simp
  | cons lease rest ih => simp [ih, Int.add_assoc]

/-- The leased quantity of a state is what its leases take. -/
theorem State.leasedQuantity_eq
    (s : State) (kind : String) :
  s.leasedQuantity kind = leasedOf kind s.resources.values
  := by
  have from_ : ∀ (leases : List ResourceLease) (start : Int),
      (leases.filter fun lease => decide (lease.status = .active) && lease.kind = kind).foldl
        (fun total lease => total + lease.quantity) start = start + leasedOf kind leases := by
    intro leases
    induction leases with
    | nil => simp
    | cons lease rest ih =>
        intro start
        by_cases active : lease.status = .active ∧ lease.kind = kind
        · simp [active, ih, ResourceLease.takes, Int.add_assoc]
        · rw [List.filter_cons_of_neg (by simpa using active), ih]
          simp [ResourceLease.takes, active]
  rw [leasedQuantity, from_, Int.zero_add]

/-- Writing a new lease adds what it takes. -/
theorem leasedOf_insert_new
    {t : Table ResourceLease} {id : String} (new : t.has id = false) (lease : ResourceLease)
    (kind : String) :
  leasedOf kind (Table.values (t.insert id lease)) =
    lease.takes kind + leasedOf kind (Table.values t)
  := by
  rw [Table.values_insert_new new, leasedOf_cons]

/-- Writing a known lease exchanges what it takes. -/
theorem leasedOf_insert_known
    {t : Table ResourceLease} {id : String} {old : ResourceLease} (known : t.lookup id = some old)
    (lease : ResourceLease) (kind : String) :
  old.takes kind + leasedOf kind (Table.values (t.insert id lease)) =
    lease.takes kind + leasedOf kind (Table.values t)
  := by
  obtain ⟨front, back, before, after⟩ := Table.values_insert_known known lease
  rw [before, after]
  simp only [leasedOf_cons, leasedOf_append]
  omega

/-! ### Leases and attempts under their own ids -/

/-- Resource leases and attempts are filed under their own ids. -/
structure RunsFiled (s : State) : Prop where
  resources : ∀ id lease, s.resources.lookup id = some lease → lease.id = id
  attempts : ∀ id attempt, s.attempts.lookup id = some attempt → attempt.id = id

/-- One write under its own id keeps a table of leases filed. -/
theorem filed_insert
    {β : Type} {t : Table β} {name : β → String}
    (filed : ∀ id b, t.lookup id = some b → name b = id) (b : β) :
  ∀ id b', (t.insert (name b) b).lookup id = some b' → name b' = id
  := by
  intro id b' found
  rw [Table.lookup_insert] at found
  split at found
  · obtain rfl := Option.some.inj found
    exact Eq.symm ‹_›
  · exact filed id b' found

/-- Releasing resources keeps them filed. -/
theorem State.releaseResources_filed
    {s : State} (filed : RunsFiled s) (attemptId : String) (at_ : Stamp) :
  RunsFiled (s.releaseResources attemptId at_)
  := by
  refine ⟨?_, filed.attempts⟩
  intro id lease found
  simp only [releaseResources, Table.lookup_mapValues, Option.map_eq_some_iff] at found
  obtain ⟨old, known, rfl⟩ := found
  split
  · exact filed.resources id old known
  · exact filed.resources id old known

/-- An attempt that is closed because its node is superseded. -/
def Attempt.superseded (attempt : Attempt) (at_ : Stamp) : Attempt :=
  { attempt with status := .terminal, outcome := "superseded", updatedAt := at_ }

/-- Superseding a node writes nodes, and it may close the last attempt of the node with its
resources. -/
theorem State.supersedeNode_cases
    (s : State) (at_ : Stamp) (nodeId : String) :
  ∃ nodes, supersedeNode at_ s nodeId = { s with nodes } ∨
    ∃ attempt, s.latestAttempt nodeId = some attempt ∧
      supersedeNode at_ s nodeId = releaseResources
        { s with nodes, attempts := s.attempts.insert attempt.id (attempt.superseded at_) }
        attempt.id at_
  := by
  have last : ∀ nodes, State.latestAttempt { s with nodes } nodeId = s.latestAttempt nodeId :=
    fun _ => rfl
  unfold supersedeNode
  cases s.nodes.lookup nodeId with
  | none =>
      refine ⟨s.nodes, ?_⟩
      dsimp only
      cases found : s.latestAttempt nodeId with
      | none => exact Or.inl rfl
      | some attempt =>
          dsimp only
          split
          · exact Or.inl rfl
          · exact Or.inr ⟨attempt, rfl, rfl⟩
  | some runtime =>
      refine ⟨s.nodes.insert nodeId { runtime with status := .superseded }, ?_⟩
      dsimp only
      rw [last]
      cases found : s.latestAttempt nodeId with
      | none => exact Or.inl rfl
      | some attempt =>
          dsimp only
          split
          · exact Or.inl rfl
          · exact Or.inr ⟨attempt, rfl, rfl⟩

/-- Superseding a node keeps leases and attempts filed. -/
theorem State.supersedeNode_filed
    {s : State} (filed : RunsFiled s) (at_ : Stamp) (nodeId : String) :
  RunsFiled (supersedeNode at_ s nodeId)
  := by
  obtain ⟨nodes, same | ⟨attempt, -, closed⟩⟩ := supersedeNode_cases s at_ nodeId
  · rw [same]
    exact ⟨filed.resources, filed.attempts⟩
  · rw [closed]
    apply releaseResources_filed
    exact ⟨filed.resources, filed_insert filed.attempts (attempt.superseded at_)⟩

/-- Every event keeps leases and attempts filed. -/
theorem State.applyEvent_runsFiled
    {p : Platform} {s s' : State} {n : Nat} {at_ : Stamp} {event : Event} (filed : RunsFiled s)
    (h : s.applyEvent p n at_ event = .ok s') :
  RunsFiled s'
  := by
  have frame := applyEvent_frame h
  cases event with
  | graphRevised graph revision previous superseded impact =>
      obtain rfl := Except.ok.inj h
      unfold reviseGraph
      have kept : ∀ (ids : List String) (s : State), RunsFiled s →
          RunsFiled (ids.foldl (supersedeNode at_) s) := by
        intro ids
        induction ids with
        | nil => exact fun s h => h
        | cons id rest ih => exact fun s h => ih _ (supersedeNode_filed h at_ id)
      exact kept superseded _ ⟨filed.resources, filed.attempts⟩
  | graphImported =>
      obtain rfl := Except.ok.inj h
      exact ⟨filed.resources, filed.attempts⟩
  | attemptStarted attempt | attemptLeased attempt =>
      obtain rfl := Except.ok.inj h
      exact ⟨filed.resources, filed_insert filed.attempts attempt⟩
  | attemptCheckpointed checkpoint =>
      obtain rfl := Except.ok.inj h
      exact ⟨filed.resources, filed_insert filed.attempts
        { s.attempts.get checkpoint.attemptId with
          checkpointId := checkpoint.id, updatedAt := checkpoint.createdAt }⟩
  | attemptStatusChanged attemptId status updatedAt =>
      obtain rfl := Except.ok.inj h
      exact ⟨filed.resources, filed_insert filed.attempts
        { s.attempts.get attemptId with status, updatedAt }⟩
  | attemptFinished attemptId outcome outcomeClass facts updatedAt =>
      obtain rfl := Except.ok.inj h
      exact ⟨filed.resources, filed_insert filed.attempts
        { s.attempts.get attemptId with status := .terminal, outcome, updatedAt }⟩
  | nodeAutoCompleted | nodeAutoSkipped =>
      obtain ⟨-, rfl⟩ := settleNode_ok h
      exact ⟨filed.resources, filed.attempts⟩
  | resourceLeased lease =>
      obtain rfl := Except.ok.inj h
      exact ⟨filed_insert filed.resources lease, filed.attempts⟩
  | resourceClosureObserved resourceId status receipt updatedAt =>
      obtain ⟨lease, -, -, rfl⟩ := observeClosure_ok h
      exact ⟨filed_insert filed.resources
        { lease with
          closureStatus := status, closureReceipt := receipt, closureUpdatedAt := updatedAt },
        filed.attempts⟩
  | resourceReleased resourceId releasedAt =>
      obtain ⟨lease, -, -, rfl⟩ := releaseResource_ok h
      exact ⟨filed_insert filed.resources
        { lease with status := .released, releasedAt }, filed.attempts⟩
  | _ =>
      have resources := frame.resources rfl
      have attempts := (frame.runs rfl).2.1
      exact ⟨by rw [resources]; exact filed.resources, by rw [attempts]; exact filed.attempts⟩

/-- In every replayed state leases and attempts are filed under their own ids. -/
theorem runsFiled_of_reduceSegments
    {p : Platform} {projectId : String} {segments : List Segment} {s : State}
    (loaded : reduceSegments p projectId segments = .ok s) :
  RunsFiled s
  := by
  refine reduceSegmentsFrom_invariant (P := RunsFiled) ?_ ?_ ?_ loaded
  · intro sequence committedAt s event s' filed h
    exact State.applyEvent_runsFiled filed h
  · intro segment s filed
    exact ⟨filed.resources, filed.attempts⟩
  · exact ⟨by simp [State.new], by simp [State.new]⟩

/-! ### Sanctioned events -/

/-- No resource of the attempt is active. -/
def State.NoActive (s : State) (attemptId : String) : Prop :=
  ∀ id lease, s.resources.lookup id = some lease → lease.attemptId = attemptId →
    lease.status ≠ .active

/-- What is known of an event that writes resources or brings a graph: of the batch it is in, and of
the state it is applied to. -/
def Event.Sanctioned (batch : List Event) (s : State) : Event → Prop
  | .graphImported graph _ _ => s.graph = none ∧ graph.Valid
  | .graphRevised graph _ _ superseded _ =>
      graph.spec.resourceCapacities = (s.graph.getD .zero).spec.resourceCapacities ∧
      ∀ nodeId ∈ superseded, ∀ attempt, s.latestAttempt nodeId = some attempt →
        s.NoActive attempt.id
  | .resourceLeased lease =>
      s.resources.has lease.id = false ∧ lease.status = .active ∧ 0 < lease.quantity ∧
        s.leasedQuantity lease.kind + lease.quantity ≤ Lifecycle.resourceCapacity s lease.kind
  | .resourceReleased id _ =>
      ∃ receipt at_, .resourceClosureObserved id .confirmed receipt at_ ∈ batch
  | _ => True

/-- Releasing the resources of an attempt without active ones changes nothing. -/
theorem State.releaseResources_of_noActive
    {s : State} {attemptId : String} (none_ : s.NoActive attemptId) (at_ : Stamp) :
  s.releaseResources attemptId at_ = s
  := by
  have same : s.resources.mapValues (fun lease =>
      if lease.attemptId = attemptId ∧ lease.status = .active then
        { lease with status := .released, releasedAt := at_ }
      else lease) = s.resources := by
    apply AList.ext
    simp only [Table.mapValues]
    conv_rhs => rw [← List.map_id s.resources.entries]
    apply List.map_congr_left
    rintro ⟨id, lease⟩ mem
    have idle : ¬ (lease.attemptId = attemptId ∧ lease.status = .active) := by
      rintro ⟨own, active⟩
      exact none_ id lease (AList.mem_lookup_iff.mpr mem) own active
    simp [idle]
  unfold releaseResources
  rw [same]

/-- What superseding nodes without active resources keeps of a state. -/
structure State.SameRuns (s s' : State) : Prop where
  filed : RunsFiled s'
  resources : s'.resources = s.resources
  nodeAttempts : s'.nodeAttempts = s.nodeAttempts
  attempts : ∀ id, s'.attempts.has id = s.attempts.has id

/-- The last attempt of a node keeps its id. -/
theorem State.SameRuns.latestAttempt
    {s s' : State} (same : s.SameRuns s') (filed : RunsFiled s) {nodeId : String}
    {attempt : Attempt} (last : s'.latestAttempt nodeId = some attempt) :
  ∃ attempt', s.latestAttempt nodeId = some attempt' ∧ attempt'.id = attempt.id
  := by
  simp only [State.latestAttempt, same.nodeAttempts, Option.bind_eq_some_iff] at last ⊢
  obtain ⟨id, ofNode, known⟩ := last
  have has : s.attempts.has id = true := by
    rw [← same.attempts id]
    exact Table.has_iff.mpr ⟨attempt, known⟩
  obtain ⟨attempt', known'⟩ := Table.has_iff.mp has
  refine ⟨attempt', ⟨id, ofNode, known'⟩, ?_⟩
  rw [filed.attempts id attempt' known', same.filed.attempts id attempt known]

/-- Superseding a node whose last attempt has no active resource keeps the resources. -/
theorem State.SameRuns.supersedeNode
    {s s' : State} (same : s.SameRuns s') (filed : RunsFiled s) {nodeId : String}
    (none_ : ∀ attempt, s.latestAttempt nodeId = some attempt → s.NoActive attempt.id)
    (at_ : Stamp) :
  s.SameRuns (State.supersedeNode at_ s' nodeId)
  := by
  have filed' := supersedeNode_filed same.filed at_ nodeId
  obtain ⟨nodes, written | ⟨attempt, last, closed⟩⟩ := supersedeNode_cases s' at_ nodeId
  · rw [written] at filed' ⊢
    exact ⟨filed', same.resources, same.nodeAttempts, same.attempts⟩
  · obtain ⟨attempt', last', id⟩ := same.latestAttempt filed last
    have idle : s'.NoActive attempt.id := by
      rw [← id]
      unfold NoActive
      rw [same.resources]
      exact none_ attempt' last'
    let open_ : State :=
      { s' with nodes, attempts := s'.attempts.insert attempt.id (attempt.superseded at_) }
    have idle_ : open_.NoActive attempt.id := idle
    have unchanged : State.supersedeNode at_ s' nodeId = open_ :=
      closed.trans (releaseResources_of_noActive idle_ at_)
    rw [unchanged] at filed' ⊢
    refine ⟨filed', same.resources, same.nodeAttempts, ?_⟩
    intro k
    have known : s'.attempts.has attempt.id = true := by
      simp only [State.latestAttempt, Option.bind_eq_some_iff] at last
      obtain ⟨id', -, found⟩ := last
      rw [same.filed.attempts id' attempt found]
      exact Table.has_iff.mpr ⟨attempt, found⟩
    rw [← same.attempts k]
    simp only [open_, Table.has_insert]
    by_cases eq : k = attempt.id
    · simp [eq, known]
    · simp [eq]

/-- A sanctioned revision keeps the resources. -/
theorem State.reviseGraph_resources
    {s : State} {graph : GraphDefinition} {revision : String} {superseded : List String}
    (filed : RunsFiled s)
    (none_ : ∀ nodeId ∈ superseded, ∀ attempt, s.latestAttempt nodeId = some attempt →
      s.NoActive attempt.id) (at_ : Stamp) :
  (s.reviseGraph graph revision superseded at_).resources = s.resources
  := by
  have kept : ∀ (ids : List String) (s' : State), (∀ id ∈ ids, id ∈ superseded) →
      s.SameRuns s' → s.SameRuns (ids.foldl (State.supersedeNode at_) s') := by
    intro ids
    induction ids with
    | nil => exact fun _ _ same => same
    | cons id rest ih =>
        intro s' listed same
        rw [List.forall_mem_cons] at listed
        exact ih _ listed.2 (same.supersedeNode filed (none_ id listed.1) at_)
  have start : s.SameRuns
      { s with
        graph := some graph
        graphRevision := revision
        nodes := revisedNodes s.nodes graph } :=
    ⟨⟨filed.resources, filed.attempts⟩, rfl, rfl, fun _ => rfl⟩
  exact (kept superseded _ (fun _ mem => mem) start).resources

/-! ### What a sanctioned event does -/

variable {p : Platform} {s s' : State} {n : Nat} {at_ : Stamp} {event : Event}
  {batch : List Event}

/-- A resource has the status. -/
def State.ResourceIs (s : State) (id : String) (status : ResourceStatus) : Prop :=
  ∃ lease, s.resources.lookup id = some lease ∧ lease.status = status

/-- A sanctioned event leaves an active resource active, unless it is its release. -/
theorem active_of_sanctioned
    (filed : RunsFiled s) (sanctioned : event.Sanctioned batch s)
    (h : s.applyEvent p n at_ event = .ok s') {id : String} (active : s.ResourceIs id .active) :
  s'.ResourceIs id .active ∨ ∃ releasedAt, event = .resourceReleased id releasedAt
  := by
  obtain ⟨lease, known, active⟩ := active
  cases event with
  | graphRevised graph revision previous superseded impact =>
      obtain rfl := Except.ok.inj h
      left
      refine ⟨lease, ?_, active⟩
      rw [State.reviseGraph_resources filed sanctioned.2]
      exact known
  | resourceLeased new =>
      obtain rfl := Except.ok.inj h
      left
      have other : id ≠ new.id := by
        rintro rfl
        have fresh := sanctioned.1
        simp [Table.has, known] at fresh
      exact ⟨lease, by rw [Table.lookup_insert, if_neg other]; exact known, active⟩
  | resourceClosureObserved resourceId status receipt updatedAt =>
      obtain ⟨seen, known', active', rfl⟩ := State.observeClosure_ok h
      left
      by_cases same : id = seen.id
      · exact ⟨{ seen with
          closureStatus := status, closureReceipt := receipt, closureUpdatedAt := updatedAt },
          by rw [Table.lookup_insert, if_pos same], active'⟩
      · exact ⟨lease, by rw [Table.lookup_insert, if_neg same]; exact known, active⟩
  | resourceReleased resourceId releasedAt =>
      obtain ⟨closed, known', -, rfl⟩ := State.releaseResource_ok h
      by_cases same : id = closed.id
      · right
        rw [same, filed.resources resourceId closed known']
        exact ⟨releasedAt, rfl⟩
      · left
        exact ⟨lease, by rw [Table.lookup_insert, if_neg same]; exact known, active⟩
  | _ =>
      left
      exact ⟨lease, by rw [(State.applyEvent_frame h).resources rfl]; exact known, active⟩

/-- A sanctioned event leaves a released resource released. -/
theorem released_of_sanctioned
    (filed : RunsFiled s) (sanctioned : event.Sanctioned batch s)
    (h : s.applyEvent p n at_ event = .ok s') {id : String} (released : s.ResourceIs id .released) :
  s'.ResourceIs id .released
  := by
  obtain ⟨lease, known, released⟩ := released
  cases event with
  | graphRevised graph revision previous superseded impact =>
      obtain rfl := Except.ok.inj h
      refine ⟨lease, ?_, released⟩
      rw [State.reviseGraph_resources filed sanctioned.2]
      exact known
  | resourceLeased new =>
      obtain rfl := Except.ok.inj h
      have other : id ≠ new.id := by
        rintro rfl
        have fresh := sanctioned.1
        simp [Table.has, known] at fresh
      exact ⟨lease, by rw [Table.lookup_insert, if_neg other]; exact known, released⟩
  | resourceClosureObserved resourceId status receipt updatedAt =>
      obtain ⟨seen, known', active, rfl⟩ := State.observeClosure_ok h
      have other : id ≠ seen.id := by
        rintro rfl
        rw [filed.resources resourceId seen known', known'] at known
        obtain rfl := Option.some.inj known
        rw [active] at released
        exact absurd released (by decide)
      exact ⟨lease, by rw [Table.lookup_insert, if_neg other]; exact known, released⟩
  | resourceReleased resourceId releasedAt =>
      obtain ⟨closed, -, -, rfl⟩ := State.releaseResource_ok h
      by_cases same : id = closed.id
      · exact ⟨_, by rw [Table.lookup_insert, if_pos same], rfl⟩
      · exact ⟨lease, by rw [Table.lookup_insert, if_neg same]; exact known, released⟩
  | _ => exact ⟨lease, by rw [(State.applyEvent_frame h).resources rfl]; exact known, released⟩

/-! ### Capacities -/

/-- A lease takes nothing less than nothing. -/
theorem ResourceLease.takes_nonneg
    {lease : ResourceLease} (positive : 0 < lease.quantity) (kind : String) :
  0 ≤ lease.takes kind
  := by
  unfold takes
  split
  · exact le_of_lt positive
  · exact le_refl _

/-- The capacities of a valid graph are not negative. -/
theorem GraphDefinition.Valid.capacity_nonneg
    {g : GraphDefinition} (valid : g.Valid) (kind : String) :
  0 ≤ g.spec.capacity kind
  := by
  have capacities := valid.capacities
  simp only [validateCapacities, check_eq_ok, Bool.and_eq_true, List.all_eq_true,
    decide_eq_true_eq] at capacities
  unfold GraphSpec.capacity
  cases found : g.spec.resourceCapacities.find? fun c => c.kind = kind with
  | none => exact le_refl _
  | some c => exact le_of_lt (capacities.1 c (List.mem_of_find?_eq_some found)).2

/-- Leases have positive quantities, and those of a kind together do not exceed its capacity. -/
structure State.Within (s : State) : Prop where
  positive : ∀ id lease, s.resources.lookup id = some lease → 0 < lease.quantity
  fits : ∀ kind, s.leasedQuantity kind ≤ Lifecycle.resourceCapacity s kind

/-- The leases do not exceed the capacities of a state with the same leases and no smaller
capacities. -/
theorem State.Within.congr
    (within : s.Within) (resources : s'.resources = s.resources)
    (capacity : ∀ kind, Lifecycle.resourceCapacity s kind ≤ Lifecycle.resourceCapacity s' kind) :
  s'.Within
  := by
  constructor
  · rw [resources]
    exact within.positive
  · intro kind
    have fits := within.fits kind
    rw [State.leasedQuantity_eq] at fits ⊢
    rw [resources]
    exact fits.trans (capacity kind)

/-- Writing a lease that takes no more than the one before keeps the leases within capacity. -/
theorem State.Within.insert_known
    {id : String} {old : ResourceLease} (within : s.Within)
    (known : s.resources.lookup id = some old) (new : ResourceLease) (quantity : new.quantity = old.quantity)
    (less : ∀ kind, new.takes kind ≤ old.takes kind)
    (resources : s'.resources = s.resources.insert id new)
    (graph : s'.graph = s.graph) :
  s'.Within
  := by
  constructor
  · intro k lease found
    rw [resources, Table.lookup_insert] at found
    split at found
    · obtain rfl := Option.some.inj found
      rw [quantity]
      exact within.positive id old known
    · exact within.positive k lease found
  · intro kind
    have fits := within.fits kind
    have exchanged := leasedOf_insert_known known new kind
    have less := less kind
    rw [State.leasedQuantity_eq] at fits ⊢
    simp only [Lifecycle.resourceCapacity] at fits ⊢
    rw [resources, graph]
    omega

/-- A sanctioned event keeps the leases within the capacities. -/
theorem within_of_sanctioned
    (filed : RunsFiled s) (within : s.Within) (sanctioned : event.Sanctioned batch s)
    (h : s.applyEvent p n at_ event = .ok s') :
  s'.Within
  := by
  cases event with
  | graphImported graph revision digest =>
      obtain rfl := Except.ok.inj h
      refine within.congr rfl ?_
      intro kind
      simp only [Lifecycle.resourceCapacity, sanctioned.1, State.importGraph]
      exact sanctioned.2.capacity_nonneg kind
  | graphRevised graph revision previous superseded impact =>
      obtain rfl := Except.ok.inj h
      refine within.congr (State.reviseGraph_resources filed sanctioned.2 at_) ?_
      intro kind
      rw [State.reviseGraph_eq]
      simp only [Lifecycle.resourceCapacity, GraphSpec.capacity, sanctioned.1]
      cases s.graph with
      | none => exact le_refl _
      | some g => exact le_refl _
  | resourceLeased lease =>
      obtain rfl := Except.ok.inj h
      obtain ⟨fresh, active, positive, room⟩ := sanctioned
      constructor
      · intro id found known
        rw [Table.lookup_insert] at known
        split at known
        · obtain rfl := Option.some.inj known
          exact positive
        · exact within.positive id found known
      · intro kind
        have fits := within.fits kind
        rw [State.leasedQuantity_eq] at fits room ⊢
        rw [leasedOf_insert_new fresh]
        simp only [Lifecycle.resourceCapacity] at fits room ⊢
        unfold ResourceLease.takes
        split
        · rename_i taken
          rw [← taken.2]
          omega
        · omega
  | resourceClosureObserved resourceId status receipt updatedAt =>
      obtain ⟨seen, known, active, rfl⟩ := State.observeClosure_ok h
      rw [← filed.resources resourceId seen known] at known
      exact within.insert_known known
        { seen with
          closureStatus := status, closureReceipt := receipt, closureUpdatedAt := updatedAt }
        rfl (fun kind => le_refl _) rfl rfl
  | resourceReleased resourceId releasedAt =>
      obtain ⟨closed, known, -, rfl⟩ := State.releaseResource_ok h
      have positive := within.positive resourceId closed known
      rw [← filed.resources resourceId closed known] at known
      refine within.insert_known known { closed with status := .released, releasedAt } rfl
        (fun kind => ?_) rfl rfl
      have nothing : ResourceLease.takes kind { closed with status := .released, releasedAt } = 0 := by
        simp [ResourceLease.takes]
      rw [nothing]
      exact ResourceLease.takes_nonneg positive kind
  | _ =>
      have frame := State.applyEvent_frame h
      refine within.congr (frame.resources rfl) ?_
      intro kind
      simp only [Lifecycle.resourceCapacity, (frame.graph rfl).1]
      exact le_refl _

end Dagrail
