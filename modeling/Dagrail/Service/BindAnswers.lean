import Dagrail.Service.RoleLeases

/-!
# Answers of bindings

What a binding answers is read from the leases: of the state that was loaded first when the key of
the binding is stored already, and of the state that is loaded after the append otherwise. Between a
binding and its answer other calls may have given the role to another session.
-/

namespace Dagrail

/-! ### The newest lease of a role -/

/-- The lease of a role after an event. -/
def Event.leaseOf (roleId : String) (held : Option RoleLease) : Event → Option RoleLease
  | .roleBound lease => if lease.roleId = roleId then some lease else held
  | .roleTransferred transfer =>
      if transfer.next.roleId = roleId then some transfer.next else held
  | .roleReleased released _ =>
      if released = roleId then some { held.getD default with active := false } else held
  | _ => held

/-- Does the event bind, transfer or release the role? -/
def Event.concernsRole (roleId : String) : Event → Bool
  | .roleBound lease => lease.roleId = roleId
  | .roleTransferred transfer => transfer.next.roleId = roleId
  | .roleReleased released _ => released = roleId
  | _ => false

/-- The newest event of a journal that binds, transfers or releases the role. -/
def newestLeaseEvent (journal : List Segment) (roleId : String) : Option Event :=
  (journal.flatMap Segment.events).reverse.find? (Event.concernsRole roleId)

/-- An event changes the lease of a role as it says. -/
theorem State.applyEvent_leaseOf
    {p : Platform} {n : Nat} {at_ : Stamp} {s s' : State} {event : Event} (roleId : String)
    (applied : s.applyEvent p n at_ event = .ok s') :
  s'.leases.lookup roleId = event.leaseOf roleId (s.leases.lookup roleId)
  := by
  cases writes : event.writesLeases with
  | false =>
      rw [(State.applyEvent_frame applied).leases writes]
      cases event <;> first | rfl | simp [Event.writesLeases] at writes
  | true =>
      cases event with
      | roleBound lease =>
          obtain rfl := Except.ok.inj applied
          simp only [Table.lookup_insert, Event.leaseOf, eq_comm (a := roleId)]
      | roleTransferred transfer =>
          obtain rfl := Except.ok.inj applied
          simp only [Table.lookup_insert, Event.leaseOf, eq_comm (a := roleId)]
      | roleReleased released releasedAt =>
          obtain rfl := Except.ok.inj applied
          rw [State.releaseRole, Table.lookup_insert, Event.leaseOf]
          by_cases same : roleId = released
          · subst same
            rw [if_pos rfl, if_pos rfl]
            rfl
          · rw [if_neg same, if_neg (Ne.symm same)]
      | _ => simp [Event.writesLeases] at writes

/-- So does an event under the fence checks. -/
theorem Replay.applyEvent_leaseOf
    {p : Platform} {segment : Segment} {r r' : Replay} {event : Event} (roleId : String)
    (applied : r.applyEvent p segment event = .ok r') :
  r'.state.leases.lookup roleId = event.leaseOf roleId (r.state.leases.lookup roleId)
  := by
  cases event
  case authorityEstablished e =>
    simp only [applyEvent, bind_eq_ok, check_eq_ok, Except.ok.injEq] at applied
    obtain ⟨_, -, _, -, rfl⟩ := applied
    rfl
  case authorityRetired e =>
    simp only [applyEvent, bind_eq_ok, check_eq_ok, Except.ok.injEq] at applied
    obtain ⟨_, -, _, -, rfl⟩ := applied
    rfl
  all_goals
    simp only [applyEvent, bind_eq_ok, Except.ok.injEq] at applied
    obtain ⟨s, step, rfl⟩ := applied
    exact State.applyEvent_leaseOf roleId step

/-- The lease of a role after a replay is what the events of the journal say, one after the
other. -/
theorem lookup_leases_of_reduceSegments
    {p : Platform} {projectId : String} {journal : List Segment} {s : State} (roleId : String)
    (loaded : reduceSegments p projectId journal = .ok s) :
  s.leases.lookup roleId = (journal.flatMap Segment.events).foldl (Event.leaseOf roleId) none
  := by
  have events : ∀ (segment : Segment) (events : List Event) (r r' : Replay),
      events.foldlM (Replay.applyEvent p segment) r = .ok r' →
      r'.state.leases.lookup roleId
        = events.foldl (Event.leaseOf roleId) (r.state.leases.lookup roleId) := by
    intro segment events
    induction events with
    | nil =>
        intro r r' applied
        obtain rfl := Except.ok.inj applied
        rfl
    | cons event rest ih =>
        intro r r' applied
        rw [List.foldlM_cons, bind_eq_ok] at applied
        obtain ⟨r₁, first, later⟩ := applied
        rw [ih r₁ r' later, Replay.applyEvent_leaseOf roleId first]
        rfl
  have segments : ∀ (journal : List Segment) (r r' : Replay),
      journal.foldlM (Replay.applySegment p) r = .ok r' →
      r'.state.leases.lookup roleId
        = (journal.flatMap Segment.events).foldl (Event.leaseOf roleId)
            (r.state.leases.lookup roleId) := by
    intro journal
    induction journal with
    | nil =>
        intro r r' applied
        obtain rfl := Except.ok.inj applied
        rfl
    | cons segment rest ih =>
        intro r r' applied
        rw [List.foldlM_cons, bind_eq_ok] at applied
        obtain ⟨r₁, first, later⟩ := applied
        simp only [Replay.applySegment, bind_eq_ok, Except.ok.injEq] at first
        obtain ⟨_, -, r₂, applied, rfl⟩ := first
        rw [ih _ r' later, List.flatMap_cons, List.foldl_append,
          ← events segment segment.events r r₂ applied]
        rfl
  simp only [reduceSegments, reduceSegmentsFrom, bind_eq_ok, Except.ok.injEq] at loaded
  obtain ⟨r, replayed, rfl⟩ := loaded
  exact segments journal _ r replayed

/-- An event that does not concern the role leaves its lease. -/
theorem Event.leaseOf_of_not_concerns
    {roleId : String} {event : Event} (other : event.concernsRole roleId = false)
    (held : Option RoleLease) :
  event.leaseOf roleId held = held
  := by
  cases event with
  | roleBound lease => simp_all [concernsRole, leaseOf]
  | roleTransferred transfer => simp_all [concernsRole, leaseOf]
  | roleReleased released releasedAt => simp_all [concernsRole, leaseOf]
  | _ => rfl

/-- The lease of a role after events is the one before the newest event about it, changed by
that. -/
theorem foldl_leaseOf
    (roleId : String) (events : List Event) :
  ∃ held, events.foldl (Event.leaseOf roleId) none
    = match events.reverse.find? (Event.concernsRole roleId) with
      | some event => event.leaseOf roleId held
      | none => none
  := by
  induction events using List.reverseRecOn with
  | nil => exact ⟨none, rfl⟩
  | append_singleton front last ih =>
      obtain ⟨held, same⟩ := ih
      rw [List.reverse_append, List.reverse_singleton, List.singleton_append, List.find?_cons,
        List.foldl_append, List.foldl_cons, List.foldl_nil]
      cases concerns : last.concernsRole roleId with
      | true => exact ⟨_, rfl⟩
      | false =>
          refine ⟨held, ?_⟩
          rw [Event.leaseOf_of_not_concerns concerns, same]

/-! ### What a binding answers -/

variable {p : Platform} {projectId : String} {allow : State → Call → Prop}

/-- The lease was bound under the key. -/
def CommittedUnder (journal : List Segment) (key : String) (lease : RoleLease) : Prop :=
  ∃ segment ∈ journal, segment.command.idempotencyKey = key ∧ segment.events = [.roleBound lease]

/-- What a binding answers in a world, on the state that its journal replays to. The journal is the
one the binding loaded when the key is stored, and a later one when the binding was committed. -/
inductive BindAnswer (p : Platform) (projectId : String) (allow : State → Call → Prop) (w : World)
    (s : State) (value : BindInput) : RoleLease → Prop where
  /-- The key is stored and the role has a lease. -/
  | repeated (env : Env) (lease : RoleLease)
      (loaded : reduceSegments p projectId w.journal = .ok s)
      (stored : bindRole p s w.journal env false value = .ok none)
      (held : s.leases.lookup value.roleId = some lease) :
      BindAnswer p projectId allow w s value lease
  /-- The lease was appended, or a segment with its key was found, and the state loaded again. -/
  | committed (env : Env) (w₀ : World) (s₀ : State) (batch : Batch)
      (reachable : Reachable p projectId allow w₀)
      (loaded₀ : reduceSegments p projectId w₀.journal = .ok s₀)
      (computed : bindRole p s₀ w₀.journal env false value = .ok (some batch))
      (run : Relation.ReflTransGen (Step p projectId allow) w₀ w)
      (appended : ∃ segment ∈ w.journal,
        segment.command.idempotencyKey = value.idempotencyKey)
      (loaded : reduceSegments p projectId w.journal = .ok s) :
      BindAnswer p projectId allow w s value (s.leases.get value.roleId)

/-- The lease is one of the calling session: it was bound under the key of the call, or the session
holds the role by it. -/
def OwnLease (w : World) (s : State) (value : BindInput) (lease : RoleLease) : Prop :=
  lease.sessionId = value.sessionId ∧
    (CommittedUnder w.journal value.idempotencyKey lease ∨
      s.leases.lookup value.roleId = some lease ∧
        s.Holds value.roleId value.sessionId w.now)

/-- The lease an event gives to the session that it names. -/
def Event.given : Event → Option RoleLease
  | .roleBound lease => some lease
  | .roleTransferred transfer => some transfer.next
  | _ => none

/-- Has the lease not expired at the instant? -/
def RoleLease.Lasts (lease : RoleLease) (now : Instant) : Prop :=
  ∃ expires, lease.expiresAt.parse = some expires ∧ now < expires

/-- The newest event about the role gives its lease to the session, by a lease that was bound under
the key or has not expired. -/
def GivenTo (w : World) (roleId sessionId key : String) : Prop :=
  ∃ event lease, newestLeaseEvent w.journal roleId = some event ∧ event.given = some lease ∧
    lease.active = true ∧ lease.sessionId = sessionId ∧
    (CommittedUnder w.journal key lease ∨ lease.Lasts w.now)

/-- Leases are bound as active ones. -/
theorem CommittedUnder.active
    {w : World} (reachable : Reachable p projectId allow w) (free : CollisionFree w.journal)
    {key : String} {lease : RoleLease} (committed : CommittedUnder w.journal key lease) :
  lease.active = true
  := by
  obtain ⟨segment, mem, -, bound⟩ := committed
  obtain ⟨front, rest, split⟩ := List.append_of_mem mem
  rcases reachable.origin free split with
    ⟨-, e, fence⟩ | ⟨w₀, job, batch, s, env, -, -, created⟩
  · simp [fence] at bound
  · obtain ⟨now, -, write⟩ := created.leaseWrite
    rw [created.segment_eq] at bound
    have single : batch.events = [.roleBound lease] := bound
    cases write with
    | nothing free => simpa [Event.writesLeases] using free (.roleBound lease) (by simp [single])
    | bind first rest eq active =>
        obtain ⟨same, -⟩ := List.cons.inj (single.symm.trans eq)
        exact Event.roleBound.inj same ▸ active
    | transfer _ _ _ eq | release _ _ _ _ eq | import_ _ _ _ eq => simp [single] at eq

/-- A binding answers the lease of the role, or an empty one. -/
theorem BindAnswer.lease
    {w : World} {s : State} {value : BindInput} {lease : RoleLease}
    (answered : BindAnswer p projectId allow w s value lease) :
  reduceSegments p projectId w.journal = .ok s ∧
    (s.leases.lookup value.roleId = some lease ∨
      s.leases.lookup value.roleId = none ∧ lease.sessionId ≠ value.sessionId)
  := by
  cases answered with
  | repeated env lease loaded stored held => exact ⟨loaded, .inl held⟩
  | committed env w₀ s₀ batch reachable loaded₀ computed run appended loaded =>
      refine ⟨loaded, ?_⟩
      cases found : s.leases.lookup value.roleId with
      | some lease => exact .inl (by rw [Table.get, found]; rfl)
      | none =>
          obtain ⟨ttl, -, -, -, named, -⟩ := bindRole_ok computed
          refine .inr ⟨rfl, ?_⟩
          rw [Table.get, found]
          exact fun same => named same.symm

/-- What is on file for the role is what the newest event about it left. -/
theorem lookup_newestLeaseEvent
    {journal : List Segment} {s : State} (roleId : String)
    (loaded : reduceSegments p projectId journal = .ok s) :
  (newestLeaseEvent journal roleId = none ∧ s.leases.lookup roleId = none) ∨
    (∃ event lease, newestLeaseEvent journal roleId = some event ∧ event.given = some lease ∧
      s.leases.lookup roleId = some lease) ∨
    ∃ event lease, newestLeaseEvent journal roleId = some event ∧ event.given = none ∧
      s.leases.lookup roleId = some lease ∧ lease.active = false
  := by
  rw [lookup_leases_of_reduceSegments roleId loaded]
  obtain ⟨held, same⟩ := foldl_leaseOf roleId (journal.flatMap Segment.events)
  rw [same]
  unfold newestLeaseEvent
  cases newest : (journal.flatMap Segment.events).reverse.find? (Event.concernsRole roleId) with
  | none => exact .inl ⟨rfl, rfl⟩
  | some event =>
      have concerns := List.find?_some newest
      right
      cases event with
      | roleBound lease =>
          have named : lease.roleId = roleId := of_decide_eq_true concerns
          exact .inl ⟨_, lease, rfl, rfl, if_pos named⟩
      | roleTransferred transfer =>
          have named : transfer.next.roleId = roleId := of_decide_eq_true concerns
          exact .inl ⟨_, transfer.next, rfl, rfl, if_pos named⟩
      | roleReleased released releasedAt =>
          refine .inr ⟨_, { held.getD default with active := false }, rfl, rfl, ?_, rfl⟩
          simp_all [Event.leaseOf, Event.concernsRole]
      | _ => simp [Event.concernsRole] at concerns

/-- The lease that a binding answers is one of the calling session, bound under the key of the call
or held by that session, if and only if the newest event about the role gave it to the session, by
a lease that was bound under the key or has not expired. -/
theorem bind_answer_own_iff
    {w : World} {s : State} {value : BindInput} {lease : RoleLease}
    (reachable : Reachable p projectId allow w) (free : CollisionFree w.journal)
    (answered : BindAnswer p projectId allow w s value lease) :
  OwnLease w s value lease ↔ GivenTo w value.roleId value.sessionId value.idempotencyKey
  := by
  obtain ⟨loaded, answer⟩ := answered.lease
  constructor
  · rintro ⟨session, own⟩
    have found : s.leases.lookup value.roleId = some lease := by
      rcases answer with found | ⟨-, other⟩
      · exact found
      · exact absurd session other
    have lasts : lease.active = true ∧
        (CommittedUnder w.journal value.idempotencyKey lease ∨ lease.Lasts w.now) := by
      rcases own with committed | ⟨-, held, expires, found', active, -, parsed, before⟩
      · exact ⟨committed.active reachable free, .inl committed⟩
      · obtain rfl := Option.some.inj (found.symm.trans found')
        exact ⟨active, .inr ⟨expires, parsed, before⟩⟩
    rcases lookup_newestLeaseEvent value.roleId loaded with
      ⟨-, none_⟩ | ⟨event, given, newest, gives, found'⟩ | ⟨-, given, -, -, found', inactive⟩
    · simp [none_] at found
    · obtain rfl := Option.some.inj (found.symm.trans found')
      exact ⟨event, lease, newest, gives, lasts.1, session, lasts.2⟩
    · -- the newest event releases the role
      obtain rfl := Option.some.inj (found.symm.trans found')
      simp [inactive] at lasts
  · rintro ⟨event, given, newest, gives, active, session, lasts⟩
    have found : s.leases.lookup value.roleId = some given := by
      rcases lookup_newestLeaseEvent value.roleId loaded with
        ⟨none_, -⟩ | ⟨event', given', newest', gives', found⟩ | ⟨event', -, newest', gives', -⟩
      · simp [none_] at newest
      · obtain rfl := Option.some.inj (newest.symm.trans newest')
        obtain rfl := Option.some.inj (gives.symm.trans gives')
        exact found
      · obtain rfl := Option.some.inj (newest.symm.trans newest')
        simp [gives'] at gives
    obtain rfl : lease = given := by
      rcases answer with found' | ⟨none_, -⟩
      · exact Option.some.inj (found'.symm.trans found)
      · simp [none_] at found
    refine ⟨session, ?_⟩
    rcases lasts with committed | ⟨expires, parsed, before⟩
    · exact .inl committed
    · exact .inr ⟨found, lease, expires, found, active, session, parsed, before⟩

namespace SampleRole

/-- A binding of the role by a session. -/
def binding (sessionId key : String) : BindInput where
  roleId := "dev"
  harness := "cli"
  sessionId
  ttl := 0
  idempotencyKey := key

/-- The calls: a session binds the role and releases it, and a second session binds it. -/
def handover : List Call :=
  [.importGraph { graph, idempotencyKey := "import", actorRole := "dev", requestDigest := "" },
   .bindRole (binding "first" "bind"), .releaseRole "dev" "first" "release",
   .bindRole (binding "second" "bind2")]

/-- Is the key of the binding stored in the journal of the calls, with the lease as the answer? -/
def repeatedBinding (calls : List Call) (value : BindInput)
    (answer : Option Event → RoleLease → Bool) : Fallible Bool := do
  let journal ← commitCalls .numbered "p" 0 [] calls
  let s ← reduceSegments .numbered "p" journal
  let batch ← bindRole .numbered s journal (.still 0) false value
  let lease ← need (s.leases.lookup value.roleId) "no lease"
  .ok (decide (journal.map Segment.segmentHash).Nodup && batch.isNone
    && answer (newestLeaseEvent journal value.roleId) lease)

/-- The world of a repeated binding is reachable, and the binding answers the lease. -/
theorem exists_repeatedBinding
    {calls : List Call} {value : BindInput} {answer : Option Event → RoleLease → Bool}
    (run : repeatedBinding calls value answer = .ok true) :
  ∃ (w : World) (s : State) (lease : RoleLease), w.now = 0 ∧
    Reachable .numbered "p" (fun _ _ => True) w ∧ CollisionFree w.journal ∧
    BindAnswer .numbered "p" (fun _ _ => True) w s value lease ∧
    answer (newestLeaseEvent w.journal value.roleId) lease = true
  := by
  simp only [repeatedBinding, bind_eq_ok, need_eq_ok, Except.ok.injEq, Bool.and_eq_true,
    decide_eq_true_eq, Option.isNone_iff_eq_none] at run
  obtain ⟨journal, committed, s, loaded, batch, stored, lease, held, ⟨free, rfl⟩, answered⟩ := run
  have start : Reachable .numbered "p" (fun _ _ => True) (World.initial [] 0) :=
    ⟨[], 0, .empty, .refl⟩
  have reachable := reachable_of_commitCalls start (fun _ _ _ => trivial) committed
  exact ⟨World.initial journal 0, s, lease, rfl, reachable, free,
    .repeated (.still 0) lease loaded stored held, answered⟩

end SampleRole

open SampleRole in
/-- A session that repeats its binding at once gets its own lease. -/
theorem bind_answer_own_repeated :
  ∃ (w : World) (s : State) (lease : RoleLease),
    BindAnswer .numbered "p" (fun _ _ => True) w s (binding "first" "bind") lease ∧
    OwnLease w s (binding "first" "bind") lease
  := by
  have run : repeatedBinding calls (binding "first" "bind") (fun newest _ =>
      (newest.bind Event.given).any fun lease => lease.active && lease.sessionId = "first"
        && lease.expiresAt.parse.any (0 < ·)) = .ok true := by decide +kernel
  obtain ⟨w, s, lease, now, reachable, free, answered, given⟩ := exists_repeatedBinding run
  refine ⟨w, s, lease, answered, (bind_answer_own_iff reachable free answered).mpr ?_⟩
  simp only [Option.any_eq_true, Option.bind_eq_some_iff, Bool.and_eq_true, decide_eq_true_eq]
    at given
  obtain ⟨lease, ⟨event, newest, gives⟩, ⟨active, session⟩, expires, parsed, before⟩ := given
  exact ⟨event, lease, newest, gives, active, session, .inr ⟨expires, parsed, now ▸ before⟩⟩

open SampleRole in
/-- The first session repeats its binding when the role has passed to the second one, and gets the
lease of the second session. -/
theorem bind_answer_of_successor :
  ∃ (w : World) (s : State) (lease : RoleLease),
    Reachable .numbered "p" (fun _ _ => True) w ∧ CollisionFree w.journal ∧
    BindAnswer .numbered "p" (fun _ _ => True) w s (binding "first" "bind") lease ∧
    lease.sessionId = "second" ∧ ¬ OwnLease w s (binding "first" "bind") lease
  := by
  have run : repeatedBinding handover (binding "first" "bind")
      (fun _ lease => lease.sessionId = "second") = .ok true := by decide +kernel
  obtain ⟨w, s, lease, -, reachable, free, answered, second⟩ := exists_repeatedBinding run
  have second : lease.sessionId = "second" := of_decide_eq_true second
  refine ⟨w, s, lease, reachable, free, answered, second, ?_⟩
  rintro ⟨first, -⟩
  rw [second] at first
  exact absurd first (by decide)

end Dagrail
