import Dagrail.Projection.Store

/-!
# Equivalence of projections

A recovery rehearsal rebuilds the projection of a journal and compares its fingerprint with that of
the projection it has found. All rows are the same, whichever way and in whichever order they were
written, except for the metadata of evidence: where several records mention one digest, the record
that was written last decides.
-/

namespace Dagrail

namespace Projection

variable {s : State}

/-! ### When the order does not matter -/

/-- The evidence of a digest is certain: the records of the last kind that mention it agree. -/
def EvidenceSettledAt (s : State) (digest : String) : Prop :=
  Table.Settled (s.evidencePackages.values.map artifactRows) digest ∧
    (¬ Table.Mentioned (s.evidencePackages.values.map artifactRows) digest →
      Table.Settled (decisionEvidence s.decisions.values) digest ∧
      (¬ Table.Mentioned (decisionEvidence s.decisions.values) digest →
        Table.Settled (checkpointEvidence s.checkpoints.values) digest))

/-- The evidence of every digest is certain. -/
def EvidenceSettled (s : State) : Prop :=
  ∀ digest, EvidenceSettledAt s digest

/-- The last entry of a digest in an index. -/
theorem Orders.index_lookup
    (o : Orders s) (digest : String) :
  (Table.overlay o.index ∅).lookup digest =
    (Table.lastAt (o.packages.map artifactRows).flatten digest).or
      ((Table.lastAt (decisionEvidence o.decisions).flatten digest).or
        (Table.lastAt (checkpointEvidence o.checkpoints).flatten digest))
  := by
  rw [Table.overlay_lookup, index, Table.lastAt_append, Table.lastAt_append, AList.lookup_empty,
    Option.or_none]

/-- The index of settled evidence is the same in every order. -/
theorem EvidenceSettledAt.lookup_eq
    {digest : String} (settled : EvidenceSettledAt s digest) (o : Orders s) :
  (Table.overlay o.index ∅).lookup digest = (Table.overlay (Orders.own s).index ∅).lookup digest
  := by
  obtain ⟨packages, others⟩ := settled
  have packages' := packages.lastAt_perm (o.packages_perm.symm.map artifactRows)
  rw [o.index_lookup, (Orders.own s).index_lookup, packages']
  by_cases mentioned : Table.Mentioned (s.evidencePackages.values.map artifactRows) digest
  · obtain ⟨cells, last⟩ := Table.lastAt_flatten_ne_none mentioned
    simp only [Orders.own, last, Option.some_or]
  · obtain ⟨decisions, checkpoints⟩ := others mentioned
    have decisions' := decisions.lastAt_perm (o.decisions_perm.symm.map fun d : DecisionRecord =>
      evidenceRows d.evidenceRefs)
    rw [← decisionEvidence] at decisions'
    rw [decisions']
    by_cases mentioned : Table.Mentioned (decisionEvidence s.decisions.values) digest
    · obtain ⟨cells, last⟩ := Table.lastAt_flatten_ne_none mentioned
      simp only [Orders.own, last, Option.some_or]
    · have checkpoints' := (checkpoints mentioned).lastAt_perm
        (o.checkpoints_perm.symm.map fun c : Checkpoint => evidenceRows c.evidenceRefs)
      rw [← checkpointEvidence] at checkpoints'
      rw [checkpoints']
      rfl

/-- Nothing is last for a digest that no record mentions. -/
theorem lastAt_of_not_mentioned
    {records : List (List Entry)} {digest : String} (absent : ¬ Table.Mentioned records digest) :
  Table.lastAt records.flatten digest = none
  := by
  cases last : Table.lastAt records.flatten digest with
  | none => rfl
  | some cells =>
      obtain ⟨record, mem, found⟩ := Table.lastAt_flatten last
      exact absurd ⟨record, mem, cells, found⟩ absent

/-- The record that comes last decides. -/
theorem lastAt_of_last
    {α : Type} (f : α → List Entry) (front : List α) {record : α} {digest : String}
    {cells : List Cell} (found : Table.lastAt (f record) digest = some cells) :
  Table.lastAt ((front ++ [record]).map f).flatten digest = some cells
  := by
  simp only [List.map_append, List.map_cons, List.map_nil, List.flatten_append, List.flatten_cons,
    List.flatten_nil, List.append_nil, Table.lastAt_append, found, Option.some_or]

/-- If the index is the same in every order, the evidence is settled. -/
theorem evidenceSettledAt_of_same
    {digest : String}
    (same : ∀ o : Orders s, (Table.overlay o.index ∅).lookup digest =
      (Table.overlay (Orders.own s).index ∅).lookup digest) :
  EvidenceSettledAt s digest
  := by
  have agree : ∀ (o o' : Orders s) (cells cells' : List Cell),
      (Table.overlay o.index ∅).lookup digest = some cells →
      (Table.overlay o'.index ∅).lookup digest = some cells' → cells = cells' := by
    intro o o' cells cells' found found'
    rw [same o] at found
    rw [same o', found] at found'
    exact Option.some.inj found'
  refine ⟨?_, ?_⟩
  · rintro _ mem cells found _ mem' cells' found'
    obtain ⟨pack, listed, rfl⟩ := List.mem_map.mp mem
    obtain ⟨pack', listed', rfl⟩ := List.mem_map.mp mem'
    obtain ⟨front, order⟩ := Table.exists_perm_last listed
    obtain ⟨front', order'⟩ := Table.exists_perm_last listed'
    apply agree
      { Orders.own s with packages := front ++ [pack], packages_perm := order.symm }
      { Orders.own s with packages := front' ++ [pack'], packages_perm := order'.symm }
    · rw [Orders.index_lookup, lastAt_of_last artifactRows front found, Option.some_or]
    · rw [Orders.index_lookup, lastAt_of_last artifactRows front' found', Option.some_or]
  · intro absent
    have none := lastAt_of_not_mentioned absent
    refine ⟨?_, ?_⟩
    · rintro _ mem cells found _ mem' cells' found'
      obtain ⟨decision, listed, rfl⟩ := List.mem_map.mp mem
      obtain ⟨decision', listed', rfl⟩ := List.mem_map.mp mem'
      obtain ⟨front, order⟩ := Table.exists_perm_last listed
      obtain ⟨front', order'⟩ := Table.exists_perm_last listed'
      apply agree
        { Orders.own s with decisions := front ++ [decision], decisions_perm := order.symm }
        { Orders.own s with decisions := front' ++ [decision'], decisions_perm := order'.symm }
      · have last := lastAt_of_last (fun d : DecisionRecord => evidenceRows d.evidenceRefs) front
          found
        simp only [Orders.index_lookup, Orders.own, none, decisionEvidence, last, Option.none_or,
          Option.some_or]
      · have last := lastAt_of_last (fun d : DecisionRecord => evidenceRows d.evidenceRefs) front'
          found'
        simp only [Orders.index_lookup, Orders.own, none, decisionEvidence, last, Option.none_or,
          Option.some_or]
    · intro absent'
      have none' := lastAt_of_not_mentioned absent'
      rintro _ mem cells found _ mem' cells' found'
      obtain ⟨checkpoint, listed, rfl⟩ := List.mem_map.mp mem
      obtain ⟨checkpoint', listed', rfl⟩ := List.mem_map.mp mem'
      obtain ⟨front, order⟩ := Table.exists_perm_last listed
      obtain ⟨front', order'⟩ := Table.exists_perm_last listed'
      apply agree
        { Orders.own s with checkpoints := front ++ [checkpoint], checkpoints_perm := order.symm }
        { Orders.own s with checkpoints := front' ++ [checkpoint'], checkpoints_perm := order'.symm }
      · have last := lastAt_of_last (fun c : Checkpoint => evidenceRows c.evidenceRefs) front
          found
        simp only [Orders.index_lookup, Orders.own, none, none', checkpointEvidence, last,
          Option.none_or]
      · have last := lastAt_of_last (fun c : Checkpoint => evidenceRows c.evidenceRefs) front'
          found'
        simp only [Orders.index_lookup, Orders.own, none, none', checkpointEvidence, last,
          Option.none_or]

/-! ### Rows of one state in two orders -/

/-- Tables are listed with the same rows exactly when they have the same entries. -/
theorem rowsOf_eq_iff
    {t t' : Table (List Cell)} :
  rowsOf t = rowsOf t' ↔ t.Same t'
  := by
  rw [← Table.ordered_eq_iff]
  apply (List.map_injective_iff.mpr _).eq_iff
  rintro ⟨k, cells⟩ ⟨k', cells'⟩ same
  simp only [List.cons.injEq, Cell.text.injEq] at same
  rw [same.1, same.2]

/-- A table that was filled with the records in another order is listed with the same rows. -/
theorem rowsOf_fill
    {α : Type} {message : String} {f : α → Entry} {records records' : List α}
    {t t' : Table (List Cell)} (order : records.Perm records')
    (run : Table.fill message (records.map f) = .ok t)
    (run' : Table.fill message (records'.map f) = .ok t') :
  rowsOf t = rowsOf t'
  := rowsOf_eq_iff.mpr (Table.fill_perm (order.map f) run run')

/-- Two databases written for one state and journal have the same rows exactly when their indexes
of the evidence have the same entries. -/
theorem Written.rows_eq_iff
    {o o' : Orders s} {segments : List Segment} {db db' : Database}
    (written : Written o segments db) (written' : Written o' segments db') :
  db.rows = db'.rows ↔ db.evidenceIndex.Same db'.evidenceIndex
  := by
  obtain ⟨base, graph, revisions, nodes, edges, roles⟩ := written.graph
  obtain ⟨base', graph', revisions', nodes', edges', roles'⟩ := written'.graph
  obtain rfl := Except.ok.inj (graph.symm.trans graph')
  have applied := Except.ok.inj (written.appliedSegments.symm.trans written'.appliedSegments)
  have attempts := rowsOf_fill (o.attempts_perm.trans o'.attempts_perm.symm) written.attempts
    written'.attempts
  have leases := rowsOf_fill (o.leases_perm.trans o'.leases_perm.symm) written.roleLeases
    written'.roleLeases
  have checkpoints := rowsOf_fill (o.checkpoints_perm.trans o'.checkpoints_perm.symm)
    written.checkpoints written'.checkpoints
  have decisions := rowsOf_fill (o.decisions_perm.trans o'.decisions_perm.symm) written.decisions
    written'.decisions
  have packages := rowsOf_fill (o.packages_perm.trans o'.packages_perm.symm)
    written.evidencePackages written'.evidencePackages
  have reuse := rowsOf_fill (o.reuse_perm.trans o'.reuse_perm.symm) written.reuseDecisions
    written'.reuseDecisions
  have actions := rowsOf_fill (o.actions_perm.trans o'.actions_perm.symm) written.actions
    written'.actions
  have effects := rowsOf_fill (o.effects_perm.trans o'.effects_perm.symm) written.outbox
    written'.outbox
  have resources := rowsOf_fill (o.resources_perm.trans o'.resources_perm.symm) written.resources
    written'.resources
  have incidents := rowsOf_fill (o.incidents_perm.trans o'.incidents_perm.symm) written.incidents
    written'.incidents
  rw [← rowsOf_eq_iff]
  simp only [Database.rows, Database.applied, applied, written.metadata, written'.metadata, revisions,
    revisions', nodes, nodes', edges, edges', roles, roles', attempts, leases, checkpoints, decisions,
    packages, reuse, actions, effects, resources, incidents, List.cons.injEq, Prod.mk.injEq,
    true_and, and_true]

/-- If the rows can be written in one order, they can in every other. -/
theorem write_reordered
    {o : Orders s} {segments : List Segment} {db : Database} (done : write o segments = .ok db)
    (o' : Orders s) :
  ∃ db', write o' segments = .ok db'
  := by
  have fill : ∀ {α : Type} {message : String} {f : α → Entry} {records records' : List α}
      {t : Table (List Cell)}, records.Perm records' →
      Table.fill message (records.map f) = .ok t →
      ∃ t', Table.fill message (records'.map f) = .ok t' := by
    intro α message f records records' t order run
    rw [Table.fill_eq_ok, List.map_map, ← (order.map (Prod.fst ∘ f)).nodup_iff, ← List.map_map,
      ← Table.fill_eq_ok]
    exact ⟨t, run⟩
  obtain ⟨⟨base, graph, -⟩, attempts, leases, checkpoints, decisions, packages, reuse, actions,
    effects, resources, incidents, applied, -, -⟩ := write_ok done
  obtain ⟨_, attempts'⟩ := fill (o.attempts_perm.trans o'.attempts_perm.symm) attempts
  obtain ⟨_, leases'⟩ := fill (o.leases_perm.trans o'.leases_perm.symm) leases
  obtain ⟨_, checkpoints'⟩ := fill (o.checkpoints_perm.trans o'.checkpoints_perm.symm) checkpoints
  obtain ⟨_, decisions'⟩ := fill (o.decisions_perm.trans o'.decisions_perm.symm) decisions
  obtain ⟨_, packages'⟩ := fill (o.packages_perm.trans o'.packages_perm.symm) packages
  obtain ⟨_, reuse'⟩ := fill (o.reuse_perm.trans o'.reuse_perm.symm) reuse
  obtain ⟨_, actions'⟩ := fill (o.actions_perm.trans o'.actions_perm.symm) actions
  obtain ⟨_, effects'⟩ := fill (o.effects_perm.trans o'.effects_perm.symm) effects
  obtain ⟨_, resources'⟩ := fill (o.resources_perm.trans o'.resources_perm.symm) resources
  obtain ⟨_, incidents'⟩ := fill (o.incidents_perm.trans o'.incidents_perm.symm) incidents
  simp only [write, graph, attempts', leases', checkpoints', decisions', packages', reuse', actions',
    effects', resources', incidents', applied, ok_bind, Except.ok.injEq, exists_eq']

/-! ### Runs -/

/-- The databases that synchronizations and rebuilds for parts of a journal leave. -/
inductive Projected (p : Platform) (projectId : String) (journal : List Segment) : Database → Prop
    where
  | opened : Projected p projectId journal {}
  | synced (db db' : Database) (front : List Segment) (s : State) (o : Orders s)
      (before : Projected p projectId journal db) (part : front <+: journal)
      (loaded : reduceSegments p projectId front = .ok s) (done : sync db o front = .ok db') :
      Projected p projectId journal db'
  | rebuilt (db' : Database) (front : List Segment) (s : State) (o : Orders s)
      (part : front <+: journal) (loaded : reduceSegments p projectId front = .ok s)
      (done : rebuild o front = .ok db') :
      Projected p projectId journal db'

/-- The database has reached the head of the journal. -/
def Database.AtHead (db : Database) (journal : List Segment) : Prop :=
  ∃ current, db.cursor = some current ∧ current.sequence = headSequenceOf journal ∧
    current.hash = headHashOf journal

/-- The rows of the state and the journal can be written. -/
def Writable (s : State) (journal : List Segment) : Prop :=
  ∃ db, write (Orders.own s) journal = .ok db

/-- The rows of applied segments are those of the segments. -/
theorem applySegments_ok
    {segments : List Segment} {before rows : List AppliedSegment}
    (h : segments.foldlM applySegment before = .ok rows) :
  rows = before ++ segments.map fun segment =>
    ⟨segment.sequence, segment.segmentHash, segment.schemaVersion⟩
  := by
  induction segments generalizing before with
  | nil =>
      obtain rfl := Except.ok.inj h
      simp
  | cons segment rest ih =>
      rw [List.foldlM_cons, bind_eq_ok] at h
      obtain ⟨between, first, h⟩ := h
      simp only [applySegment, bind_eq_ok, Except.ok.injEq] at first
      obtain ⟨_, -, _, -, rfl⟩ := first
      rw [ih h]
      simp

/-- A database that has a cursor was written for a part of the journal. -/
theorem Projected.written
    {p : Platform} {projectId : String} {journal : List Segment} {db : Database}
    (projected : Projected p projectId journal db) {current : AppliedSegment}
    (cursor : db.cursor = some current) :
  ∃ (front : List Segment) (s : State) (o : Orders s), front <+: journal ∧
    reduceSegments p projectId front = .ok s ∧ write o front = .ok db
  := by
  induction projected with
  | opened => simp [Database.cursor, Database.applied] at cursor
  | synced db db' front s o before part loaded done ih =>
      unfold sync at done
      split at done
      · exact ⟨front, s, o, part, loaded, done⟩
      · split_ifs at done
        · obtain rfl := Except.ok.inj done
          exact ih cursor
        · simp only [bind_eq_ok, Except.ok.injEq] at done
          obtain ⟨_, -, rfl⟩ := done
          exact ih cursor
        · exact ⟨front, s, o, part, loaded, done⟩
  | rebuilt db' front s o part loaded done =>
      exact ⟨front, s, o, part, loaded, done⟩

/-- The applied segments of an ordered journal are read in its order. -/
theorem Written.applied_eq
    {o : Orders s} {journal : List Segment} {db : Database} (written : Written o journal db)
    (ordered : Ordered journal) :
  db.applied = journal.map fun segment =>
    ⟨segment.sequence, segment.segmentHash, segment.schemaVersion⟩
  := by
  have rows := applySegments_ok written.appliedSegments
  rw [List.nil_append] at rows
  unfold Database.applied
  rw [rows]
  apply List.Pairwise.insertionSort_eq
  rw [List.pairwise_map]
  exact ordered.imp fun before => before.le

/-- A database that was written for a journal is at its head. -/
theorem Written.cursor_eq
    {o : Orders s} {journal : List Segment} {db : Database} (written : Written o journal db)
    (ordered : Ordered journal) :
  db.cursor = journal.getLast?.map fun segment =>
    ⟨segment.sequence, segment.segmentHash, segment.schemaVersion⟩
  := by
  rw [Database.cursor, written.applied_eq ordered, List.getLast?_map]

/-- A database at the head of the journal was written for the whole journal. -/
theorem Projected.written_at_head
    {p : Platform} {projectId : String} {journal : List Segment} {db : Database}
    (projected : Projected p projectId journal db) (head : db.AtHead journal)
    (ordered : Ordered journal) (hashed : Hashed journal) (free : CollisionFree journal)
    (loaded : reduceSegments p projectId journal = .ok s) :
  ∃ o : Orders s, write o journal = .ok db
  := by
  obtain ⟨current, cursor, -, hash⟩ := head
  obtain ⟨front, s', o, part, loaded', done⟩ := projected.written cursor
  rw [(write_ok done).cursor_eq (ordered.sublist part.sublist)] at cursor
  obtain ⟨last, ends, rfl⟩ := Option.map_eq_some_iff.mp cursor
  have whole : front = journal := by
    apply eq_of_headHash_eq part hashed free
    rw [← hash]
    simp [headHashOf, ends]
  subst whole
  obtain rfl := Except.ok.inj (loaded'.symm.trans loaded)
  exact ⟨o, done⟩

/-- A rebuild writes all rows. -/
theorem rebuild_eq
    (o : Orders s) (segments : List Segment) :
  rebuild o segments = write o segments
  := rfl

variable {p : Platform} {projectId : String} {allow : State → Call → Prop}

/-- Any two rebuilds for a state and a list of segments have the same rows exactly when the evidence of
the state is settled, if the rows can be written at all. -/
theorem rebuilds_eq_iff_settled
    {segments : List Segment} :
  (∀ (o o' : Orders s) (db db' : Database), rebuild o segments = .ok db →
      rebuild o' segments = .ok db' → db.rows = db'.rows) ↔
    (Writable s segments → EvidenceSettled s)
  := by
  constructor
  · rintro same ⟨own, done⟩ digest
    apply evidenceSettledAt_of_same
    intro o
    obtain ⟨db, done'⟩ := write_reordered done o
    have rows := same o (Orders.own s) db own done' done
    rw [(write_ok done').rows_eq_iff (write_ok done), (write_ok done').evidenceIndex,
      (write_ok done).evidenceIndex] at rows
    exact rows digest
  · intro settled o o' db db' done done'
    rw [rebuild_eq] at done done'
    rw [(write_ok done).rows_eq_iff (write_ok done'), (write_ok done).evidenceIndex,
      (write_ok done').evidenceIndex]
    intro digest
    have certain := settled (write_reordered done (Orders.own s)) digest
    rw [certain.lookup_eq o, certain.lookup_eq o']

/-- A rebuild for a journal that has begun is at its head. -/
theorem atHead_of_rebuild
    {o : Orders s} {journal : List Segment} {db : Database} (done : rebuild o journal = .ok db)
    (ordered : Ordered journal) (begun : journal ≠ []) :
  db.AtHead journal
  := by
  obtain ⟨last, ends⟩ : ∃ last, journal.getLast? = some last :=
    ⟨_, List.getLast?_eq_some_getLast begun⟩
  refine ⟨_, by rw [(write_ok done).cursor_eq ordered, ends]; rfl, ?_, ?_⟩
  · simp [headSequenceOf, ends]
  · simp [headHashOf, ends]

/-- Every projection at the head of a reachable journal has the rows of every rebuild exactly when
the evidence of its state is settled, if the rows can be written at all. -/
theorem rows_eq_iff_settled
    {w : World} (reachable : Reachable p projectId allow w) (free : CollisionFree w.journal)
    (loaded : reduceSegments p projectId w.journal = .ok s) (begun : w.journal ≠ []) :
  (∀ db, Projected p projectId w.journal db → db.AtHead w.journal →
      ∀ (o : Orders s) (rebuilt : Database), rebuild o w.journal = .ok rebuilt →
        db.rows = rebuilt.rows) ↔
    (Writable s w.journal → EvidenceSettled s)
  := by
  have ordered := reachable.ordered
  rw [← rebuilds_eq_iff_settled]
  constructor
  · intro same o o' db db' done done'
    exact same db (.rebuilt db w.journal s o List.prefix_rfl loaded done)
      (atHead_of_rebuild done ordered begun) o' db' done'
  · intro same db projected head o rebuilt done
    obtain ⟨o', done'⟩ := projected.written_at_head head ordered reachable.hashed free loaded
    exact same o' o db rebuilt done' done

/-- Two databases have the same fingerprint exactly when they have the same rows, if the hash does
not collide on them. -/
theorem fingerprint_eq_iff
    {hash : List Cell → Hex} {db db' : Database}
    (apart : hash db.stream = hash db'.stream → db.stream = db'.stream) :
  db.fingerprint hash = db'.fingerprint hash ↔ db.rows = db'.rows
  := by
  rw [← Database.stream_eq_iff]
  constructor
  · intro same
    apply apart
    exact Hex.digest_injective same
  · intro same
    unfold Database.fingerprint
    rw [same]

/-- Databases with the same rows have the same fingerprint under every hash. -/
theorem fingerprint_eq_of_rows
    {hash : List Cell → Hex} {db db' : Database} (same : db.rows = db'.rows) :
  db.fingerprint hash = db'.fingerprint hash
  := by
  rw [← Database.stream_eq_iff] at same
  unfold Database.fingerprint
  rw [same]

/-- Each projection at the head of a reachable journal has the rows of every rebuild, and passes the
comparison of a rehearsal, exactly when the evidence of the state is settled; and so have any two
rebuilds for any state and any segments. Here the evidence only matters if the rows can be written
at all. No comparison passes on two databases whose rows differ, unless the hash collides on them. -/
theorem rehearsal_equivalence_iff
    {w : World} {hash : List Cell → Hex} (reachable : Reachable p projectId allow w)
    (free : CollisionFree w.journal) (loaded : reduceSegments p projectId w.journal = .ok s)
    (begun : w.journal ≠ []) :
  ((∀ db, Projected p projectId w.journal db → db.AtHead w.journal →
      ∀ (o : Orders s) (rebuilt : Database), rebuild o w.journal = .ok rebuilt →
        db.rows = rebuilt.rows ∧ db.fingerprint hash = rebuilt.fingerprint hash) ↔
    (Writable s w.journal → EvidenceSettled s)) ∧
  (∀ (t : State) (segments : List Segment), (∀ (o o' : Orders t) (db db' : Database),
      rebuild o segments = .ok db → rebuild o' segments = .ok db' →
        db.rows = db'.rows ∧ db.fingerprint hash = db'.fingerprint hash) ↔
    (Writable t segments → EvidenceSettled t)) ∧
  ∀ db db' : Database, (hash db.stream = hash db'.stream → db.stream = db'.stream) →
    (db.fingerprint hash = db'.fingerprint hash ↔ db.rows = db'.rows)
  := by
  refine ⟨?_, ?_, fun db db' => fingerprint_eq_iff⟩
  · rw [← rows_eq_iff_settled reachable free loaded begun]
    constructor
    · intro same db projected head o rebuilt done
      exact (same db projected head o rebuilt done).1
    · intro same db projected head o rebuilt done
      have rows := same db projected head o rebuilt done
      exact ⟨rows, fingerprint_eq_of_rows rows⟩
  · intro t segments
    rw [← rebuilds_eq_iff_settled]
    constructor
    · intro same o o' db db' done done'
      exact (same o o' db db' done done').1
    · intro same o o' db db' done done'
      have rows := same o o' db db' done done'
      exact ⟨rows, fingerprint_eq_of_rows rows⟩

namespace SampleProjection

/-- A task. -/
def build : NodeDefinition :=
  { id := "build", title := "build", kind := .task, role := "dev", objective := "build"
    outcomes := [⟨"done", .success⟩] }

/-- A graph with one piece of work. -/
def graph : GraphDefinition where
  apiVersion := graphAPIVersion
  kind := graphKind
  metadata := { name := "sample" }
  spec :=
    { roles := [{ id := "dev", capabilities := [.nodeRun] }]
      nodes := [build] }

/-- A reference to an action on the node after the given number of segments. -/
def ref (head : Nat) (kind attemptId : String) : ActionRef where
  projectId := "p"
  headHash := numberedText head
  graphRevision := Hex.zero.text
  providerSet := Hex.zero.text
  roleId := "dev"
  sessionId := "first"
  nodeId := "build"
  attemptId
  kind
  expiresAt := .utc 1
  subject := []

/-- A checkpoint whose evidence is filed as the given type. -/
def checkpoint (head : Nat) (type key : String) : Call :=
  .apply
    { ref := ref head "attempt.checkpoint" "00"
      input := .obj [("summary", .str "half"), ("evidenceRefs", .arr [.obj
        [("digest", .str Hex.zero.digest), ("type", .str type), ("size", .num 1)]])]
      idempotencyKey := key }

/-- The work is started. -/
def started : List (Nat × Call) :=
  [(0, .importGraph { graph, idempotencyKey := "import", actorRole := "dev", requestDigest := "" }),
   (0, .bindRole { roleId := "dev", harness := "cli", sessionId := "first", ttl := 0
                   idempotencyKey := "bind" }),
   (0, .apply { ref := ref 2 "node.start" "", input := .obj [], idempotencyKey := "start" })]

/-- Two checkpoints file the same evidence as a log and as a report. -/
def filed : List (Nat × Call) :=
  [(9, checkpoint 3 "log" "first"), (19, checkpoint 4 "report" "second")]

/-- The evidence of a checkpoint. -/
def evidence (type : String) : EvidenceRef :=
  { digest := Hex.zero.digest, type, size := 1 }

/-- The journal and the state after the calls, if only checkpoints have evidence, of the given
types. -/
def outcome (calls : List (Nat × Call)) (types : List String) : Fallible (List Segment × State) := do
  let journal ← commitEach .numbered "p" 0 [] calls
  let s ← reduceSegments .numbered "p" journal
  check (!journal.isEmpty && decide (journal.map (·.segmentHash)).Nodup) "segments collide"
  check (s.evidencePackages.values.isEmpty && s.decisions.values.isEmpty) "other records"
  check (s.checkpoints.values.map (·.evidenceRefs) = types.map fun type => [evidence type])
    "other evidence"
  check (write (Orders.own s) journal).toOption.isSome "rows cannot be written"
  .ok (journal, s)

/-- What the outcome tells. -/
theorem outcome_ok
    {calls : List (Nat × Call)} {types : List String} {journal : List Segment} {s : State}
    (h : outcome calls types = .ok (journal, s)) :
  Reachable .numbered "p" (fun _ _ => True) (World.initial journal 0) ∧ CollisionFree journal ∧
    reduceSegments .numbered "p" journal = .ok s ∧ journal ≠ [] ∧ Writable s journal ∧
    (∀ digest, EvidenceSettledAt s digest ↔
      Table.Settled (types.map fun type => evidenceRows [evidence type]) digest)
  := by
  simp only [outcome, bind_eq_ok, check_eq_ok, Except.ok.injEq, Prod.mk.injEq, Bool.and_eq_true,
    Bool.not_eq_true', decide_eq_true_eq, List.isEmpty_iff] at h
  obtain ⟨journal', committed, t, loaded, _, ⟨begun, free⟩, _, ⟨packages, decisions⟩, _, checkpoints, _,
    written, same, rfl⟩ := h
  subst same
  have start : Reachable .numbered "p" (fun _ _ => True) (World.initial [] 0) :=
    ⟨[], 0, .empty, .refl⟩
  refine ⟨reachable_of_commitEach start (fun _ _ _ => trivial) committed, free, loaded, ?_, ?_, ?_⟩
  · rintro rfl
    simp at begun
  · cases done : write (Orders.own t) journal' with
    | error message => simp [done, Except.toOption] at written
    | ok db => exact ⟨db, done⟩
  · intro digest
    have records : checkpointEvidence t.checkpoints.values =
        types.map fun type => evidenceRows [evidence type] := by
      have rows := congrArg (List.map evidenceRows) checkpoints
      rw [List.map_map, List.map_map] at rows
      exact rows
    simp only [EvidenceSettledAt, packages, decisions, records, decisionEvidence, List.map_nil]
    simp [Table.Settled, Table.Mentioned]

/-- The calls are accepted. -/
theorem runs :
  (outcome (started ++ filed) ["report", "log"]).toOption.isSome = true ∧
    (outcome started []).toOption.isSome = true
  := by decide

end SampleProjection

open SampleProjection in
/-- Two checkpoints that file one digest with different metadata leave rows that depend on the order
the checkpoints are written in. -/
theorem rehearsal_equivalence_fails :
  ¬ ∀ (p : Platform) (projectId : String) (w : World) (s : State),
    Reachable p projectId (fun _ _ => True) w → CollisionFree w.journal →
    reduceSegments p projectId w.journal = .ok s → w.journal ≠ [] →
    ∀ db, Projected p projectId w.journal db → db.AtHead w.journal →
      ∀ (o : Orders s) (rebuilt : Database), rebuild o w.journal = .ok rebuilt → db.rows = rebuilt.rows
  := by
  intro equal
  have run := runs.1
  cases found : outcome (started ++ filed) ["report", "log"] with
  | error message => simp [found, Except.toOption] at run
  | ok answer =>
      obtain ⟨reachable, free, loaded, begun, writable, settled_iff⟩ := outcome_ok found
      have settled := (rows_eq_iff_settled reachable free loaded begun).mp
        (equal _ _ _ _ reachable free loaded begun) writable
      have certain := (settled_iff Hex.zero.digest).mp (settled Hex.zero.digest)
      have last : ∀ type, Table.lastAt (evidenceRows [evidence type]) Hex.zero.digest =
          some [.document (.evidence (evidence type))] := by
        intro type
        simp [Table.lastAt, evidenceRows, evidence]
      have same := certain _ (List.mem_map_of_mem (by simp)) _ (last "report") _
        (List.mem_map_of_mem (by simp)) _ (last "log")
      simp [evidence] at same

open SampleProjection in
/-- After the start of the task no evidence is filed, and every projection at the head is like every
rebuild. -/
theorem rehearsal_equivalence_started :
  ∃ (journal : List Segment) (s : State), journal ≠ [] ∧
    reduceSegments .numbered "p" journal = .ok s ∧
    ∀ db, Projected .numbered "p" journal db → db.AtHead journal →
      ∀ (o : Orders s) (rebuilt : Database), rebuild o journal = .ok rebuilt →
        db.rows = rebuilt.rows ∧ db.fingerprint (fun _ => .zero) = rebuilt.fingerprint fun _ => .zero
  := by
  have run := runs.2
  cases found : outcome started [] with
  | error message => simp [found, Except.toOption] at run
  | ok answer =>
      obtain ⟨journal, s⟩ := answer
      obtain ⟨reachable, free, loaded, begun, -, settled_iff⟩ := outcome_ok found
      refine ⟨journal, s, begun, loaded, ?_⟩
      apply (rehearsal_equivalence_iff reachable free loaded begun).1.mpr
      intro writable digest
      rw [settled_iff]
      simp [Table.Settled]

end Projection

end Dagrail
