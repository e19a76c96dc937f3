import Dagrail.Foundation.Rows
import Dagrail.Service.Writes

/-!
# The projection

The projection is a database of rows derived from the state and the journal it was replayed from. It
is written as a whole: a synchronization leaves a database alone that has reached the head of the
journal, and else deletes every row and writes all of them again; a rebuild starts from an empty
database. The records of a map of the state are written in whatever order the map is iterated in.

Rows have new keys, with one exception: the metadata of a piece of evidence replaces what was
filed under its digest before.
-/

namespace Dagrail

namespace Projection

/-! ### Rows -/

/-- A value that is stored as its JSON text. -/
inductive Document where
  | graph (value : GraphDefinition)
  | predicate (value : Predicate)
  | capabilities (value : List Capability)
  | lease (value : RoleLease)
  | checkpoint (value : Checkpoint)
  | evidence (value : EvidenceRef)
  | artifact (value : ArtifactRef)
  | decision (value : DecisionRecord)
  | package (value : ExecutionPackage)
  | reuse (value : ReuseDecision)
  | action (value : ActionRecord)
  | effect (value : EffectAction)
  | resource (value : ResourceLease)
  | incident (value : Incident)
  | state (value : State)

/-- A value in a column. -/
inductive Cell where
  | null
  | integer (value : Int)
  | text (value : String)
  | stamp (value : Stamp)
  | document (value : Document)

/-- A text that is stored as no value when it is empty. -/
def nullable (value : String) : Cell :=
  if value = "" then .null else .text value

/-- The key of a row, and the columns behind it. -/
abbrev Entry := String × List Cell

/-- A row of the applied segments. -/
structure AppliedSegment where
  sequence : Nat
  hash : String
  schema : Nat

/-- The tables of the database. -/
structure Database where
  metadata : Table (List Cell) := ∅
  appliedSegments : List AppliedSegment := []
  graphRevisions : Table (List Cell) := ∅
  nodes : Table (List Cell) := ∅
  edges : Table (List Cell) := ∅
  roles : Table (List Cell) := ∅
  attempts : Table (List Cell) := ∅
  roleLeases : Table (List Cell) := ∅
  checkpoints : Table (List Cell) := ∅
  decisions : Table (List Cell) := ∅
  evidencePackages : Table (List Cell) := ∅
  reuseDecisions : Table (List Cell) := ∅
  actions : Table (List Cell) := ∅
  outbox : Table (List Cell) := ∅
  incidents : Table (List Cell) := ∅
  resources : Table (List Cell) := ∅
  evidenceIndex : Table (List Cell) := ∅

def nodeRow (s : State) (node : NodeDefinition) : Entry :=
  (node.id, [.text node.kind.text, nullable node.role, .text (s.nodes.get node.id).status.text,
    nullable (s.nodes.get node.id).outcome])

def edgeRow (edge : EdgeDefinition) : Entry :=
  (edge.id, [.text edge.source, .text edge.target, .document (.predicate edge.when)])

def roleRow (role : RoleDefinition) : Entry :=
  (role.id, [.document (.capabilities role.capabilities)])

def attemptRow (attempt : Attempt) : Entry :=
  (attempt.id, [.text attempt.nodeId, .text attempt.status.text, nullable attempt.outcome,
    nullable attempt.checkpointId])

def leaseRow (lease : RoleLease) : Entry :=
  (lease.roleId, [.document (.lease lease), .stamp lease.expiresAt])

def checkpointRow (checkpoint : Checkpoint) : Entry :=
  (checkpoint.id, [.text checkpoint.attemptId, .document (.checkpoint checkpoint)])

def decisionRow (decision : DecisionRecord) : Entry :=
  (decision.id, [.text decision.attemptId, .text decision.nodeId, .text decision.outcome,
    .document (.decision decision), .integer decision.sequence])

def packageRow (pack : ExecutionPackage) : Entry :=
  (pack.id, [.text pack.attemptId, .text pack.nodeId, .text pack.coreDigest,
    .document (.package pack), .integer pack.sequence])

def reuseRow (decision : ReuseDecision) : Entry :=
  (decision.id, [.text decision.packageId, .text decision.result, .document (.reuse decision),
    .integer decision.sequence])

def actionRow (action : ActionRecord) : Entry :=
  (action.id, [.document (.action action), .text action.status.text])

def effectRow (effect : EffectAction) : Entry :=
  (effect.id, [.document (.effect effect), .text effect.status.text])

def resourceRow (resource : ResourceLease) : Entry :=
  (resource.id, [.document (.resource resource), .text resource.status.text])

def incidentRow (incident : Incident) : Entry :=
  (incident.id, [.document (.incident incident), .text incident.status.text])

/-- The metadata of the evidence of a checkpoint or decision. -/
def evidenceRows (refs : List EvidenceRef) : List Entry :=
  refs.map fun ref => (ref.digest, [.document (.evidence ref)])

/-- The metadata of the artifacts of a package. -/
def artifactRows (pack : ExecutionPackage) : List Entry :=
  ([pack.candidate, pack.prospectiveTree] ++ pack.artifacts.getD []).map fun artifact =>
    (artifact.digest, [.document (.artifact artifact)])

/-! ### Writing -/

/-- The orders in which the maps of a state are iterated. -/
structure Orders (s : State) where
  attempts : List Attempt
  attempts_perm : attempts.Perm s.attempts.values
  leases : List RoleLease
  leases_perm : leases.Perm s.leases.values
  checkpoints : List Checkpoint
  checkpoints_perm : checkpoints.Perm s.checkpoints.values
  decisions : List DecisionRecord
  decisions_perm : decisions.Perm s.decisions.values
  packages : List ExecutionPackage
  packages_perm : packages.Perm s.evidencePackages.values
  reuse : List ReuseDecision
  reuse_perm : reuse.Perm s.reuseDecisions.values
  actions : List ActionRecord
  actions_perm : actions.Perm s.actions.values
  effects : List EffectAction
  effects_perm : effects.Perm s.effects.values
  resources : List ResourceLease
  resources_perm : resources.Perm s.resources.values
  incidents : List Incident
  incidents_perm : incidents.Perm s.incidents.values

/-- The orders of the tables themselves. -/
def Orders.own (s : State) : Orders s where
  attempts := s.attempts.values
  attempts_perm := .refl _
  leases := s.leases.values
  leases_perm := .refl _
  checkpoints := s.checkpoints.values
  checkpoints_perm := .refl _
  decisions := s.decisions.values
  decisions_perm := .refl _
  packages := s.evidencePackages.values
  packages_perm := .refl _
  reuse := s.reuseDecisions.values
  reuse_perm := .refl _
  actions := s.actions.values
  actions_perm := .refl _
  effects := s.effects.values
  effects_perm := .refl _
  resources := s.resources.values
  resources_perm := .refl _
  incidents := s.incidents.values
  incidents_perm := .refl _

/-- What the database says when a key is not new. -/
def keyTaken (column : String) : String :=
  "UNIQUE constraint failed: " ++ column

/-- The rows of the graph. -/
def writeGraph (s : State) (segments : List Segment) : Fallible Database :=
  match s.graph with
  | none => .ok {}
  | some graph => do
      let nodes ← Table.fill (keyTaken "nodes.node_id") (graph.spec.nodes.map (nodeRow s))
      let edges ← Table.fill (keyTaken "edges.edge_id") (graph.spec.edges.map edgeRow)
      let roles ← Table.fill (keyTaken "roles.role_id") (graph.spec.roles.map roleRow)
      .ok
        { graphRevisions := (∅ : Table (List Cell)).insert s.graphRevision
            [.document (.graph graph), .integer (headSequenceOf segments)]
          nodes, edges, roles }

/-- The row of a segment, behind those of the segments before. -/
def applySegment (applied : List AppliedSegment) (segment : Segment) :
    Fallible (List AppliedSegment) := do
  check (applied.all fun row => row.sequence ≠ segment.sequence) (keyTaken "applied_segments.sequence")
  check (applied.all fun row => row.hash ≠ segment.segmentHash) (keyTaken "applied_segments.hash")
  .ok (applied ++ [⟨segment.sequence, segment.segmentHash, segment.schemaVersion⟩])

/-- The metadata of the evidence, one list for each checkpoint. -/
def checkpointEvidence (checkpoints : List Checkpoint) : List (List Entry) :=
  checkpoints.map fun checkpoint => evidenceRows checkpoint.evidenceRefs

/-- The metadata of the evidence, one list for each decision. -/
def decisionEvidence (decisions : List DecisionRecord) : List (List Entry) :=
  decisions.map fun decision => evidenceRows decision.evidenceRefs

/-- The metadata of all evidence, of the checkpoints first and of the packages last. It is written
along with the records, and writing it cannot fail. -/
def Orders.index {s : State} (o : Orders s) : List Entry :=
  (checkpointEvidence o.checkpoints).flatten ++ (decisionEvidence o.decisions).flatten
    ++ (o.packages.map artifactRows).flatten

/-- Write all rows into a database without rows. -/
def write {s : State} (o : Orders s) (segments : List Segment) : Fallible Database := do
  let db ← writeGraph s segments
  let attempts ← Table.fill (keyTaken "attempts.attempt_id") (o.attempts.map attemptRow)
  let roleLeases ← Table.fill (keyTaken "role_leases.role_id") (o.leases.map leaseRow)
  let checkpoints ← Table.fill (keyTaken "checkpoints.checkpoint_id")
    (o.checkpoints.map checkpointRow)
  let decisions ← Table.fill (keyTaken "decisions.decision_id") (o.decisions.map decisionRow)
  let evidencePackages ← Table.fill (keyTaken "evidence_packages.package_id")
    (o.packages.map packageRow)
  let reuseDecisions ← Table.fill (keyTaken "reuse_decisions.decision_id") (o.reuse.map reuseRow)
  let actions ← Table.fill (keyTaken "actions.action_id") (o.actions.map actionRow)
  let outbox ← Table.fill (keyTaken "outbox.action_id") (o.effects.map effectRow)
  let resources ← Table.fill (keyTaken "resources.resource_id") (o.resources.map resourceRow)
  let incidents ← Table.fill (keyTaken "incidents.incident_id") (o.incidents.map incidentRow)
  let appliedSegments ← segments.foldlM applySegment []
  .ok { db with
    attempts, roleLeases, checkpoints, decisions, evidencePackages, reuseDecisions, actions, outbox,
    resources, incidents, appliedSegments
    metadata := (∅ : Table (List Cell)).insert "state" [.document (.state s)]
    evidenceIndex := Table.overlay o.index ∅ }

namespace Database

/-- The applied segments in the order of their sequence numbers. -/
def applied (db : Database) : List AppliedSegment :=
  db.appliedSegments.insertionSort fun a b => a.sequence ≤ b.sequence

/-- The last applied segment. -/
def cursor (db : Database) : Option AppliedSegment :=
  db.applied.getLast?

end Database

/-- Bring a database to the head of a journal that was replayed to the state. -/
def sync (db : Database) {s : State} (o : Orders s) (segments : List Segment) : Fallible Database :=
  match db.cursor with
  | none => write o segments
  | some current =>
      if headSequenceOf segments < current.sequence then .ok db
      else if current.sequence = headSequenceOf segments then do
        check (current.hash = headHashOf segments) "projection cursor conflicts with journal prefix"
        .ok db
      else write o segments

/-- Delete the database and write it again. -/
def rebuild {s : State} (o : Orders s) (segments : List Segment) : Fallible Database :=
  sync {} o segments

/-! ### The logical fingerprint -/

/-- The rows of a table in the order of their keys. -/
def rowsOf (t : Table (List Cell)) : List (List Cell) :=
  t.ordered.map fun e => .text e.1 :: e.2

/-- Every table with its rows, in the order of the fingerprint. -/
def Database.rows (db : Database) : List (String × List (List Cell)) :=
  [("metadata", rowsOf db.metadata),
   ("applied_segments", db.applied.map fun row =>
      [.integer row.sequence, .text row.hash, .integer row.schema]),
   ("graph_revisions", rowsOf db.graphRevisions), ("nodes", rowsOf db.nodes),
   ("edges", rowsOf db.edges), ("roles", rowsOf db.roles), ("attempts", rowsOf db.attempts),
   ("role_leases", rowsOf db.roleLeases), ("checkpoints", rowsOf db.checkpoints),
   ("decisions", rowsOf db.decisions), ("evidence_packages", rowsOf db.evidencePackages),
   ("reuse_decisions", rowsOf db.reuseDecisions), ("actions", rowsOf db.actions),
   ("outbox", rowsOf db.outbox), ("incidents", rowsOf db.incidents),
   ("resources", rowsOf db.resources), ("evidence_index", rowsOf db.evidenceIndex)]

/-- The version of the tables. -/
def currentSchemaVersion : Int := 4

/-- The values of a table: its name, and each row behind the number of its columns. -/
def tableStream (table : String × List (List Cell)) : List Cell :=
  .text table.1 :: (table.2.map fun row => Cell.integer row.length :: row).flatten

/-- The values that are hashed, each with its type and length. -/
def Database.stream (db : Database) : List Cell :=
  .integer currentSchemaVersion :: (db.rows.map tableStream).flatten

/-- The fingerprint of a database, under the hash of a list of values. -/
def Database.fingerprint (hash : List Cell → Hex) (db : Database) : String :=
  (hash db.stream).digest

/-- The rows of a table come back from its values, whatever is behind them, as long as that does not
begin with a number. -/
theorem rows_of_stream
    {rows rows' : List (List Cell)} {rest rest' : List Cell}
    (stop : ∀ n more, rest ≠ .integer n :: more) (stop' : ∀ n more, rest' ≠ .integer n :: more)
    (same : (rows.map fun row => Cell.integer row.length :: row).flatten ++ rest =
      (rows'.map fun row => Cell.integer row.length :: row).flatten ++ rest') :
  rows = rows' ∧ rest = rest'
  := by
  induction rows generalizing rows' with
  | nil =>
      cases rows' with
      | nil => exact ⟨rfl, same⟩
      | cons row' rows' => exact absurd same (stop _ _)
  | cons row rows ih =>
      cases rows' with
      | nil => exact absurd same.symm (stop' _ _)
      | cons row' rows' =>
          simp only [List.map_cons, List.flatten_cons, List.cons_append, List.cons.injEq,
            Cell.integer.injEq, Int.ofNat_inj, List.append_assoc] at same
          obtain ⟨length, same⟩ := same
          obtain ⟨rfl, behind⟩ := List.append_inj same length
          obtain ⟨rfl, rfl⟩ := ih behind
          exact ⟨rfl, rfl⟩

/-- The tables come back from their values, if they have the same names. -/
theorem tables_of_stream
    {tables tables' : List (String × List (List Cell))}
    (names : tables.map Prod.fst = tables'.map Prod.fst)
    (same : (tables.map tableStream).flatten = (tables'.map tableStream).flatten) :
  tables = tables'
  := by
  have stop : ∀ (tables : List (String × List (List Cell))) n more,
      (tables.map tableStream).flatten ≠ .integer n :: more := by
    intro tables n more
    cases tables <;> simp [tableStream]
  induction tables generalizing tables' with
  | nil =>
      rw [List.map_nil, eq_comm, List.map_eq_nil_iff] at names
      exact names.symm
  | cons table tables ih =>
      cases tables' with
      | nil => simp at names
      | cons table' tables' =>
          simp only [List.map_cons, List.cons.injEq] at names
          obtain ⟨name, names⟩ := names
          simp only [List.map_cons, List.flatten_cons, tableStream, List.cons_append, List.cons.injEq,
            name, true_and] at same
          obtain ⟨rows, same⟩ := rows_of_stream (stop _) (stop _) same
          rw [ih names same, Prod.ext name rows]

/-- Two databases have the same values exactly when they have the same rows. -/
theorem Database.stream_eq_iff
    {db db' : Database} :
  db.stream = db'.stream ↔ db.rows = db'.rows
  := by
  constructor
  · intro same
    have names : db.rows.map Prod.fst = db'.rows.map Prod.fst := rfl
    exact tables_of_stream names (List.cons.inj same).2
  · intro same
    unfold stream
    rw [same]

/-! ### What is written -/

/-- The tables of a database that was written, but for the index of the evidence. -/
structure Written {s : State} (o : Orders s) (segments : List Segment) (db : Database) : Prop where
  graph : ∃ base, writeGraph s segments = .ok base ∧ db.graphRevisions = base.graphRevisions ∧
    db.nodes = base.nodes ∧ db.edges = base.edges ∧ db.roles = base.roles
  attempts : Table.fill (keyTaken "attempts.attempt_id") (o.attempts.map attemptRow)
    = .ok db.attempts
  roleLeases : Table.fill (keyTaken "role_leases.role_id") (o.leases.map leaseRow)
    = .ok db.roleLeases
  checkpoints : Table.fill (keyTaken "checkpoints.checkpoint_id") (o.checkpoints.map checkpointRow)
    = .ok db.checkpoints
  decisions : Table.fill (keyTaken "decisions.decision_id") (o.decisions.map decisionRow)
    = .ok db.decisions
  evidencePackages : Table.fill (keyTaken "evidence_packages.package_id") (o.packages.map packageRow)
    = .ok db.evidencePackages
  reuseDecisions : Table.fill (keyTaken "reuse_decisions.decision_id") (o.reuse.map reuseRow)
    = .ok db.reuseDecisions
  actions : Table.fill (keyTaken "actions.action_id") (o.actions.map actionRow) = .ok db.actions
  outbox : Table.fill (keyTaken "outbox.action_id") (o.effects.map effectRow) = .ok db.outbox
  resources : Table.fill (keyTaken "resources.resource_id") (o.resources.map resourceRow)
    = .ok db.resources
  incidents : Table.fill (keyTaken "incidents.incident_id") (o.incidents.map incidentRow)
    = .ok db.incidents
  appliedSegments : segments.foldlM applySegment [] = .ok db.appliedSegments
  metadata : db.metadata = (∅ : Table (List Cell)).insert "state" [.document (.state s)]
  evidenceIndex : db.evidenceIndex = Table.overlay o.index ∅

/-- A database that was written has these tables. -/
theorem write_ok
    {s : State} {o : Orders s} {segments : List Segment} {db : Database}
    (h : write o segments = .ok db) :
  Written o segments db
  := by
  simp only [write, bind_eq_ok, Except.ok.injEq] at h
  obtain ⟨base, graph, _, attempts, _, leases, _, checkpoints, _, decisions, _, packages, _, reuse,
    _, actions, _, effects, _, resources, _, incidents, _, applied, rfl⟩ := h
  exact ⟨⟨base, graph, rfl, rfl, rfl, rfl⟩, attempts, leases, checkpoints, decisions, packages, reuse,
    actions, effects, resources, incidents, applied, rfl, rfl⟩

end Projection

end Dagrail
