import Dagrail.Foundation.Joined
import Dagrail.Domain.CutIndex
import Dagrail.Service.Runs

/-!
# References to dependency cuts

The audit before a wait binds its remediations to dependency cuts. It shows the first nodes of a cut
and a reference with the digest of all of them: the hash of their ids, joined by zero characters. Who
follows the reference gets the first cut of the state with the digest.
-/

namespace Dagrail

/-! ### Digests -/

/-- The digest of a cut. -/
def dependencyCutDigest (hash : HashFunction) (cut : List String) : String :=
  hash.joined cut

/-- The ids of a cut, each split at the zero characters inside of it. -/
def cutPieces (cut : List String) : List (List Char) :=
  Joined.pieces '\x00' (cut.map String.toList)

/-- Two cuts have the same join exactly when they have the same pieces. -/
theorem intercalate_eq_iff_cutPieces
    {cut cut' : List String} (some_ : cut ≠ []) (some' : cut' ≠ []) :
  "\x00".intercalate cut = "\x00".intercalate cut' ↔ cutPieces cut = cutPieces cut'
  := by
  rw [← String.toList_inj, String.toList_intercalate, String.toList_intercalate]
  exact Joined.intercalate_eq_iff (by simpa using some_) (by simpa using some')

/-- The pieces of a cut without zero characters are its ids. -/
theorem cutPieces_of_free
    {cut : List String} (free : ∀ nodeId ∈ cut, '\x00' ∉ nodeId.toList) :
  cutPieces cut = cut.map String.toList
  := by
  refine Joined.pieces_of_free ?_
  intro part mem
  obtain ⟨nodeId, known, rfl⟩ := List.mem_map.mp mem
  exact free nodeId known

/-! ### The audit -/

namespace State

variable (s : State)

/-- The effects without a final observation. -/
def pendingEffects : List String :=
  sortTexts ((s.effects.entries.filter fun entry =>
    [.prepared, .dispatched, .unknown, .reconciling].contains entry.2.status).map (·.1))

/-- The active resources of attempts that are over. -/
def orphanedResources : List String :=
  sortTexts ((s.resources.entries.filter fun entry =>
    entry.2.status = .active &&
      (s.attempts.lookup entry.2.attemptId).all fun attempt => attempt.status = .terminal).map (·.1))

/-- The incidents that are not resolved. -/
def openIncidents : List String :=
  sortTexts ((s.incidents.entries.filter fun entry => entry.2.status ≠ .resolved).map (·.1))

end State

/-- How many nodes of a cut are shown. -/
def dependencyCutPreview : Nat := 4

/-- What a remediation is about, and the cut it is bound to. -/
structure Remediation where
  targetRef : String
  dependencyCutCount : Nat := 0
  dependencyCutDigest : String := ""
  dependencyCutRef : String := ""
  dependencyCut : List String := []

/-- Bind a remediation to a cut. -/
def bindDependencyCut (hash : HashFunction) (remediation : Remediation) (cut : List String) :
    Remediation :=
  if cut = [] then remediation
  else
    { remediation with
      dependencyCutCount := cut.length
      dependencyCutDigest := digestPrefix ++ dependencyCutDigest hash cut
      dependencyCutRef := "dependency-cut:" ++ dependencyCutDigest hash cut ++ ":0"
      dependencyCut := cut.take dependencyCutPreview }

/-- The cuts of nodes, asked of one index in a row. -/
def DependencyCutIndex.cutEach (index : DependencyCutIndex) : List String → List (List String)
  | [] => []
  | root :: rest =>
      let (cut, index) := index.cutContext root
      cut :: index.cutEach rest

/-- The targets of the remediations about effects and resources, with their nodes. -/
def State.cutTargets (s : State) : List (String × String) :=
  (s.pendingEffects.map fun id => ("effect:" ++ id, (s.effects.get id).nodeId))
    ++ s.orphanedResources.map fun id => ("resource:" ++ id, (s.resources.get id).nodeId)

/-- The remediations that are bound to cuts, each with the whole cut: the cuts of effects and resources
are computed, those of incidents were recorded when the incidents were opened. -/
def cutRemediations (hash : HashFunction) (s : State) : List (List String × Remediation) :=
  let computed := (newDependencyCutIndex s).cutEach (s.cutTargets.map (·.2))
  let bound := (s.cutTargets.map (·.1)).zip computed
    ++ s.openIncidents.map fun id => ("incident:" ++ id, ((s.incidents.get id).dependencyCut.getD []))
  bound.map fun (targetRef, cut) => (cut, bindDependencyCut hash { targetRef } cut)

/-! ### Resolution -/

/-- The first node whose cut has the digest. -/
def DependencyCutIndex.findDigest (hash : HashFunction) (digest : String)
    (index : DependencyCutIndex) : List String → Option (List String)
  | [] => none
  | nodeId :: rest =>
      let (cut, index) := index.cutContext nodeId
      if cut ≠ [] ∧ dependencyCutDigest hash cut = digest then some cut
      else index.findDigest hash digest rest

/-- The cut with a digest, for the orders in which the incidents and the nodes are visited. -/
def dependencyCutByDigest (hash : HashFunction) (s : State) (incidents : List Incident)
    (nodes : List String) (digest : String) : Option (List String) :=
  match incidents.find? fun incident =>
      incident.dependencyCut.getD [] ≠ [] ∧
        dependencyCutDigest hash (incident.dependencyCut.getD []) = digest with
  | some incident => some (incident.dependencyCut.getD [])
  | none => (newDependencyCutIndex s).findDigest hash digest nodes

namespace State

variable (s : State)

/-- The nodes of the effects and the resources. -/
def cutNodes : List String :=
  s.effects.values.map (·.nodeId) ++ s.resources.values.map (·.nodeId)

/-- Orders in which the incidents and the nodes of the effects and resources may be visited. -/
structure Visits (incidents : List Incident) (nodes : List String) : Prop where
  incidents : incidents.Perm s.incidents.values
  nodup : nodes.Nodup
  nodes : ∀ nodeId, nodeId ∈ nodes ↔ nodeId ∈ s.cutNodes

/-- The cuts of the state: those recorded with its incidents, and those of the nodes of its effects and
resources. -/
def dependencyCuts : List (List String) :=
  (s.incidents.values.map (·.dependencyCut.getD [])
    ++ s.cutNodes.map fun nodeId => (dependencyCut s nodeId).getD []).filter (· ≠ [])

end State

variable {hash : HashFunction} {s : State}

/-- An index gives the cuts of the state. -/
theorem DependencyCutIndex.Exact.cutEach
    {index : DependencyCutIndex} (exact_ : Exact s index) (roots : List String) :
  index.cutEach roots = roots.map fun root => (dependencyCut s root).getD []
  := by
  induction roots generalizing index with
  | nil => rfl
  | cons root rest ih =>
      obtain ⟨cut, after⟩ := exact_.cutContext root
      rw [DependencyCutIndex.cutEach, List.map_cons, ← cut, ← ih after]

/-- Is the text the digest of the cut? A cut without nodes has none. -/
def HasDigest (hash : HashFunction) (digest : String) (cut : List String) : Bool :=
  cut ≠ [] ∧ dependencyCutDigest hash cut = digest

/-- The search over nodes finds the first cut of the state with the digest. -/
theorem DependencyCutIndex.Exact.findDigest
    {index : DependencyCutIndex} (exact_ : Exact s index) (digest : String) (nodes : List String) :
  index.findDigest hash digest nodes
    = (nodes.map fun node => (dependencyCut s node).getD []).find? (HasDigest hash digest)
  := by
  induction nodes generalizing index with
  | nil => rfl
  | cons node rest ih =>
      obtain ⟨cut, after⟩ := exact_.cutContext node
      rw [List.map_cons, List.find?_cons, ← cut, ← ih after, DependencyCutIndex.findDigest]
      cases found : HasDigest hash digest (index.cutContext node).1 with
      | true =>
          simp only [HasDigest, decide_eq_true_eq] at found
          simp only [if_pos found]
      | false =>
          simp only [HasDigest, decide_eq_false_iff_not] at found
          simp only [if_neg found]

/-- What is found for a digest is the first cut with the digest among those of the incidents and the
nodes in the order they are visited. -/
theorem dependencyCutByDigest_eq
    (incidents : List Incident) (nodes : List String) (digest : String) :
  dependencyCutByDigest hash s incidents nodes digest
    = (incidents.map (·.dependencyCut.getD [])
        ++ nodes.map fun nodeId => (dependencyCut s nodeId).getD []).find? (HasDigest hash digest)
  := by
  rw [List.find?_append, List.find?_map, dependencyCutByDigest,
    (DependencyCutIndex.Exact.new s).findDigest]
  have same : (HasDigest hash digest ∘ fun incident : Incident => incident.dependencyCut.getD [])
      = fun incident : Incident => decide (incident.dependencyCut.getD [] ≠ [] ∧
        dependencyCutDigest hash (incident.dependencyCut.getD []) = digest) := rfl
  rw [same]
  split <;> rename_i found <;> rw [found] <;> rfl

variable {incidents : List Incident} {nodes : List String} {digest : String} {cut : List String}

/-- What is found for a digest is a cut of the state with the digest. -/
theorem dependencyCutByDigest_some
    (visits : s.Visits incidents nodes)
    (found : dependencyCutByDigest hash s incidents nodes digest = some cut) :
  cut ∈ s.dependencyCuts ∧ dependencyCutDigest hash cut = digest
  := by
  rw [dependencyCutByDigest_eq] at found
  have has := List.find?_some found
  have mem := List.mem_of_find?_eq_some found
  simp only [HasDigest, decide_eq_true_eq] at has
  refine ⟨?_, has.2⟩
  simp only [State.dependencyCuts, List.mem_filter, List.mem_append, List.mem_map,
    decide_eq_true_eq] at mem ⊢
  refine ⟨?_, has.1⟩
  rcases mem with ⟨incident, known, rfl⟩ | ⟨nodeId, known, rfl⟩
  · exact .inl ⟨incident, visits.incidents.mem_iff.mp known, rfl⟩
  · exact .inr ⟨nodeId, (visits.nodes nodeId).mp known, rfl⟩

/-- Something is found for the digest of a cut of the state. -/
theorem dependencyCutByDigest_isSome
    (visits : s.Visits incidents nodes) (mem : cut ∈ s.dependencyCuts) :
  (dependencyCutByDigest hash s incidents nodes (dependencyCutDigest hash cut)).isSome
  := by
  simp only [State.dependencyCuts, List.mem_filter, List.mem_append, List.mem_map,
    decide_eq_true_eq] at mem
  obtain ⟨mem, some_⟩ := mem
  rw [dependencyCutByDigest_eq, List.find?_isSome]
  refine ⟨cut, ?_, by simp [HasDigest, some_]⟩
  simp only [List.mem_append, List.mem_map]
  rcases mem with ⟨incident, known, rfl⟩ | ⟨nodeId, known, rfl⟩
  · exact .inl ⟨incident, visits.incidents.mem_iff.mpr known, rfl⟩
  · exact .inr ⟨nodeId, (visits.nodes nodeId).mpr known, rfl⟩

/-! ### What the audit shows -/

/-- An entry that a filter keeps is one of the table. -/
theorem get_mem_values
    {β : Type} [Inhabited β] {t : Table β} {keep : (_ : String) × β → Bool} {id : String}
    (mem : id ∈ sortTexts ((t.entries.filter keep).map (·.1))) :
  t.get id ∈ t.values
  := by
  simp only [mem_sortTexts, List.mem_map, List.mem_filter] at mem
  obtain ⟨entry, ⟨known, -⟩, rfl⟩ := mem
  have found : t.lookup entry.1 = some entry.2 := AList.mem_lookup_iff.mpr known
  rw [Table.get_of_lookup found]
  exact List.mem_map_of_mem known

/-- The targets of remediations are at nodes of effects and resources. -/
theorem State.mem_cutNodes_of_cutTargets
    {targetRef nodeId : String} (mem : (targetRef, nodeId) ∈ s.cutTargets) :
  nodeId ∈ s.cutNodes
  := by
  simp only [State.cutTargets, List.mem_append, List.mem_map, Prod.mk.injEq] at mem
  simp only [State.cutNodes, List.mem_append, List.mem_map]
  rcases mem with ⟨id, pending, -, rfl⟩ | ⟨id, orphaned, -, rfl⟩
  · exact .inl ⟨_, get_mem_values pending, rfl⟩
  · exact .inr ⟨_, get_mem_values orphaned, rfl⟩

/-- A remediation with a digest is bound to a cut of the state. -/
theorem mem_dependencyCuts_of_cutRemediations
    {remediation : Remediation} (shown : (cut, remediation) ∈ cutRemediations hash s)
    (bound : remediation.dependencyCutDigest = digestPrefix ++ digest) :
  cut ∈ s.dependencyCuts ∧ digest = dependencyCutDigest hash cut
  := by
  simp only [cutRemediations, List.mem_map, List.mem_append, Prod.mk.injEq, Prod.exists,
    (DependencyCutIndex.Exact.new s).cutEach, List.map_map] at shown
  obtain ⟨targetRef, _, source, rfl, rfl⟩ := shown
  unfold bindDependencyCut at bound
  split at bound
  · have := congrArg String.toList bound
    simp [digestPrefix] at this
  · rename_i some_
    refine ⟨?_, ((String.append_right_inj _).mp bound).symm⟩
    simp only [State.dependencyCuts, List.mem_filter, List.mem_append, List.mem_map,
      decide_eq_true_eq]
    refine ⟨?_, some_⟩
    rcases source with zipped | ⟨id, opened, -, rfl⟩
    · rw [List.zip_map', List.mem_map] at zipped
      obtain ⟨⟨targetRef', nodeId⟩, mem, same⟩ := zipped
      obtain ⟨-, rfl⟩ := Prod.mk.inj same
      exact .inr ⟨nodeId, State.mem_cutNodes_of_cutTargets mem, rfl⟩
    · exact .inl ⟨_, get_mem_values opened, rfl⟩

/-- References denote their cuts: what is found for the digest of a remediation is the cut it is bound
to, in whatever order the state is visited, and different cuts of the state have different digests. -/
def CutRefsDenote (hash : HashFunction) (s : State) : Prop :=
  (∀ cut remediation, (cut, remediation) ∈ cutRemediations hash s →
    ∀ digest, remediation.dependencyCutDigest = digestPrefix ++ digest →
    ∀ incidents nodes, s.Visits incidents nodes →
      dependencyCutByDigest hash s incidents nodes digest = some cut) ∧
  ∀ cut ∈ s.dependencyCuts, ∀ cut' ∈ s.dependencyCuts,
    dependencyCutDigest hash cut = dependencyCutDigest hash cut' → cut = cut'

/-- The hash tells the joined texts of the cuts of the state apart. -/
def SeparatesCuts (hash : HashFunction) (s : State) : Prop :=
  ∀ cut ∈ s.dependencyCuts, ∀ cut' ∈ s.dependencyCuts,
    hash (.joined ("\x00".intercalate cut)) = hash (.joined ("\x00".intercalate cut')) →
      "\x00".intercalate cut = "\x00".intercalate cut'

/-- If different cuts have different digests, what is found for a digest is its cut. -/
theorem CutRefsDenote.of_injective
    (injective : ∀ cut ∈ s.dependencyCuts, ∀ cut' ∈ s.dependencyCuts,
      dependencyCutDigest hash cut = dependencyCutDigest hash cut' → cut = cut') :
  CutRefsDenote hash s
  := by
  refine ⟨?_, injective⟩
  intro cut remediation shown digest bound incidents nodes visits
  obtain ⟨mem, rfl⟩ := mem_dependencyCuts_of_cutRemediations shown bound
  have some_ := @dependencyCutByDigest_isSome hash s incidents nodes cut visits mem
  obtain ⟨found, known⟩ := Option.isSome_iff_exists.mp some_
  obtain ⟨mem', same⟩ := dependencyCutByDigest_some visits known
  rw [known, injective found mem' cut mem same]

/-- The members of the cuts of a state are not empty lists. -/
theorem ne_nil_of_mem_dependencyCuts
    (mem : cut ∈ s.dependencyCuts) :
  cut ≠ []
  := by
  simp only [State.dependencyCuts, List.mem_filter, decide_eq_true_eq] at mem
  exact mem.2

/-- Unless the hash collides, two cuts of a state have the same digest exactly when they have the same
pieces. -/
theorem dependencyCutDigest_eq_iff
    (separates : SeparatesCuts hash s) {cut' : List String} (mem : cut ∈ s.dependencyCuts)
    (mem' : cut' ∈ s.dependencyCuts) :
  dependencyCutDigest hash cut = dependencyCutDigest hash cut' ↔ cutPieces cut = cutPieces cut'
  := by
  rw [← intercalate_eq_iff_cutPieces (ne_nil_of_mem_dependencyCuts mem)
    (ne_nil_of_mem_dependencyCuts mem')]
  constructor
  · intro same
    exact separates cut mem cut' mem' (Hex.text_injective same)
  · intro same
    rw [dependencyCutDigest, HashFunction.joined, same]
    rfl

/-- Without zero characters in the ids of its cuts, the references of a state denote their cuts. -/
theorem cutRefsDenote_of_free
    (separates : SeparatesCuts hash s)
    (free : ∀ cut ∈ s.dependencyCuts, ∀ nodeId ∈ cut, '\x00' ∉ nodeId.toList) :
  CutRefsDenote hash s
  := by
  refine .of_injective fun cut mem cut' mem' same => ?_
  rw [dependencyCutDigest_eq_iff separates mem mem', cutPieces_of_free (free cut mem),
    cutPieces_of_free (free cut' mem')] at same
  exact List.map_injective_iff.mpr (fun a b => String.toList_inj.mp) same

/-- Unless the hash collides, the references of a state denote their cuts exactly when no two different
cuts of the state have the same pieces between the zero characters. -/
theorem cutRefsDenote_iff
    (separates : SeparatesCuts hash s) :
  CutRefsDenote hash s ↔
    ∀ cut ∈ s.dependencyCuts, ∀ cut' ∈ s.dependencyCuts, cutPieces cut = cutPieces cut' → cut = cut'
  := by
  constructor
  · rintro ⟨-, injective⟩ cut mem cut' mem' same
    exact injective cut mem cut' mem' ((dependencyCutDigest_eq_iff separates mem mem').mpr same)
  · intro apart
    refine .of_injective fun cut mem cut' mem' same => ?_
    exact apart cut mem cut' mem' ((dependencyCutDigest_eq_iff separates mem mem').mp same)

/-! ### An identifier with a zero character -/

namespace SampleCut

/-- A task that may fail. -/
def task (id : String) : NodeDefinition :=
  { id, title := id, kind := .task, role := "ops", objective := id
    outcomes := [⟨"done", .success⟩, ⟨"failed", .failure⟩] }

/-- An edge that asks for the success of its source. -/
def edge (source target : String) : EdgeDefinition :=
  { id := source ++ target, source, target, when := { outcome := "done" } }

/-- The first task holds up two nodes in a row, and the second one the given node. -/
def graph (held : String) : GraphDefinition where
  apiVersion := graphAPIVersion
  kind := graphKind
  metadata := { name := "sample" }
  spec :=
    { roles := [{ id := "ops", capabilities := [.nodeRun] }]
      nodes := [task "x", task "a", task "b", task "y", task held]
      edges := [edge "x" "a", edge "a" "b", edge "y" held] }

/-- A reference to an action on a node after the given number of segments. -/
def ref (head : Nat) (kind nodeId attemptId : String) : ActionRef where
  projectId := "p"
  headHash := numberedText head
  graphRevision := Hex.zero.text
  providerSet := Hex.zero.text
  roleId := "ops"
  sessionId := "first"
  nodeId
  attemptId
  kind
  expiresAt := .utc 1
  subject := [nodeId, kind]

/-- Start a node. -/
def start (head : Nat) (nodeId : String) : Call :=
  .apply
    { ref := ref head "node.start" nodeId "", input := .obj []
      idempotencyKey := "start " ++ nodeId }

/-- End the attempt of a node with a failure. -/
def fail (head : Nat) (nodeId attemptId : String) : Call :=
  .apply
    { ref := ref head "task.complete" nodeId attemptId
      input := .obj [("outcome", .str "failed")], idempotencyKey := "fail " ++ nodeId }

/-- The graph is imported, the role is bound, and both tasks fail. -/
def calls (held : String) : List (Nat × Call) :=
  [(0, .importGraph
      { graph := graph held, idempotencyKey := "import", actorRole := "ops", requestDigest := "" }),
   (0, .bindRole
      { roleId := "ops", harness := "cli", sessionId := "first", ttl := 0, idempotencyKey := "bind" }),
   (0, start 2 "x"),
   (9, fail 3 "x" "00"),
   (9, start 4 "y"),
   (99, fail 5 "y" "00000000000")]

/-- The cuts of the incidents after the calls. -/
theorem reached
    {held : String} {cuts : List (List String)}
    (run : (commitEach .numbered "p" 0 [] (calls held) >>= fun journal =>
      reduceSegments .numbered "p" journal >>= fun s => .ok s.dependencyCuts) = .ok cuts) :
  ∃ w s, Reachable .numbered "p" (fun _ _ => True) w ∧
    reduceSegments .numbered "p" w.journal = .ok s ∧ s.dependencyCuts = cuts
  := by
  simp only [bind_eq_ok, Except.ok.injEq] at run
  obtain ⟨journal, committed, s, loaded, same⟩ := run
  have start : Reachable .numbered "p" (fun _ _ => True) (World.initial [] 0) :=
    ⟨[], 0, .empty, .refl⟩
  exact ⟨_, s, reachable_of_commitEach start (fun _ _ _ => trivial) committed, loaded, same⟩

end SampleCut

open SampleCut in
/-- A state is reachable in which two cuts share their digest, whatever the hash: the one of the first
incident has two nodes, and the one of the second incident has a node with the joined id of the two. -/
theorem cutRefs_collide :
  ∃ w s, Reachable .numbered "p" (fun _ _ => True) w ∧
    reduceSegments .numbered "p" w.journal = .ok s ∧
    ∀ hash, SeparatesCuts hash s ∧ ¬ CutRefsDenote hash s
  := by
  obtain ⟨w, s, reachable, loaded, cuts⟩ :=
    @reached "a\x00b" [["a\x00b"], ["a", "b"]] (by decide +kernel)
  have joined : "\x00".intercalate ["a\x00b"] = "\x00".intercalate ["a", "b"] := by decide
  refine ⟨w, s, reachable, loaded, fun hash => ⟨?_, ?_⟩⟩
  · intro cut mem cut' mem' _
    simp only [cuts, List.mem_cons, List.not_mem_nil, or_false] at mem mem'
    rcases mem with rfl | rfl <;> rcases mem' with rfl | rfl <;> simp only [joined]
  · rintro ⟨-, injective⟩
    have same := injective ["a\x00b"] (by simp [cuts]) ["a", "b"] (by simp [cuts])
      (by simp only [dependencyCutDigest, HashFunction.joined, joined])
    simp at same

open SampleCut in
/-- A reachable state with two cuts whose references denote them. -/
theorem cutRefsDenote_iff_sample :
  ∃ w s, ∃ hash : HashFunction, Reachable .numbered "p" (fun _ _ => True) w ∧
    reduceSegments .numbered "p" w.journal = .ok s ∧ CutRefsDenote hash s
  := by
  obtain ⟨w, s, reachable, loaded, cuts⟩ :=
    @reached "c" [["c"], ["a", "b"]] (by decide +kernel)
  let hash : HashFunction
    | .joined text => if text = "c" then ⟨numberedText 1, validBareHash_numberedText 1⟩ else Hex.zero
    | _ => Hex.zero
  have separates : SeparatesCuts hash s := by
    intro cut mem cut' mem'
    simp only [cuts, List.mem_cons, List.not_mem_nil, or_false] at mem mem'
    rcases mem with rfl | rfl <;> rcases mem' with rfl | rfl
    · exact fun _ => rfl
    · exact fun same => absurd (congrArg Hex.text same) (by decide)
    · exact fun same => absurd (congrArg Hex.text same) (by decide)
    · exact fun _ => rfl
  refine ⟨w, s, hash, reachable, loaded, (cutRefsDenote_iff separates).mpr ?_⟩
  intro cut mem cut' mem'
  simp only [cuts, List.mem_cons, List.not_mem_nil, or_false] at mem mem'
  rcases mem with rfl | rfl <;> rcases mem' with rfl | rfl
  all_goals decide

end Dagrail
