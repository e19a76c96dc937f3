import Mathlib.Data.List.Dedup
import Dagrail.Foundation.Search
import Dagrail.Domain.Frontier

/-!
# Dependency cuts

The nodes a root holds up are the live ones that are reached, through live nodes only, from the heads
of the root's edges whose predicate the root does not satisfy. An index answers many such queries on
one state and keeps what it has computed: the cut of each root, and the nodes downstream of each head.
-/

namespace Dagrail

/-! ### Sorted texts -/

@[simp]
theorem mem_sortTexts
    {texts : List String} {text : String} :
  text ∈ sortTexts texts ↔ text ∈ texts
  := by
  simp [sortTexts]

/-- Sorting rearranges. -/
theorem sortTexts_perm
    (texts : List String) :
  (sortTexts texts).Perm texts
  := List.perm_insertionSort (· ≤ ·) texts

/-- Sorted texts are in order. -/
theorem sortTexts_sorted
    (texts : List String) :
  (sortTexts texts).Pairwise (· ≤ ·)
  := by
  have total : Std.Total fun a b : String => a ≤ b := ⟨String.le_total⟩
  have trans : IsTrans String fun a b => a ≤ b := ⟨fun _ _ _ => String.le_trans⟩
  exact List.pairwise_insertionSort (· ≤ ·) texts

/-- The order before sorting does not matter. -/
theorem sortTexts_congr
    {texts texts' : List String} (perm : texts.Perm texts') :
  sortTexts texts = sortTexts texts'
  := by
  have rearranged := (sortTexts_perm texts).trans (perm.trans (sortTexts_perm texts').symm)
  exact rearranged.eq_of_pairwise (fun a b _ _ => String.le_antisymm) (sortTexts_sorted texts)
    (sortTexts_sorted texts')

/-- Texts without repetition are sorted by what they are. -/
theorem sortTexts_congr_mem
    {texts texts' : List String} (nodup : texts.Nodup) (nodup' : texts'.Nodup)
    (same : ∀ text, text ∈ texts ↔ text ∈ texts') :
  sortTexts texts = sortTexts texts'
  := sortTexts_congr ((List.perm_ext_iff_of_nodup nodup nodup').mpr same)

/-- Sorted texts without repetition go up. -/
theorem sortTexts_increasing
    {texts : List String} (nodup : texts.Nodup) :
  (sortTexts texts).Pairwise (· < ·)
  := by
  have distinct : (sortTexts texts).Pairwise (· ≠ ·) := (sortTexts_perm texts).nodup_iff.mpr nodup
  refine ((sortTexts_sorted texts).and distinct).imp fun {a b} ⟨le, ne⟩ => ?_
  rw [← String.not_le]
  exact fun ge => ne (String.le_antisymm le ge)

/-! ### The cut of a root -/

namespace State

/-- An edge leads from the one node to the other, which is live: it still waits for something. -/
def LeadsLive (s : State) (g : GraphDefinition) (a b : String) : Prop :=
  (∃ edge ∈ g.spec.edges, edge.source = a ∧ edge.target = b) ∧ s.settled b = false

/-- The root holds up the node. -/
def HoldsUp (s : State) (g : GraphDefinition) (root nodeId : String) : Prop :=
  ∃ edge ∈ g.spec.edges, edge.source = root ∧
    predicateSatisfied (s.nodes.get root) edge.when = false ∧ s.settled edge.target = false ∧
    Relation.ReflTransGen (s.LeadsLive g) edge.target nodeId

end State

/-- The live heads of the edges out of a node. -/
def liveHeads (s : State) (g : GraphDefinition) (nodeId : String) : List String :=
  ((g.outgoing nodeId).map EdgeDefinition.target).filter fun target => !s.settled target

theorem mem_liveHeads
    {s : State} {g : GraphDefinition} {a b : String} :
  b ∈ liveHeads s g a ↔ s.LeadsLive g a b
  := by
  simp only [liveHeads, GraphDefinition.outgoing, State.LeadsLive, List.mem_filter, List.mem_map,
    Bool.not_eq_true', decide_eq_true_eq, and_assoc]

/-- The loop over the edges sees the live heads. -/
theorem foldl_outgoing
    (s : State) (edges : List EdgeDefinition) (acc : List String × List String) :
  edges.foldl (fun (acc : List String × List String) edge =>
      if acc.2.contains edge.target || s.settled edge.target then acc
      else (edge.target :: acc.1, edge.target :: acc.2)) acc
    = Search.visit ((edges.map EdgeDefinition.target).filter fun target => !s.settled target) acc
  := by
  induction edges generalizing acc with
  | nil => rfl
  | cons edge edges ih =>
      rw [List.foldl_cons, ih, List.map_cons]
      cases settled : s.settled edge.target with
      | false => simp [Search.visit, settled]
      | true => simp [settled]

/-- The search of a state is a depth-first search over live heads. -/
theorem descendantsLoop_eq_run
    (s : State) (g : GraphDefinition) (fuel : Nat) (stack seen : List String) :
  descendantsLoop s g fuel stack seen = Search.run (liveHeads s g) fuel stack seen
  := by
  induction fuel generalizing stack seen with
  | zero => rfl
  | succ fuel ih =>
      cases stack with
      | nil => rfl
      | cons current stack =>
          simp only [descendantsLoop, Search.run, foldl_outgoing]
          exact ih _ _

/-- The nodes downstream of a node are those it leads to over live nodes. -/
theorem mem_descendants
    {s : State} {g : GraphDefinition} {a b : String} :
  b ∈ descendants s g a ↔ Relation.TransGen (s.LeadsLive g) a b
  := by
  have bounded : ∀ a, ∀ b ∈ liveHeads s g a, b ∈ g.spec.edges.map EdgeDefinition.target := by
    intro a b mem
    obtain ⟨⟨edge, known, -, rfl⟩, -⟩ := mem_liveHeads.mp mem
    exact List.mem_map_of_mem known
  have enough : (g.spec.edges.map EdgeDefinition.target).length + 1 < g.spec.edges.length + 2 := by
    simp
  rw [descendants, descendantsLoop_eq_run, Search.mem_run bounded enough]
  simp only [mem_liveHeads]

/-- The cut of a root has the nodes it holds up. -/
theorem mem_dependencyCut
    {s : State} {g : GraphDefinition} (graph : s.graph = some g) {root nodeId : String} :
  nodeId ∈ (dependencyCut s root).getD [] ↔ s.HoldsUp g root nodeId
  := by
  simp only [dependencyCut, graph, Option.map_some, Option.getD_some, mem_sortTexts, List.mem_dedup,
    List.mem_flatMap, List.mem_filter, GraphDefinition.outgoing, Bool.and_eq_true, Bool.not_eq_true',
    decide_eq_true_eq, List.mem_cons, mem_descendants, State.HoldsUp]
  constructor
  · rintro ⟨edge, ⟨⟨mem, source⟩, unsatisfied, live⟩, reached⟩
    refine ⟨edge, mem, source, unsatisfied, live, ?_⟩
    rcases reached with rfl | reached
    · exact .refl
    · exact reached.to_reflTransGen
  · rintro ⟨edge, mem, source, unsatisfied, live, reached⟩
    refine ⟨edge, ⟨⟨mem, source⟩, unsatisfied, live⟩, ?_⟩
    rcases Relation.reflTransGen_iff_eq_or_transGen.mp reached with same | reached
    · exact .inl same
    · exact .inr reached

/-- A cut is in order and has each node once. -/
theorem dependencyCut_increasing
    (s : State) (root : String) :
  ((dependencyCut s root).getD []).Pairwise (· < ·)
  := by
  cases graph : s.graph with
  | none => simp [dependencyCut, graph]
  | some g =>
      simp only [dependencyCut, graph, Option.map_some, Option.getD_some]
      exact sortTexts_increasing (List.nodup_dedup _)

/-! ### The index -/

/-- The edges of a graph by their source, with the cuts and closures computed so far. -/
structure DependencyCutIndex where
  state : State
  outgoing : Table (List EdgeDefinition)
  cache : Table (List String) := ∅
  descendantCache : Table (List String) := ∅

/-- An index that has computed nothing. -/
def newDependencyCutIndex (s : State) : DependencyCutIndex :=
  { state := s
    outgoing :=
      match s.graph with
      | none => ∅
      | some g => g.spec.edges.foldl
          (fun t edge => t.insert edge.source (t.get edge.source ++ [edge])) ∅ }

namespace DependencyCutIndex

/-- Take nodes off the stack and push the live targets that are new. Every edge pushes at most once,
which bounds the fuel. -/
def explore (index : DependencyCutIndex) : Nat → List String → List String → List String
  | 0, _, seen => seen
  | _ + 1, [], seen => seen
  | fuel + 1, current :: stack, seen =>
      let (stack, seen) := (index.outgoing.get current).foldl
        (fun (acc : List String × List String) edge =>
          if acc.2.contains edge.target || index.state.settled edge.target then acc
          else (edge.target :: acc.1, edge.target :: acc.2))
        (stack, seen)
      explore index fuel stack seen

/-- The live nodes downstream of a node, from the cache if they were computed before. -/
def descendantsContext (index : DependencyCutIndex) (nodeId : String) :
    List String × DependencyCutIndex :=
  match index.descendantCache.lookup nodeId with
  | some cached => (cached, index)
  | none =>
      let edges := (index.state.graph.map fun g => g.spec.edges.length).getD 0
      let result := sortTexts (index.explore (edges + 2) [nodeId] [])
      (result, { index with descendantCache := index.descendantCache.insert nodeId result })

/-- Add what one edge of the root holds up. -/
def addEdge (root : String) (acc : List String × DependencyCutIndex) (edge : EdgeDefinition) :
    List String × DependencyCutIndex :=
  if predicateSatisfied (acc.2.state.nodes.get root) edge.when || acc.2.state.settled edge.target then
    acc
  else
    let (descendants, index) := acc.2.descendantsContext edge.target
    (acc.1 ++ edge.target :: descendants, index)

/-- The cut of a root, from the cache if it was computed before. -/
def cutContext (index : DependencyCutIndex) (root : String) : List String × DependencyCutIndex :=
  match index.cache.lookup root with
  | some cached => (cached, index)
  | none =>
      match index.state.graph with
      | none => ([], index)
      | some _ =>
          let (seen, index) := (index.outgoing.get root).foldl (addEdge root) ([], index)
          let result := sortTexts seen.dedup
          (result, { index with cache := index.cache.insert root result })

/-- The index after queries in the given order. -/
def query (index : DependencyCutIndex) (roots : List String) : DependencyCutIndex :=
  roots.foldl (fun index root => (index.cutContext root).2) index

/-- What an index has computed is right for its state. -/
structure Exact (s : State) (index : DependencyCutIndex) : Prop where
  state : index.state = s
  outgoing : ∀ g, s.graph = some g → ∀ k, index.outgoing.get k = g.outgoing k
  descendants : ∀ g, s.graph = some g → ∀ k cached, index.descendantCache.lookup k = some cached →
    cached = sortTexts (Dagrail.descendants s g k)
  cuts : ∀ k cached, index.cache.lookup k = some cached → cached = (dependencyCut s k).getD []

/-- Edges are collected by their source in declaration order. -/
theorem foldl_source
    (edges : List EdgeDefinition) (t : Table (List EdgeDefinition)) (k : String) :
  (edges.foldl (fun t edge => t.insert edge.source (t.get edge.source ++ [edge])) t).get k
    = t.get k ++ edges.filter fun edge => edge.source = k
  := by
  induction edges generalizing t with
  | nil => simp
  | cons edge edges ih =>
      rw [List.foldl_cons, ih, Table.get_insert]
      by_cases same : k = edge.source
      · simp [same]
      · simp [same, Ne.symm same]

/-- A new index has computed nothing wrong. -/
theorem Exact.new
    (s : State) :
  Exact s (newDependencyCutIndex s)
  := by
  constructor
  · rfl
  · intro g graph k
    simp only [newDependencyCutIndex, graph, GraphDefinition.outgoing, foldl_source]
    rfl
  · intro g graph k cached found
    simp [newDependencyCutIndex] at found
  · intro k cached found
    simp [newDependencyCutIndex] at found

variable {s : State} {g : GraphDefinition} {index : DependencyCutIndex}

/-- The search of the index is the search of its state. -/
theorem Exact.explore
    (exact_ : Exact s index) (graph : s.graph = some g) (fuel : Nat) (stack seen : List String) :
  index.explore fuel stack seen = descendantsLoop s g fuel stack seen
  := by
  induction fuel generalizing stack seen with
  | zero => rfl
  | succ fuel ih =>
      cases stack with
      | nil => rfl
      | cons current stack =>
          simp only [DependencyCutIndex.explore, descendantsLoop, exact_.outgoing g graph,
            exact_.state]
          exact ih _ _

/-- A closure is that of the state, and the index stays right. -/
theorem Exact.descendantsContext
    (exact_ : Exact s index) (graph : s.graph = some g) (nodeId : String) :
  (index.descendantsContext nodeId).1 = sortTexts (Dagrail.descendants s g nodeId) ∧
    Exact s (index.descendantsContext nodeId).2
  := by
  unfold DependencyCutIndex.descendantsContext
  split
  · rename_i cached found
    exact ⟨exact_.descendants g graph nodeId cached found, exact_⟩
  · have computed : index.explore
        (((index.state.graph.map fun g => g.spec.edges.length).getD 0) + 2) [nodeId] []
          = Dagrail.descendants s g nodeId := by
      rw [exact_.explore graph, exact_.state, graph]
      rfl
    refine ⟨by simp only [computed], exact_.state, exact_.outgoing, ?_, exact_.cuts⟩
    intro g' graph' k cached found
    obtain rfl : g = g' := Option.some.inj (graph.symm.trans graph')
    simp only [computed] at found
    rw [Table.lookup_insert] at found
    split_ifs at found with same
    · subst same
      exact (Option.some.inj found).symm
    · exact exact_.descendants g graph k cached found

/-- What the edges of the root hold up, collected one edge after the other. -/
theorem Exact.foldl_addEdge
    (graph : s.graph = some g) (root : String) (edges : List EdgeDefinition)
    (seen : List String) (exact_ : Exact s index) :
  (edges.foldl (addEdge root) (seen, index)).1 = seen ++ (edges.filter fun edge =>
      !predicateSatisfied (s.nodes.get root) edge.when && !s.settled edge.target).flatMap
        (fun edge => edge.target :: sortTexts (Dagrail.descendants s g edge.target)) ∧
    Exact s (edges.foldl (addEdge root) (seen, index)).2
  := by
  induction edges generalizing seen index with
  | nil => simpa using exact_
  | cons edge edges ih =>
      obtain ⟨closure, kept⟩ := exact_.descendantsContext graph edge.target
      rw [List.foldl_cons]
      by_cases skipped : (predicateSatisfied (s.nodes.get root) edge.when
          || s.settled edge.target) = true
      · have same : addEdge root (seen, index) edge = (seen, index) := by
          simp only [addEdge, exact_.state, if_pos skipped]
        obtain ⟨collected, right⟩ := ih seen exact_
        have dropped : (!predicateSatisfied (s.nodes.get root) edge.when
            && !s.settled edge.target) = false := by
          rw [← Bool.not_or, skipped]
          rfl
        rw [same, List.filter_cons, dropped, if_neg Bool.false_ne_true]
        exact ⟨collected, right⟩
      · have added : addEdge root (seen, index) edge
            = (seen ++ edge.target :: sortTexts (Dagrail.descendants s g edge.target),
              (index.descendantsContext edge.target).2) := by
          simp only [addEdge, exact_.state, if_neg skipped, ← closure]
        obtain ⟨collected, right⟩ := ih (seen ++ edge.target
          :: sortTexts (Dagrail.descendants s g edge.target)) kept
        rw [added, List.filter_cons_of_pos (by simpa using skipped), List.flatMap_cons]
        exact ⟨by rw [collected, List.append_assoc], right⟩

/-- A cut is that of the state, and the index stays right. -/
theorem Exact.cutContext
    (exact_ : Exact s index) (root : String) :
  (index.cutContext root).1 = (dependencyCut s root).getD [] ∧
    Exact s (index.cutContext root).2
  := by
  unfold DependencyCutIndex.cutContext
  split
  · rename_i cached found
    exact ⟨exact_.cuts root cached found, exact_⟩
  · split
    · rename_i none
      rw [exact_.state] at none
      exact ⟨by simp [dependencyCut, none], exact_⟩
    · rename_i g known
      have graph : s.graph = some g := exact_.state ▸ known
      obtain ⟨collected, kept⟩ :=
        Exact.foldl_addEdge graph root (index.outgoing.get root) [] exact_
      have computed : sortTexts ((index.outgoing.get root).foldl (addEdge root) ([], index)).1.dedup
          = (dependencyCut s root).getD [] := by
        simp only [dependencyCut, graph, Option.map_some, Option.getD_some]
        refine sortTexts_congr_mem (List.nodup_dedup _) (List.nodup_dedup _) fun text => ?_
        rw [List.mem_dedup, List.mem_dedup, collected, exact_.outgoing g graph]
        simp only [List.nil_append, List.mem_flatMap, List.mem_cons, mem_sortTexts]
      refine ⟨computed, kept.state, kept.outgoing, kept.descendants, ?_⟩
      intro k cached found
      rw [Table.lookup_insert] at found
      split_ifs at found with same
      · subst same
        rw [← Option.some.inj found]
        exact computed
      · exact kept.cuts k cached found

/-- An index stays right over any queries. -/
theorem Exact.query
    (exact_ : Exact s index) (roots : List String) :
  Exact s (index.query roots)
  := by
  induction roots generalizing index with
  | nil => exact exact_
  | cons root roots ih => exact ih (exact_.cutContext root).2

end DependencyCutIndex

/-- After any queries in any order, an index gives for each root the nodes it holds up, in order and
each once, as a new index does. -/
theorem cutIndex_exact
    (s : State) (roots : List String) (root : String) :
  (((newDependencyCutIndex s).query roots).cutContext root).1
      = ((newDependencyCutIndex s).cutContext root).1 ∧
    ((newDependencyCutIndex s).cutContext root).1.Pairwise (· < ·) ∧
    ∀ nodeId, nodeId ∈ ((newDependencyCutIndex s).cutContext root).1 ↔
      ∃ g, s.graph = some g ∧ s.HoldsUp g root nodeId
  := by
  have fresh := ((DependencyCutIndex.Exact.new s).cutContext root).1
  have used := (((DependencyCutIndex.Exact.new s).query roots).cutContext root).1
  rw [used, fresh]
  refine ⟨rfl, dependencyCut_increasing s root, fun nodeId => ?_⟩
  cases graph : s.graph with
  | none => simp [dependencyCut, graph]
  | some g => simp [mem_dependencyCut graph]

end Dagrail
