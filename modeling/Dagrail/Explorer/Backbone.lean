import Dagrail.Foundation.Forest
import Dagrail.Grouping.Consistency

/-!
# The backbone of the project map

The project map shows a few of the aggregate edges of a projection (`internal/ui/api.go`,
`projectBackboneEdges`): first those that join what the edges before them do not join, found with a
table of parents, and then the others, up to a limit.
-/

namespace Dagrail

namespace Explorer

open Grouping Forest

/-- What the map shows of an aggregate edge. -/
structure AggregateEdgeView where
  fromRef : String
  toRef : String
  predicateKind : String
  outcomeClass : String
  count : Nat
  edgeDigest : String
  inspectRef : String
deriving DecidableEq

/-- What is shown of an edge. -/
def aggregateEdgeView (edge : AggregateEdge) : AggregateEdgeView :=
  { fromRef := edge.fromRef
    toRef := edge.toRef
    predicateKind := edge.predicateKind
    outcomeClass := edge.outcomeClass
    count := edge.count
    edgeDigest := edge.edgeDigest
    inspectRef := edge.inspectRef }

/-! ### The table of parents -/

/-- The root of a value. A value without a parent becomes its own, and every value on the way gets
the root as its parent. -/
def find : Nat → Table String → String → Option (Table String × String)
  | 0, _, _ => none
  | fuel + 1, parent, value => do
      let parent : Table String :=
        if parent.get value = "" then parent.insert value value else parent
      if parent.get value ≠ value then
        let (parent, root) ← find fuel parent (parent.get value)
        let parent : Table String := parent.insert value root
        some (parent, parent.get value)
      else some (parent, parent.get value)

/-- Put the root of `right` under the root of `left`. Were they different? -/
def union (fuel : Nat) (parent : Table String) (left right : String) :
    Option (Table String × Bool) := do
  let (parent, left) ← find fuel parent left
  let (parent, right) ← find fuel parent right
  if left = right then some (parent, false)
  else some (parent.insert right left, true)

/-! ### The selection -/

/-- Select the edges that join what is not joined yet, and count, until the limit is reached. -/
def selectJoining (fuel limit : Nat) : List AggregateEdge → Table String → Nat →
    Option (List Bool × Nat)
  | [], _, count => some ([], count)
  | edge :: edges, parent, count => do
      let (parent, joins) ← union fuel parent edge.fromRef edge.toRef
      if joins then
        if count + 1 = limit then some (true :: edges.map fun _ => false, count + 1)
        else
          let (selected, count) ← selectJoining fuel limit edges parent (count + 1)
          some (true :: selected, count)
      else
        let (selected, count) ← selectJoining fuel limit edges parent count
        some (false :: selected, count)

/-- Select the others, in order, until the limit is reached. -/
def selectOthers (limit : Nat) : List Bool → Nat → List Bool
  | [], _ => []
  | selected :: others, count =>
      if count = limit then selected :: others
      else if selected then true :: selectOthers limit others count
      else true :: selectOthers limit others (count + 1)

/-- The selected ones of a list. -/
def selectedOf {β : Type} : List β → List Bool → List β
  | edge :: edges, true :: selected => edge :: selectedOf edges selected
  | _ :: edges, false :: selected => selectedOf edges selected
  | _, _ => []

/-- The edges of the backbone. A chain of parents is not longer than the list of edges. -/
def projectBackboneEdges (projection : Projection) (limit : Int) :
    Option (List AggregateEdgeView) :=
  let edges := projection.body.aggregateEdges
  if limit ≤ 0 ∨ edges = [] then some []
  else do
    let (selected, count) ← selectJoining (edges.length + 1) limit.toNat edges ∅ 0
    some ((selectedOf edges (selectOthers limit.toNat selected count)).map aggregateEdgeView)

/-! ### Parents and classes -/

/-- The value one step up. -/
def above (parent : Table String) (value : String) : String :=
  if parent.get value = "" then value else parent.get value

/-- One step up is towards the root of the class, and roots are the names of their classes. -/
structure Links (parent : Table String) (rep : String → String) (depth : String → Nat) :
    Prop where
  same : ∀ v, rep (above parent v) = rep v
  root : ∀ v, above parent v = v → rep v = v
  zero : ∀ v, above parent v = v → depth v = 0
  down : ∀ v, above parent v ≠ v → depth (above parent v) < depth v

theorem above_insert
    (parent : Table String) (k w v : String) (named : w ≠ "") :
  above (parent.insert k w) v = if v = k then w else above parent v
  := by
  unfold above
  by_cases own : v = k
  · rw [own, Table.get_insert_self, if_neg named, if_pos rfl]
  · rw [Table.get_insert_of_ne own, if_neg own]

/-- A named value has a named one above it. -/
theorem above_ne_empty
    {parent : Table String} {v : String} (named : v ≠ "") :
  above parent v ≠ ""
  := by
  unfold above
  split_ifs with own
  · exact named
  · exact own

namespace Links

variable {parent : Table String} {rep : String → String} {depth : String → Nat} {v : String}

/-- The name of a class is a root. -/
theorem above_rep
    (links : Links parent rep depth) (v : String) :
  above parent (rep v) = rep v
  := by
  induction h : depth v using Nat.strongRecOn generalizing v with
  | ind n ih =>
      by_cases root : above parent v = v
      · rw [links.root v root]
        exact root
      · rw [← links.same v]
        exact ih _ (h ▸ links.down v root) _ rfl

/-- The root of a named value is named. -/
theorem rep_ne_empty
    (links : Links parent rep depth) (named : v ≠ "") :
  rep v ≠ ""
  := by
  induction h : depth v using Nat.strongRecOn generalizing v with
  | ind n ih =>
      by_cases root : above parent v = v
      · rw [links.root v root]
        exact named
      · rw [← links.same v]
        exact ih _ (h ▸ links.down v root) (above_ne_empty named) rfl

/-- A table in which the same value is above every value has the same links. -/
theorem congr
    {parent' : Table String} (links : Links parent rep depth)
    (same : ∀ v, above parent' v = above parent v) :
  Links parent' rep depth
  where
  same v := by rw [same, links.same]
  root v h := links.root v (by rw [← same, h])
  zero v h := links.zero v (by rw [← same, h])
  down v h := by
    rw [same] at h ⊢
    exact links.down v h

/-- The root may be written above a value that is not one. -/
theorem compress
    (links : Links parent rep depth) (named : v ≠ "") (below : rep v ≠ v) :
  Links (parent.insert v (rep v)) rep depth
  := by
  have step := fun w => above_insert parent v (rep v) w (links.rep_ne_empty named)
  have top : depth (rep v) = 0 := links.zero _ (links.above_rep v)
  have deep : above parent v ≠ v := fun root => below (links.root v root)
  refine ⟨fun w => ?_, fun w h => ?_, fun w h => ?_, fun w h => ?_⟩ <;> rw [step] at *
  · split_ifs with own
    · rw [own]
      exact links.root _ (links.above_rep v)
    · exact links.same w
  · split_ifs at h with own
    · exact absurd (own ▸ h) below
    · exact links.root w h
  · split_ifs at h with own
    · exact absurd (own ▸ h) below
    · exact links.zero w h
  · split_ifs at h ⊢ with own
    · rw [top, own]
      exact Nat.zero_lt_of_lt (links.down v deep)
    · exact links.down w h

/-- The root of one class may be written above that of another. -/
theorem union
    {a b : String} (links : Links parent rep depth) (named : a ≠ "") (apart : rep a ≠ rep b) :
  Links (parent.insert (rep b) (rep a)) (merge rep a b)
    fun v => if rep v = rep b then depth v + 1 else depth v
  := by
  have step := fun w => above_insert parent (rep b) (rep a) w (links.rep_ne_empty named)
  have rep_rep : ∀ w, rep (rep w) = rep w := fun w => links.root _ (links.above_rep w)
  refine ⟨fun w => ?_, fun w h => ?_, fun w h => ?_, fun w h => ?_⟩ <;> rw [step] at *
  · unfold merge
    split_ifs with own other other other <;> simp_all [links.same]
  · unfold merge
    split_ifs at h with own
    · exact absurd (h.trans own) apart
    · have top := links.root w h
      rw [top, if_neg own]
  · split_ifs at h with own
    · exact absurd (h.trans own) apart
    · have top := links.root w h
      rw [top, if_neg own]
      exact links.zero w h
  · have level : (if rep (above parent w) = rep b then depth (above parent w) + 1
        else depth (above parent w)) = if rep w = rep b then depth (above parent w) + 1
        else depth (above parent w) := by rw [links.same]
    by_cases own : w = rep b
    · have top : depth (rep a) = 0 := links.zero _ (links.above_rep a)
      have low : rep w = rep b := by rw [own, rep_rep]
      have high : rep (rep a) ≠ rep b := by rwa [rep_rep]
      rw [if_pos own, if_neg high, if_pos low, top]
      exact Nat.succ_pos _
    · rw [if_neg own] at h ⊢
      rw [level]
      have lower := links.down w h
      split_ifs <;> omega

end Links

/-! ### Finding and joining -/

/-- The root of a named value is found, and the classes stay as they are. -/
theorem find_spec
    {parent : Table String} {rep : String → String} {depth : String → Nat} {fuel : Nat}
    {value : String} (links : Links parent rep depth) (named : value ≠ "")
    (enough : depth value < fuel) :
  ∃ parent', find fuel parent value = some (parent', rep value) ∧ Links parent' rep depth
  := by
  induction fuel generalizing parent value with
  | zero => exact absurd enough (Nat.not_lt_zero _)
  | succ fuel ih =>
      obtain ⟨created, created_eq⟩ : ∃ created : Table String, created =
        if parent.get value = "" then parent.insert value value else parent := ⟨_, rfl⟩
      have same : ∀ v, above created v = above parent v := by
        intro v
        rw [created_eq]
        split_ifs with absent
        · rw [above_insert _ _ _ _ named]
          split_ifs with own
          · rw [own, above, if_pos absent]
          · rfl
        · rfl
      have there : created.get value ≠ "" := by
        rw [created_eq]
        split_ifs with absent
        · rw [Table.get_insert_self]
          exact named
        · exact absent
      have links' : Links created rep depth := links.congr same
      have next : above created value = created.get value := if_neg there
      rw [find]
      simp only [← created_eq]
      by_cases root : created.get value = value
      · rw [if_neg (not_not.mpr root), root]
        refine ⟨created, ?_, links'⟩
        rw [links'.root value (next.trans root)]
      · rw [if_pos root]
        have lower := links'.down value (by rwa [next])
        rw [next] at lower
        obtain ⟨parent', found, links''⟩ := ih links' there (by omega)
        have up : rep (created.get value) = rep value := by rw [← next, links'.same]
        have below : rep value ≠ value := by
          intro own
          have top := links'.above_rep value
          rw [own, next] at top
          exact root top
        refine ⟨parent'.insert value (rep value), ?_, links''.compress named below⟩
        rw [found, up, Option.bind_eq_bind, Option.bind_some, Table.get_insert_self]

/-- Two named values are joined, and it is said whether they were not. -/
theorem union_spec
    {parent : Table String} {rep : String → String} {depth : String → Nat} {fuel : Nat}
    {left right : String} (links : Links parent rep depth) (namedLeft : left ≠ "")
    (namedRight : right ≠ "") (enough : ∀ v, depth v < fuel) :
  ∃ parent' depth', union fuel parent left right
      = some (parent', decide (rep left ≠ rep right)) ∧
    Links parent' (merge rep left right) depth' ∧
    ∀ v, depth' v ≤ if rep left ≠ rep right then depth v + 1 else depth v
  := by
  obtain ⟨parent₁, foundLeft, links₁⟩ := find_spec links namedLeft (enough left)
  obtain ⟨parent₂, foundRight, links₂⟩ := find_spec links₁ namedRight (enough right)
  rw [union, foundLeft, Option.bind_eq_bind, Option.bind_some]
  simp only [foundRight, Option.bind_some]
  by_cases same : rep left = rep right
  · refine ⟨parent₂, depth, ?_, ?_, fun v => ?_⟩
    · simp [same]
    · rw [merge_of_eq same]
      exact links₂
    · rw [if_neg (not_not.mpr same)]
  · have links₃ := links₂.union namedLeft same
    refine ⟨parent₂.insert (rep right) (rep left), _, ?_, links₃, fun v => ?_⟩
    · simp [same]
    · rw [if_pos same]
      split_ifs <;> omega

/-! ### What is selected -/

/-- The ends of edges. -/
def endsOf (edges : List AggregateEdge) : List (String × String) :=
  edges.map fun edge => (edge.fromRef, edge.toRef)

/-- The ends of edges are named. -/
def Named (edges : List AggregateEdge) : Prop :=
  ∀ edge ∈ edges, edge.fromRef ≠ "" ∧ edge.toRef ≠ ""

theorem selectedOf_sublist
    {β : Type} (edges : List β) (selected : List Bool) :
  (selectedOf edges selected).Sublist edges
  := by
  induction edges generalizing selected with
  | nil => cases selected <;> exact .slnil
  | cons edge edges ih =>
      match selected with
      | [] => exact List.nil_sublist _
      | true :: selected => exact (ih selected).cons_cons edge
      | false :: selected => exact (ih selected).cons edge

theorem selectedOf_false
    {β : Type} (edges : List β) :
  selectedOf edges (edges.map fun _ => false) = []
  := by
  induction edges with
  | nil => rfl
  | cons edge edges ih => exact ih

/-- The edges that are selected first are independent together with those chosen before, and they
join the ends of all edges unless the limit was reached. -/
theorem selectJoining_spec
    {fuel limit : Nat} {edges : List AggregateEdge} {parent : Table String}
    {depth : String → Nat} {chosen : List (String × String)}
    (links : Links parent (classOf chosen) depth) (named : Named edges)
    (shallow : ∀ v, depth v ≤ chosen.length) (enough : chosen.length + edges.length < fuel)
    (independent : Independent chosen) (room : chosen.length < limit) :
  ∃ selected, selectJoining fuel limit edges parent chosen.length
      = some (selected, (chosen ++ endsOf (selectedOf edges selected)).length) ∧
    selected.length = edges.length ∧
    Independent (chosen ++ endsOf (selectedOf edges selected)) ∧
    (chosen ++ endsOf (selectedOf edges selected)).length ≤ limit ∧
    ((chosen ++ endsOf (selectedOf edges selected)).length < limit →
      ∀ edge ∈ edges,
        Joined (chosen ++ endsOf (selectedOf edges selected)) edge.fromRef edge.toRef)
  := by
  induction edges generalizing parent depth chosen with
  | nil =>
      refine ⟨[], ?_, rfl, ?_, ?_, fun _ edge mem => absurd mem List.not_mem_nil⟩
      · simp [selectJoining, selectedOf, endsOf]
      · simpa [selectedOf, endsOf] using independent
      · simpa [selectedOf, endsOf] using room.le
  | cons edge edges ih =>
      obtain ⟨⟨namedFrom, namedTo⟩, named⟩ := List.forall_mem_cons.mp named
      rw [List.length_cons] at enough
      have within : ∀ v, depth v < fuel := fun v => lt_of_le_of_lt (shallow v) (by omega)
      obtain ⟨parent', depth', joined, links', deeper⟩ :=
        union_spec links namedFrom namedTo within
      rw [selectJoining, joined, Option.bind_eq_bind, Option.bind_some]
      by_cases apart : classOf chosen edge.fromRef = classOf chosen edge.toRef
      · -- the edge closes a cycle of those chosen before
        have old := classOf_eq_iff.mp apart
        rw [merge_of_eq apart] at links'
        have shallow' : ∀ v, depth' v ≤ chosen.length := by
          intro v
          have bound := deeper v
          rw [if_neg (not_not.mpr apart)] at bound
          exact bound.trans (shallow v)
        obtain ⟨selected, found, size, isIndependent, short, all⟩ :=
          ih links' named shallow' (by omega) independent room
        refine ⟨false :: selected, ?_, ?_, isIndependent, short, fun more => ?_⟩
        · simp only [apart, ne_eq, not_true_eq_false, decide_false, Bool.false_eq_true, if_false]
          rw [found]
          rfl
        · rw [List.length_cons, List.length_cons, size]
        · refine List.forall_mem_cons.mpr ⟨?_, all more⟩
          exact old.mono (List.subset_append_left _ _)
      · have isNew : ¬ Joined chosen edge.fromRef edge.toRef :=
          fun old => apart (classOf_eq_iff.mpr old)
        have longer : Independent (chosen ++ [(edge.fromRef, edge.toRef)]) :=
          independent.append_singleton isNew
        have size : (chosen ++ [(edge.fromRef, edge.toRef)]).length = chosen.length + 1 := by simp
        simp only [ne_eq, apart, not_false_eq_true, decide_true, if_true]
        by_cases full : chosen.length + 1 = limit
        · rw [if_pos full]
          have one : endsOf (selectedOf (edge :: edges) (true :: edges.map fun _ => false)) =
              [(edge.fromRef, edge.toRef)] := by
            rw [selectedOf, selectedOf_false]
            rfl
          refine ⟨true :: edges.map fun _ => false, ?_, by simp, ?_⟩
          · rw [one, size]
          · rw [one, size]
            exact ⟨longer, full.le, fun more => absurd full more.ne⟩
        · rw [if_neg full]
          have links'' :
              Links parent' (classOf (chosen ++ [(edge.fromRef, edge.toRef)])) depth' := by
            rw [classOf_append_singleton]
            exact links'
          have shallow' : ∀ v, depth' v ≤ (chosen ++ [(edge.fromRef, edge.toRef)]).length := by
            intro v
            have bound := deeper v
            rw [if_pos apart] at bound
            rw [size]
            exact bound.trans (Nat.succ_le_succ (shallow v))
          obtain ⟨selected, found, length, isIndependent, short, all⟩ :=
            ih links'' named shallow' (by omega) longer (by omega)
          have together : chosen ++ [(edge.fromRef, edge.toRef)]
              ++ endsOf (selectedOf edges selected)
              = chosen ++ endsOf (selectedOf (edge :: edges) (true :: selected)) := by
            simp [selectedOf, endsOf]
          rw [together] at isIndependent short all found
          rw [size] at found
          refine ⟨true :: selected, ?_, ?_, isIndependent, short, fun more => ?_⟩
          · rw [found]
            rfl
          · rw [List.length_cons, List.length_cons, length]
          · refine List.forall_mem_cons.mpr ⟨?_, all more⟩
            exact .rel _ _ (by simp [selectedOf, endsOf])

/-- With the limit reached, nothing more is selected. -/
theorem selectOthers_of_eq
    (limit : Nat) (selected : List Bool) :
  selectOthers limit selected limit = selected
  := by
  cases selected with
  | nil => rfl
  | cons => simp [selectOthers]

/-- Of the others as many are selected as there is room for, and what is selected stays so. -/
theorem selectOthers_spec
    {β : Type} {limit count : Nat} {edges : List β} {selected : List Bool}
    (size : selected.length = edges.length) (room : count ≤ limit) :
  (selectedOf edges selected).Sublist (selectedOf edges (selectOthers limit selected count)) ∧
    (selectedOf edges (selectOthers limit selected count)).length =
      (selectedOf edges selected).length
        + min (limit - count) (edges.length - (selectedOf edges selected).length)
  := by
  induction edges generalizing selected count with
  | nil =>
      obtain rfl := List.length_eq_zero_iff.mp size
      exact ⟨.slnil, by simp [selectedOf]⟩
  | cons edge edges ih =>
      cases selected with
      | nil => cases size
      | cons first selected =>
          have rest : selected.length = edges.length := Nat.succ.inj size
          by_cases full : count = limit
          · rw [full, selectOthers_of_eq, Nat.sub_self, Nat.zero_min]
            exact ⟨.refl _, rfl⟩
          · rw [selectOthers, if_neg full]
            have bound := (selectedOf_sublist edges selected).length_le
            cases first with
            | true =>
                obtain ⟨kept, length⟩ := ih rest room
                refine ⟨kept.cons_cons edge, ?_⟩
                simp only [if_true, selectedOf, List.length_cons, length]
                omega
            | false =>
                obtain ⟨kept, length⟩ := ih rest (Nat.lt_of_le_of_ne room full)
                refine ⟨kept.cons edge, ?_⟩
                simp only [Bool.false_eq_true, if_false, selectedOf, List.length_cons, length]
                omega

/-! ### The backbone -/

/-- What edges of the list join. -/
def JoinedBy (edges : List AggregateEdge) : String → String → Prop :=
  Joined (endsOf edges)

/-- Every edge is between ends that the others do not join. -/
def Acyclic (edges : List AggregateEdge) : Prop :=
  IsForest (endsOf edges)

/-- The edges are a forest of the others that joins all that these join. -/
structure SpanningForest (forest edges : List AggregateEdge) : Prop where
  sublist : forest.Sublist edges
  acyclic : Acyclic forest
  spans : ∀ x y, JoinedBy edges x y → JoinedBy forest x y

/-- A backbone: as many edges as the limit allows, in their order. If an edge of it closes a cycle,
it has a spanning forest; and with room for a spanning forest it joins what all edges join. -/
structure IsBackbone (edges : List AggregateEdge) (limit : Int) (backbone : List AggregateEdge) :
    Prop where
  sublist : backbone.Sublist edges
  length : backbone.length = min limit.toNat edges.length
  closes : Acyclic backbone ∨ ∃ forest, forest.Sublist backbone ∧ SpanningForest forest edges
  joins : ∀ forest, SpanningForest forest edges → (forest.length : Int) ≤ limit →
    ∀ x y, JoinedBy backbone x y ↔ JoinedBy edges x y

/-- What a part of the edges joins, they join. -/
theorem JoinedBy.mono
    {edges edges' : List AggregateEdge} {x y : String} (part : edges.Sublist edges')
    (joined : JoinedBy edges x y) :
  JoinedBy edges' x y
  := Joined.mono (part.map _).subset joined

/-- Without room or edges nothing is shown. -/
theorem isBackbone_nil
    {edges : List AggregateEdge} {limit : Int} (none_ : limit ≤ 0 ∨ edges = []) :
  IsBackbone edges limit []
  where
  sublist := List.nil_sublist edges
  length := by
    rcases none_ with low | rfl
    · rw [Int.toNat_of_nonpos low, Nat.zero_min, List.length_nil]
    · rw [List.length_nil, Nat.min_zero]
  closes := .inl independent_nil.isForest
  joins forest spanning short x y := by
    have empty : forest = [] := by
      rcases none_ with low | rfl
      · exact List.length_eq_zero_iff.mp (by omega)
      · exact List.sublist_nil.mp spanning.sublist
    refine ⟨JoinedBy.mono (List.nil_sublist edges), fun joined => ?_⟩
    rw [← empty]
    exact spanning.spans x y joined

/-- The selected edges are a backbone. -/
theorem projectBackboneEdges_spec
    {projection : Projection} (named : Named projection.body.aggregateEdges) (limit : Int) :
  ∃ backbone, projectBackboneEdges projection limit = some (backbone.map aggregateEdgeView) ∧
    IsBackbone projection.body.aggregateEdges limit backbone
  := by
  unfold projectBackboneEdges
  generalize projection.body.aggregateEdges = edges at named ⊢
  by_cases none_ : limit ≤ 0 ∨ edges = []
  · exact ⟨[], by rw [if_pos none_, List.map_nil], isBackbone_nil none_⟩
  · have positive : 0 < limit := by
      by_contra low
      exact none_ (.inl (not_lt.mp low))
    have room : ([] : List (String × String)).length < limit.toNat := by
      rw [List.length_nil]
      omega
    have start : Links ∅ (classOf []) fun _ => 0 :=
      { same := fun _ => rfl
        root := fun _ _ => rfl
        zero := fun _ _ => rfl
        down := fun v up => absurd rfl up }
    have enough : ([] : List (String × String)).length + edges.length < edges.length + 1 := by
      rw [List.length_nil]
      omega
    obtain ⟨selected, found, size, independent, short, all⟩ :=
      selectJoining_spec start named (fun _ => Nat.zero_le _) enough independent_nil room
    rw [List.nil_append] at found independent short all
    have count : (endsOf (selectedOf edges selected)).length = (selectedOf edges selected).length :=
      List.length_map _
    rw [count] at found short all
    obtain ⟨kept, length⟩ := selectOthers_spec size short
    have part := selectedOf_sublist edges (selectOthers limit.toNat selected
      (selectedOf edges selected).length)
    have bound := (selectedOf_sublist edges selected).length_le
    refine ⟨_, ?_, part, ?_, ?_, ?_⟩
    · rw [if_neg none_, ← List.length_nil, found]
      rfl
    · rw [length]
      omega
    · by_cases full : (selectedOf edges selected).length = limit.toNat
      · left
        rw [full, selectOthers_of_eq]
        exact independent.isForest
      · right
        refine ⟨_, kept, selectedOf_sublist edges selected, independent.isForest, fun x y => ?_⟩
        refine Joined.of_edges fun e mem => ?_
        obtain ⟨edge, listed, rfl⟩ := List.mem_map.mp mem
        exact all (lt_of_le_of_ne short full) edge listed
    · intro forest spanning few x y
      refine ⟨JoinedBy.mono part, fun joined => JoinedBy.mono kept ?_⟩
      by_cases full : (selectedOf edges selected).length = limit.toNat
      · have spans : Spans (endsOf forest) (endsOf edges) := spanning.spans
        refine independent.spans spans ?_ ?_ x y joined
        · intro x y
          exact JoinedBy.mono (selectedOf_sublist edges selected)
        · rw [count, full, endsOf, List.length_map]
          omega
      · refine Joined.of_edges (fun e mem => ?_) joined
        obtain ⟨edge, listed, rfl⟩ := List.mem_map.mp mem
        exact all (lt_of_le_of_ne short full) edge listed

/-! ### The projection of a state -/

/-- The text with a name after a kind is not empty. -/
theorem kind_append_ne_empty
    {kind : String} (named : kind ≠ "") (name : String) :
  kind ++ name ≠ ""
  := by
  intro empty
  have letters := congrArg String.toList empty
  rw [String.toList_append, String.toList_empty, List.append_eq_nil_iff] at letters
  exact named (String.toList_inj.mp letters.1)

/-- The end of an edge is named. -/
theorem endpointRef_ne_empty
    (index : GroupIndex) (nodeId : String) :
  endpointRef index nodeId ≠ ""
  := by
  unfold endpointRef
  extract_lets ref
  split_ifs
  · exact kind_append_ne_empty (by decide) nodeId
  · unfold ref visibleEndpoint
    split
    · decide
    · split
      · exact kind_append_ne_empty (by decide) _
      · decide

/-- The aggregate edges of a state have named ends. -/
theorem named_build
    (digests : Digests) (state : State) (overrides : Table Bool) :
  Named (build digests state overrides).body.aggregateEdges
  := by
  intro aggregate mem
  unfold build at mem
  split at mem
  · cases mem
  · rename_i graph _
    obtain ⟨edge, -, key, keyed, rfl⟩ := mem_aggregateEdges.mp mem
    unfold edgeKey at keyed
    extract_lets fromRef toRef at keyed
    split_ifs at keyed
    obtain rfl := Option.some.inj keyed
    exact ⟨endpointRef_ne_empty _ _, endpointRef_ne_empty _ _⟩

/-- No two aggregate edges of a state are the same. -/
theorem nodup_build
    (digests : Digests) (state : State) (overrides : Table Bool) :
  (build digests state overrides).body.aggregateEdges.Nodup
  := by
  unfold build
  split
  · exact List.nodup_nil
  · rename_i graph _
    rw [(aggregateEdges_perm digests _).nodup_iff]
    refine (List.nodup_dedup _).map fun key key' same => ?_
    cases key
    cases key'
    simp only [aggregateOf, AggregateEdge.mk.injEq] at same
    obtain ⟨rfl, rfl, rfl, rfl, -⟩ := same
    rfl

/-- For every projection of a state and every limit, the edges that are shown are a backbone of the
aggregate edges, each shown once. -/
theorem projectBackboneEdges_isBackbone
    (digests : Digests) (state : State) (overrides : Table Bool) (limit : Int) :
  ∃ backbone, projectBackboneEdges (build digests state overrides) limit
      = some (backbone.map aggregateEdgeView) ∧
    backbone.Nodup ∧ IsBackbone (build digests state overrides).body.aggregateEdges limit backbone
  := by
  obtain ⟨backbone, shown, isBackbone⟩ :=
    projectBackboneEdges_spec (named_build digests state overrides) limit
  have nodup := isBackbone.sublist.nodup (nodup_build digests state overrides)
  exact ⟨backbone, shown, nodup, isBackbone⟩

end Explorer

end Dagrail
