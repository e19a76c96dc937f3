import Mathlib.Data.Finset.Card
import Mathlib.Logic.Relation

/-!
# Forests

Edges join their ends, in any direction and over any number of steps. The ends fall into classes,
and an edge between two classes makes one of them: so edges each of which joins two classes of those
before it are a forest, and no edges that join the same ends are fewer.
-/

namespace Dagrail

namespace Forest

variable {α : Type} {edges edges' : List (α × α)} {x y z : α}

/-! ### Joined ends -/

/-- The ends are the same, or edges lead from one to the other. -/
def Joined (edges : List (α × α)) : α → α → Prop :=
  Relation.EqvGen fun x y => (x, y) ∈ edges

/-- An edge joins its ends. -/
theorem Joined.edge
    {e : α × α} (mem : e ∈ edges) :
  Joined edges e.1 e.2
  := .rel _ _ mem

/-- When the ends of every edge are joined, so is what the edges join. -/
theorem Joined.of_edges
    (each : ∀ e ∈ edges, Joined edges' e.1 e.2) (joined : Joined edges x y) :
  Joined edges' x y
  := by
  induction joined with
  | rel x y mem => exact each (x, y) mem
  | refl x => exact .refl x
  | symm x y _ ih => exact ih.symm
  | trans x y z _ _ ih₁ ih₂ => exact ih₁.trans _ _ _ ih₂

/-- More edges join more. -/
theorem Joined.mono
    (more : edges ⊆ edges') (joined : Joined edges x y) :
  Joined edges' x y
  := joined.of_edges fun _ mem => .edge (more mem)

/-- No edge joins ends that the others join. -/
def IsForest (edges : List (α × α)) : Prop :=
  ∀ front e rest, edges = front ++ e :: rest → ¬ Joined (front ++ rest) e.1 e.2

/-- The edges join all that the others join. -/
def Spans (edges edges' : List (α × α)) : Prop :=
  ∀ x y, Joined edges' x y → Joined edges x y

/-- Every edge joins ends that those before it do not join. -/
def Independent (edges : List (α × α)) : Prop :=
  ∀ front e rest, edges = front ++ e :: rest → ¬ Joined front e.1 e.2

/-- No edges are independent. -/
theorem independent_nil :
  Independent ([] : List (α × α))
  := by
  intro front e rest split
  cases front <;> cases split

/-- One more edge, between ends that are not joined. -/
theorem Independent.append_singleton
    {e : α × α} (independent : Independent edges) (apart : ¬ Joined edges e.1 e.2) :
  Independent (edges ++ [e])
  := by
  intro front e' rest split
  rcases List.eq_nil_or_concat rest with rfl | ⟨rest, last, rfl⟩
  · obtain ⟨rfl, same⟩ := List.append_inj' split rfl
    obtain rfl := (List.cons.inj same).1
    exact apart
  · rw [List.concat_eq_append, ← List.cons_append, ← List.append_assoc] at split
    obtain ⟨rfl, -⟩ := List.append_inj' split rfl
    exact independent front e' rest rfl

/-- The edges before a point are independent. -/
theorem Independent.front
    (independent : Independent (edges ++ edges')) :
  Independent edges
  := by
  intro front e rest split
  exact independent front e (rest ++ edges') (by rw [split, List.append_assoc, List.cons_append])

/-! ### Classes -/

variable [DecidableEq α]

/-- Move the class of `b` into the class of `a`. -/
def merge (rep : α → α) (a b x : α) : α :=
  if rep x = rep b then rep a else rep x

/-- Classes that are the same stay as they are. -/
theorem merge_of_eq
    {rep : α → α} {a b : α} (same : rep a = rep b) :
  merge rep a b = rep
  := by
  funext x
  unfold merge
  split_ifs with own
  · rw [same, own]
  · rfl

/-- The class of an end, named by one of its members. -/
def classOf (edges : List (α × α)) : α → α :=
  edges.foldl (fun rep e => merge rep e.1 e.2) id

theorem classOf_append_singleton
    (edges : List (α × α)) (e : α × α) :
  classOf (edges ++ [e]) = merge (classOf edges) e.1 e.2
  := List.foldl_append ..

/-- Ends have the same class exactly when they are joined. -/
theorem classOf_eq_iff :
  classOf edges x = classOf edges y ↔ Joined edges x y
  := by
  induction edges using List.reverseRecOn generalizing x y with
  | nil =>
      constructor
      · rintro rfl
        exact .refl _
      · intro joined
        induction joined with
        | rel _ _ mem => cases mem
        | refl => rfl
        | symm _ _ _ ih => exact ih.symm
        | trans _ _ _ _ _ ih₁ ih₂ => exact ih₁.trans ih₂
  | append_singleton edges e ih =>
      rw [classOf_append_singleton]
      constructor
      · intro same
        have old {x y : α} (joined : classOf edges x = classOf edges y) :
            Joined (edges ++ [e]) x y :=
          (ih.mp joined).mono (List.subset_append_left _ _)
        have new : Joined (edges ++ [e]) e.1 e.2 := .edge (by simp)
        unfold merge at same
        split_ifs at same with own other other
        · exact old (own.trans other.symm)
        · exact ((old own).trans _ _ _ new.symm).trans _ _ _ (old same)
        · exact ((old same).trans _ _ _ new).trans _ _ _ (old other).symm
        · exact old same
      · intro joined
        induction joined with
        | rel x y mem =>
            rw [List.mem_append, List.mem_singleton] at mem
            rcases mem with mem | rfl
            · have same := ih.mpr (.edge mem)
              unfold merge
              rw [same]
            · unfold merge
              rw [if_pos rfl]
              exact ite_self _
        | refl => rfl
        | symm _ _ _ ih => exact ih.symm
        | trans _ _ _ _ _ ih₁ ih₂ => exact ih₁.trans ih₂

/-- The name of a class is in the class. -/
theorem classOf_classOf
    (edges : List (α × α)) (x : α) :
  classOf edges (classOf edges x) = classOf edges x
  := by
  induction edges using List.reverseRecOn generalizing x with
  | nil => rfl
  | append_singleton edges e ih =>
      rw [classOf_append_singleton]
      by_cases own : classOf edges x = classOf edges e.2
      · have moved : merge (classOf edges) e.1 e.2 x = classOf edges e.1 := if_pos own
        rw [moved]
        unfold merge
        rw [ih]
        exact ite_self _
      · have kept : merge (classOf edges) e.1 e.2 x = classOf edges x := if_neg own
        rw [kept]
        unfold merge
        rw [ih, if_neg own]

/-! ### Counting classes -/

/-- The ends of edges. -/
def ends (edges : List (α × α)) : Finset α :=
  (edges.flatMap fun e => [e.1, e.2]).toFinset

/-- The number of classes of the vertices. -/
def parts (vertices : Finset α) (edges : List (α × α)) : Nat :=
  (vertices.image (classOf edges)).card

/-- An edge between two classes makes one of them. -/
theorem parts_append_singleton
    {vertices : Finset α} {e : α × α} (left : e.1 ∈ vertices) (right : e.2 ∈ vertices)
    (apart : ¬ Joined edges e.1 e.2) :
  parts vertices (edges ++ [e]) + 1 = parts vertices edges
  := by
  have different : classOf edges e.1 ≠ classOf edges e.2 :=
    fun same => apart (classOf_eq_iff.mp same)
  have without : vertices.image (classOf (edges ++ [e])) =
      (vertices.image (classOf edges)).erase (classOf edges e.2) := by
    ext c
    simp only [Finset.mem_image, Finset.mem_erase, classOf_append_singleton, merge]
    constructor
    · rintro ⟨v, mem, rfl⟩
      split_ifs with own
      · exact ⟨different, e.1, left, rfl⟩
      · exact ⟨own, v, mem, rfl⟩
    · rintro ⟨other, v, mem, rfl⟩
      exact ⟨v, mem, if_neg other⟩
  unfold parts
  rw [without]
  exact Finset.card_erase_add_one (Finset.mem_image_of_mem _ right)

/-- Independent edges make one class fewer each. -/
theorem Independent.parts_add_length
    {vertices : Finset α} (independent : Independent edges)
    (within : ∀ e ∈ edges, e.1 ∈ vertices ∧ e.2 ∈ vertices) :
  parts vertices edges + edges.length = vertices.card
  := by
  induction edges using List.reverseRecOn with
  | nil =>
      have none_ : classOf ([] : List (α × α)) = id := rfl
      simp [parts, none_]
  | append_singleton edges e ih =>
      have front := ih independent.front fun e' mem => within e' (List.mem_append_left _ mem)
      obtain ⟨left, right⟩ := within e (by simp)
      have step := parts_append_singleton left right (independent edges e [] rfl)
      rw [List.length_append, List.length_singleton]
      omega

/-- Edges make at most one class fewer each. -/
theorem card_le_parts_add_length
    {vertices : Finset α} (within : ∀ e ∈ edges, e.1 ∈ vertices ∧ e.2 ∈ vertices) :
  vertices.card ≤ parts vertices edges + edges.length
  := by
  induction edges using List.reverseRecOn with
  | nil =>
      have none_ : classOf ([] : List (α × α)) = id := rfl
      simp [parts, none_]
  | append_singleton edges e ih =>
      have front := ih fun e' mem => within e' (List.mem_append_left _ mem)
      obtain ⟨left, right⟩ := within e (by simp)
      rw [List.length_append, List.length_singleton]
      by_cases joined : Joined edges e.1 e.2
      · have same : parts vertices (edges ++ [e]) = parts vertices edges := by
          unfold parts
          rw [classOf_append_singleton, merge_of_eq (classOf_eq_iff.mpr joined)]
        omega
      · have step := parts_append_singleton left right joined
        omega

/-- What joins more has fewer classes. -/
theorem Spans.parts_le
    (vertices : Finset α) (spans : Spans edges edges') :
  parts vertices edges ≤ parts vertices edges'
  := by
  have through : vertices.image (classOf edges) =
      (vertices.image (classOf edges')).image (classOf edges) := by
    rw [Finset.image_image]
    refine Finset.image_congr fun x _ => ?_
    have same : Joined edges' x (classOf edges' x) :=
      classOf_eq_iff.mp (classOf_classOf edges' x).symm
    exact classOf_eq_iff.mpr (spans _ _ same)
  unfold parts
  rw [through]
  exact Finset.card_image_le

/-- Independent edges are not more than edges that join as much. -/
theorem Independent.length_le
    (independent : Independent edges) (spans : Spans edges' edges) :
  edges.length ≤ edges'.length
  := by
  have within : ∀ e ∈ edges ++ edges',
      e.1 ∈ ends (edges ++ edges') ∧ e.2 ∈ ends (edges ++ edges') := by
    intro e mem
    unfold ends
    simp only [List.mem_toFinset, List.mem_flatMap]
    exact ⟨⟨e, mem, by simp⟩, ⟨e, mem, by simp⟩⟩
  have exact_ := independent.parts_add_length fun e mem => within e (List.mem_append_left _ mem)
  have bound := card_le_parts_add_length fun e (mem : e ∈ edges') =>
    within e (List.mem_append_right _ mem)
  have fewer := spans.parts_le (ends (edges ++ edges'))
  omega

/-- Independent edges are a forest. -/
theorem Independent.isForest
    (independent : Independent edges) :
  IsForest edges
  := by
  intro front e rest split joined
  have spans : Spans (front ++ rest) edges := by
    intro x y
    rw [split]
    refine Joined.of_edges fun e' mem => ?_
    rcases List.mem_append.mp mem with mem | mem
    · exact .edge (List.mem_append_left _ mem)
    · rcases List.mem_cons.mp mem with rfl | mem
      · exact joined
      · exact .edge (List.mem_append_right _ mem)
  have short := independent.length_le spans
  rw [split, List.length_append, List.length_append, List.length_cons] at short
  omega

/-- Independent edges that are at least as many as edges that join everything join everything. -/
theorem Independent.spans
    {all : List (α × α)} (independent : Independent edges) (spans : Spans edges' all)
    (within : Spans all edges) (many : edges'.length ≤ edges.length) :
  Spans edges all
  := by
  intro x y
  refine Joined.of_edges fun e mem => ?_
  by_contra apart
  -- with the edge they would be more than the others
  have more := independent.append_singleton apart
  have covers : Spans edges' (edges ++ [e]) := by
    intro x y joined
    refine spans x y (joined.of_edges fun e' mem' => ?_)
    rcases List.mem_append.mp mem' with mem' | mem'
    · exact within _ _ (.edge mem')
    · obtain rfl := List.mem_singleton.mp mem'
      exact .edge mem
  have short := more.length_le covers
  rw [List.length_append, List.length_singleton] at short
  omega

end Forest

end Dagrail
