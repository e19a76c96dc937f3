import Mathlib.Logic.Relation
import Mathlib.Data.Fintype.Card
import Mathlib.Data.List.Chain
import Mathlib.Data.List.Perm.Subperm
import Mathlib.Data.Set.Finite.Basic

/-!
# Acyclic relations and Kahn's algorithm

A relation is acyclic when no element leads back to itself. Two tests decide this on finite lists: a
bound on the length of the chains from each element, and Kahn's algorithm, which closes the edges out
of the elements without open incoming edges until there is none left.
-/

namespace Dagrail

variable {α : Type} {r : α → α → Prop}

/-! ### Acyclic relations -/

/-- No element leads back to itself. -/
def Acyclic (r : α → α → Prop) : Prop :=
  ∀ a, ¬ Relation.TransGen r a a

/-- An accessible element is on no cycle. -/
theorem not_transGen_self_of_acc
    {a : α} (acc : Acc r a) :
  ¬ Relation.TransGen r a a
  := by
  have accessible := acc.transGen
  clear acc
  induction accessible with
  | intro a _ ih => exact fun cycle => ih a cycle cycle

/-- When every element with a predecessor is accessible, there is no cycle. -/
theorem Acyclic.of_acc
    (acc : ∀ a b, r a b → Acc r b) :
  Acyclic r
  := by
  intro a cycle
  obtain ⟨b, -, last⟩ := Relation.TransGen.tail'_iff.mp cycle
  exact not_transGen_self_of_acc (acc b a last) cycle

/-- A relation is acyclic when its converse is. -/
theorem Acyclic.swap
    (acyclic : Acyclic (Function.swap r)) :
  Acyclic r
  := fun a cycle => acyclic a (Relation.transGen_swap.mpr cycle)

/-- Every element of an acyclic relation with finitely many sources is accessible. -/
theorem Acyclic.acc
    (acyclic : Acyclic r) {sources : List α} (finite : ∀ a b, r a b → a ∈ sources) (a : α) :
  Acc r a
  := by
  let leads (x y : {a // a ∈ sources}) : Prop := Relation.TransGen r x.1 y.1
  have : IsTrans _ leads := ⟨fun _ _ _ h h' => Relation.TransGen.trans h h'⟩
  have : Std.Irrefl leads := ⟨fun x => acyclic x.1⟩
  have : Finite {a // a ∈ sources} := sources.finite_toSet.to_subtype
  have wellFounded : WellFounded leads := Finite.wellFounded_of_trans_of_irrefl leads
  have inside : ∀ x : {a // a ∈ sources}, Acc r x.1 := by
    intro x
    induction x using wellFounded.induction with
    | _ x ih =>
        refine Acc.intro _ fun b edge => ?_
        exact ih ⟨b, finite b x.1 edge⟩ (.single edge)
  exact Acc.intro _ fun b edge => inside ⟨b, finite b a edge⟩

/-- An element from which all chains are short is accessible for the converse relation. -/
theorem acc_swap_of_chains
    {n : Nat} {a : α} (short : ∀ chain, (a :: chain).IsChain r → (a :: chain).length ≤ n) :
  Acc (Function.swap r) a
  := by
  induction n generalizing a with
  | zero => exact absurd (short [] (List.IsChain.singleton a)) (by simp)
  | succ n ih =>
      refine Acc.intro _ fun b edge => ih fun chain linked => ?_
      have := short (b :: chain) (List.isChain_cons_cons.mpr ⟨edge, linked⟩)
      simpa using this

/-- A relation with a bound on its chains is acyclic. -/
theorem Acyclic.of_chains
    {n : Nat} (short : ∀ chain : List α, chain.IsChain r → chain.length ≤ n) :
  Acyclic r
  := Acyclic.swap (Acyclic.of_acc fun _ _ _ => acc_swap_of_chains fun _ linked => short _ linked)

/-! ### Kahn's algorithm -/

namespace Kahn

variable [DecidableEq α]

/-- Close one incoming edge of each child. A child without open incoming edges joins the queue. -/
def release (children queue : List α) (degree : α → Int) : List α × (α → Int) :=
  children.foldl
    (fun acc child =>
      (if acc.2 child - 1 = 0 then acc.1 ++ [child] else acc.1,
        Function.update acc.2 child (acc.2 child - 1)))
    (queue, degree)

/-- The targets of the edges out of an element, as often as there are edges. -/
def children (edges : List (α × α)) (a : α) : List α :=
  (edges.filter fun edge => edge.1 = a).map Prod.snd

/-- Take the first element of the queue and close the edges out of it, until the queue is empty. The
result gives each element its number of open incoming edges. -/
def run (edges : List (α × α)) : Nat → List α → (α → Int) → α → Int
  | 0, _, degree => degree
  | _ + 1, [], degree => degree
  | fuel + 1, a :: queue, degree =>
      run edges fuel (release (children edges a) queue degree).1
        (release (children edges a) queue degree).2

/-- How many edges lead to an element from those that are not done. -/
def open_ (edges : List (α × α)) (done : List α) (a : α) : Nat :=
  edges.countP fun edge => edge.2 = a ∧ edge.1 ∉ done

/-- Each child loses one open edge for each time it is a child. -/
theorem release_degree
    (children queue : List α) (degree : α → Int) (a : α) :
  (release children queue degree).2 a = degree a - children.count a
  := by
  induction children generalizing queue degree with
  | nil => simp [release]
  | cons child children ih =>
      have step := ih (if degree child - 1 = 0 then queue ++ [child] else queue)
        (Function.update degree child (degree child - 1))
      simp only [release, List.foldl_cons] at step ⊢
      rw [step]
      by_cases same : a = child
      · subst same
        simp
        omega
      · rw [Function.update_of_ne same, List.count_cons_of_ne (Ne.symm same)]

/-- The children that lose their last open edge join the queue, each once. -/
theorem release_queue
    (children queue : List α) (degree : α → Int)
    (enough : ∀ a ∈ children, (children.count a : Int) ≤ degree a) :
  ∃ freed : List α, (release children queue degree).1 = queue ++ freed ∧ freed.Nodup ∧
    ∀ a, a ∈ freed ↔ a ∈ children ∧ degree a = children.count a
  := by
  induction children generalizing queue degree with
  | nil => exact ⟨[], by simp [release]⟩
  | cons child children ih =>
      have first := enough child List.mem_cons_self
      rw [List.count_cons_self] at first
      have rest : ∀ a ∈ children,
          (children.count a : Int) ≤ Function.update degree child (degree child - 1) a := by
        intro a mem
        by_cases same : a = child
        · subst same
          rw [Function.update_self]
          push_cast at first
          omega
        · rw [Function.update_of_ne same]
          have := enough a (List.mem_cons_of_mem _ mem)
          rwa [List.count_cons_of_ne (Ne.symm same)] at this
      obtain ⟨freed, queued, nodup, freed_iff⟩ :=
        ih (if degree child - 1 = 0 then queue ++ [child] else queue) _ rest
      simp only [release, List.foldl_cons] at queued ⊢
      by_cases last : degree child - 1 = 0
      · have gone : child ∉ children := by
          intro mem
          have := List.count_pos_iff.mpr mem
          push_cast at first
          omega
        refine ⟨child :: freed, by rw [queued, if_pos last]; simp, ?_, ?_⟩
        · exact List.nodup_cons.mpr ⟨fun mem => gone ((freed_iff child).mp mem).1, nodup⟩
        · intro a
          by_cases same : a = child
          · subst same
            simp [List.count_eq_zero_of_not_mem gone]
            omega
          · simp [freed_iff, same, List.count_cons_of_ne (Ne.symm same)]
      · refine ⟨freed, by rw [queued, if_neg last], nodup, fun a => ?_⟩
        by_cases same : a = child
        · subst same
          simp only [freed_iff, Function.update_self, List.mem_cons, true_or, true_and,
            List.count_cons_self]
          push_cast at first ⊢
          constructor
          · rintro ⟨-, counted⟩
            omega
          · intro counted
            have : 0 < children.count a := by omega
            exact ⟨List.count_pos_iff.mp this, by omega⟩
        · simp [freed_iff, same, List.count_cons_of_ne (Ne.symm same)]

/-- The edges to an element that its source closes are those the element is a child by. -/
theorem open_cons
    {edges : List (α × α)} {done : List α} {a : α} (new : a ∉ done) (b : α) :
  open_ edges done b = open_ edges (a :: done) b + (children edges a).count b
  := by
  induction edges with
  | nil => simp [open_, children]
  | cons edge edges ih =>
      simp only [open_, children, List.countP_cons, List.filter_cons] at ih ⊢
      rw [ih]
      by_cases source : edge.1 = a
      · subst source
        by_cases target : edge.2 = b
        · simp [target, new]
          omega
        · simp [target]
      · by_cases target : edge.2 = b
        · by_cases before : edge.1 ∈ done
          · simp [source, before]
          · simp [source, target, before]
            omega
        · simp [source, target]

/-- Where the algorithm stands: the degrees count the edges from the elements that are not done, and
the elements without open edges are those that are done or queued. -/
structure Standing (edges : List (α × α)) (nodes queue done : List α) (degree : α → Int) : Prop where
  counts : ∀ a ∈ nodes, degree a = open_ edges done a
  outside : ∀ a, a ∉ nodes → degree a = 0
  free : ∀ a, a ∈ queue ++ done ↔ a ∈ nodes ∧ degree a = 0
  nodup : (queue ++ done).Nodup
  reached : ∀ a ∈ done, Acc (fun a b => (a, b) ∈ edges) a

variable {edges : List (α × α)} {nodes queue done : List α} {degree : α → Int}

/-- The elements that lead to one without open edges are done. -/
theorem Standing.closed
    (standing : Standing edges nodes queue done degree) {a b : α} (node : b ∈ nodes)
    (zero : degree b = 0) (edge : (a, b) ∈ edges) :
  a ∈ done
  := by
  have none : open_ edges done b = 0 := by
    have := standing.counts b node
    omega
  have := List.countP_eq_zero.mp none (a, b) edge
  simpa using this

/-- Closing the edges out of the first element of the queue. -/
theorem Standing.step
    {a : α} (standing : Standing edges nodes (a :: queue) done degree)
    (targets : ∀ edge ∈ edges, edge.2 ∈ nodes) :
  Standing edges nodes (release (children edges a) queue degree).1 (a :: done)
    (release (children edges a) queue degree).2
  := by
  have free := (standing.free a).mp (by simp)
  have new : a ∉ done := fun mem => by
    have := standing.nodup
    simp [mem] at this
  have isNode : ∀ b ∈ children edges a, b ∈ nodes := by
    intro b mem
    simp only [children, List.mem_map, List.mem_filter] at mem
    obtain ⟨edge, ⟨mem, -⟩, rfl⟩ := mem
    exact targets edge mem
  have counted : ∀ b ∈ nodes,
      degree b = open_ edges (a :: done) b + (children edges a).count b := by
    intro b node
    rw [standing.counts b node, open_cons new b]
    push_cast
    rfl
  obtain ⟨freed, queued, nodup, freed_iff⟩ := release_queue (children edges a) queue degree
    fun b mem => by
      rw [counted b (isNode b mem)]
      omega
  constructor
  · intro b node
    rw [release_degree, counted b node]
    omega
  · intro b outside
    rw [release_degree, standing.outside b outside,
      List.count_eq_zero_of_not_mem fun mem => outside (isNode b mem)]
    rfl
  · intro b
    rw [queued, release_degree]
    have before := standing.free b
    simp only [List.mem_append, List.mem_cons, freed_iff] at before ⊢
    constructor
    · rintro ((mem | ⟨child, last⟩) | mem)
      · obtain ⟨node, zero⟩ := before.mp (.inl (.inr mem))
        have := counted b node
        exact ⟨node, by omega⟩
      · exact ⟨isNode b child, by omega⟩
      · obtain ⟨node, zero⟩ := before.mp (mem.elim (fun same => .inl (.inl same)) .inr)
        have := counted b node
        exact ⟨node, by omega⟩
    · rintro ⟨node, zero⟩
      by_cases child : b ∈ children edges a
      · exact .inl (.inr ⟨child, by omega⟩)
      · rw [List.count_eq_zero_of_not_mem child] at zero
        rcases before.mpr ⟨node, by simpa using zero⟩ with (same | mem) | mem
        · exact .inr (.inl same)
        · exact .inl (.inl mem)
        · exact .inr (.inr mem)
  · have old := standing.nodup
    rw [queued]
    have fresh : ∀ b ∈ freed, b ∉ a :: (queue ++ done) := by
      intro b mem known
      obtain ⟨child, last⟩ := (freed_iff b).mp mem
      have zero := ((standing.free b).mp (by simpa using known)).2
      have := List.count_pos_iff.mpr child
      omega
    have perm : (queue ++ freed ++ a :: done).Perm (freed ++ a :: (queue ++ done)) := by
      rw [List.append_assoc]
      exact (List.perm_append_comm_assoc queue freed (a :: done)).trans
        (List.perm_middle.append_left freed)
    rw [perm.nodup_iff, List.nodup_append]
    exact ⟨nodup, by simpa using old, fun b mem c known same => fresh b mem (same ▸ known)⟩
  · intro b mem
    rcases List.mem_cons.mp mem with rfl | mem
    · exact Acc.intro _ fun c edge => standing.reached c (standing.closed free.1 free.2 edge)
    · exact standing.reached b mem

/-- The algorithm stops with an empty queue. -/
theorem Standing.run
    (standing : Standing edges nodes queue done degree)
    (targets : ∀ edge ∈ edges, edge.2 ∈ nodes) {fuel : Nat}
    (enough : nodes.length < fuel + done.length) :
  ∃ done', Standing edges nodes [] done' (run edges fuel queue degree)
  := by
  induction fuel generalizing queue done degree with
  | zero =>
      have subset : done ⊆ nodes := fun a mem => ((standing.free a).mp (by simp [mem])).1
      have nodup := (List.nodup_append.mp standing.nodup).2.1
      have := (List.subperm_of_subset nodup subset).length_le
      omega
  | succ fuel ih =>
      cases queue with
      | nil => exact ⟨done, standing⟩
      | cons a queue => exact ih (standing.step targets) (by simp only [List.length_cons]; omega)

/-- The elements without incoming edges are a place to start from. -/
theorem Standing.start
    (nodup : nodes.Nodup) (counts : ∀ a ∈ nodes, degree a = open_ edges [] a)
    (outside : ∀ a, a ∉ nodes → degree a = 0)
    (roots : queue.Perm (nodes.filter fun a => degree a = 0)) :
  Standing edges nodes queue [] degree
  := by
  constructor
  · exact counts
  · exact outside
  · intro a
    simp [roots.mem_iff]
  · simpa [roots.nodup_iff] using nodup.filter _
  · simp

/-- No edge is left open exactly when the edges form no cycle. -/
theorem Standing.all_closed_iff
    (standing : Standing edges nodes [] done degree) (inside : ∀ edge ∈ edges,
      edge.1 ∈ nodes ∧ edge.2 ∈ nodes) :
  (∀ a, degree a = 0) ↔ Acyclic fun a b => (a, b) ∈ edges
  := by
  constructor
  · intro closed
    refine Acyclic.of_acc fun a b edge => standing.reached b ?_
    simpa using (standing.free b).mpr ⟨(inside _ edge).2, closed b⟩
  · intro acyclic a
    by_cases node : a ∈ nodes
    · have acc := acyclic.acc (fun a b edge => (inside (a, b) edge).1) a
      induction acc with
      | intro a _ ih =>
          have none : open_ edges done a = 0 := by
            refine List.countP_eq_zero.mpr fun edge mem => ?_
            simp only [decide_eq_true_eq, not_and, not_not]
            rintro rfl
            have node := (inside edge mem).1
            have zero := ih edge.1 mem node
            simpa using (standing.free edge.1).mpr ⟨node, zero⟩
          rw [standing.counts a node, none]
          rfl
    · exact standing.outside a node

end Kahn

end Dagrail
