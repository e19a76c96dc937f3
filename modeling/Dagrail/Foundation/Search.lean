import Mathlib.Logic.Relation
import Mathlib.Data.List.Perm.Subperm

/-!
# Depth-first search

A search keeps a stack of elements whose successors are still to be seen, and the elements it has
seen. It sees exactly the elements that the start leads to.
-/

namespace Dagrail.Search

variable {α : Type}

/-- Where a search from `start` stands: what is seen is reached, and whatever is seen and not on the
stack has its successors seen. -/
structure Standing (next : α → List α) (start : α) (stack seen : List α) : Prop where
  reached : ∀ b ∈ seen, Relation.TransGen (fun a b => b ∈ next a) start b
  pending : ∀ b ∈ stack, b = start ∨ b ∈ seen
  closed : ∀ a, a = start ∨ a ∈ seen → a ∉ stack → ∀ b ∈ next a, b ∈ seen
  nodup : seen.Nodup

variable {next : α → List α} {start : α} {stack seen : List α}

/-- A search begins with its start on the stack. -/
theorem Standing.begin :
  Standing next start [start] []
  := by
  constructor
  · simp
  · simp
  · rintro a (rfl | mem) off
    · simp at off
    · simp at mem
  · exact List.nodup_nil

variable [DecidableEq α]

/-- See the elements of a list. One that is new goes on the stack. -/
def visit (found : List α) (acc : List α × List α) : List α × List α :=
  found.foldl (fun acc b => if acc.2.contains b then acc else (b :: acc.1, b :: acc.2)) acc

/-- Take elements off the stack and see their successors. -/
def run (next : α → List α) : Nat → List α → List α → List α
  | 0, _, seen => seen
  | _ + 1, [], seen => seen
  | fuel + 1, a :: stack, seen =>
      run next fuel (visit (next a) (stack, seen)).1 (visit (next a) (stack, seen)).2

/-- What a visit adds to the stack it adds to the seen elements: what was new in the list. -/
theorem visit_spec
    (found stack seen : List α) :
  ∃ new : List α, visit found (stack, seen) = (new ++ stack, new ++ seen) ∧ new.Nodup ∧
    ∀ b, b ∈ new ↔ b ∈ found ∧ b ∉ seen
  := by
  induction found generalizing stack seen with
  | nil => exact ⟨[], by simp [visit]⟩
  | cons a found ih =>
      simp only [visit, List.foldl_cons] at ih ⊢
      by_cases known : a ∈ seen
      · obtain ⟨new, same, nodup, new_iff⟩ := ih stack seen
        refine ⟨new, by simpa [known] using same, nodup, fun b => ?_⟩
        rw [new_iff, List.mem_cons]
        constructor
        · exact fun ⟨mem, fresh⟩ => ⟨.inr mem, fresh⟩
        · rintro ⟨rfl | mem, fresh⟩
          · exact absurd known fresh
          · exact ⟨mem, fresh⟩
      · obtain ⟨new, same, nodup, new_iff⟩ := ih (a :: stack) (a :: seen)
        refine ⟨new ++ [a], by simpa [known] using same, ?_, fun b => ?_⟩
        · have apart : a ∉ new := fun mem => ((new_iff a).mp mem).2 List.mem_cons_self
          rw [List.nodup_append]
          exact ⟨nodup, by simp, fun b mem c single same =>
            apart (List.mem_singleton.mp single ▸ same ▸ mem)⟩
        · rw [List.mem_append, new_iff, List.mem_singleton, List.mem_cons, List.mem_cons, not_or]
          by_cases same : b = a
          · simp [same, known]
          · simp [same]

/-- Seeing the successors of an element. -/
theorem Standing.step
    {a : α} (standing : Standing next start (a :: stack) seen) :
  Standing next start (visit (next a) (stack, seen)).1 (visit (next a) (stack, seen)).2
  := by
  obtain ⟨new, same, nodup, new_iff⟩ := visit_spec (next a) stack seen
  rw [same]
  constructor
  · intro b mem
    rcases List.mem_append.mp mem with fresh | old
    · have edge := ((new_iff b).mp fresh).1
      rcases standing.pending a List.mem_cons_self with rfl | known
      · exact .single edge
      · exact .tail (standing.reached a known) edge
    · exact standing.reached b old
  · intro b mem
    rcases List.mem_append.mp mem with fresh | old
    · exact .inr (List.mem_append_left _ fresh)
    · rcases standing.pending b (List.mem_cons_of_mem _ old) with rfl | known
      · exact .inl rfl
      · exact .inr (List.mem_append_right _ known)
  · intro b known off c edge
    simp only [List.mem_append, not_or] at known off ⊢
    by_cases first : b = a
    · subst first
      by_cases seenBefore : c ∈ seen
      · exact .inr seenBefore
      · exact .inl ((new_iff c).mpr ⟨edge, seenBefore⟩)
    · have before : b = start ∨ b ∈ seen := by
        rcases known with same | fresh | old
        · exact .inl same
        · exact absurd fresh off.1
        · exact .inr old
      exact .inr (standing.closed b before (by simp [first, off.2]) c edge)
  · rw [List.nodup_append]
    refine ⟨nodup, standing.nodup, fun b fresh c old same => ?_⟩
    exact ((new_iff b).mp fresh).2 (same ▸ old)

/-- A search with enough fuel stops with an empty stack. -/
theorem Standing.run
    (standing : Standing next start stack seen) {bound : List α}
    (bounded : ∀ a, ∀ b ∈ next a, b ∈ bound) (within : seen ⊆ bound) {fuel : Nat}
    (enough : stack.length + bound.length < fuel + seen.length) :
  Standing next start [] (run next fuel stack seen)
  := by
  induction fuel generalizing stack seen with
  | zero =>
      have := (List.subperm_of_subset standing.nodup within).length_le
      omega
  | succ fuel ih =>
      cases stack with
      | nil => exact standing
      | cons a stack =>
          refine ih standing.step ?_ ?_
          · obtain ⟨new, same, -, new_iff⟩ := visit_spec (next a) stack seen
            rw [same]
            intro b mem
            rcases List.mem_append.mp mem with fresh | old
            · exact bounded a b ((new_iff b).mp fresh).1
            · exact within old
          · obtain ⟨new, same, -, -⟩ := visit_spec (next a) stack seen
            rw [same]
            simp only [List.length_append, List.length_cons] at enough ⊢
            omega

/-- A search sees exactly what the start leads to. -/
theorem mem_run
    {bound : List α} (bounded : ∀ a, ∀ b ∈ next a, b ∈ bound) {fuel : Nat}
    (enough : bound.length + 1 < fuel) (b : α) :
  b ∈ run next fuel [start] [] ↔ Relation.TransGen (fun a b => b ∈ next a) start b
  := by
  have begun : Standing next start [start] [] := Standing.begin
  have fueled : [start].length + bound.length < fuel + ([] : List α).length := by
    simp only [List.length_singleton, List.length_nil]
    omega
  have stopped := begun.run bounded (List.nil_subset _) fueled
  constructor
  · exact stopped.reached b
  · intro reached
    induction reached with
    | single edge => exact stopped.closed start (.inl rfl) (by simp) _ edge
    | tail _ edge ih => exact stopped.closed _ (.inr ih) (by simp) _ edge

end Dagrail.Search
