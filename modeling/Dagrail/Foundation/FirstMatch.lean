import Mathlib.Data.List.Basic

/-!
# Changing the first match of a list

Records are kept in lists and found by the first element with a given key. These lemmas say what
a change or a removal of that element leaves alone.
-/

namespace Dagrail

variable {α β : Type}

/-- Change the first element that satisfies `p`. -/
def updateFirst (p : α → Bool) (f : α → α) : List α → List α
  | [] => []
  | a :: as => if p a then f a :: as else a :: updateFirst p f as

/-- What a filter and a projection see of a list is left by a change they do not see. -/
theorem filter_map_updateFirst
    {p q : α → Bool} {f : α → α} {h : α → β} {l : List α}
    (sameFilter : ∀ a, p a = true → q (f a) = q a)
    (sameValue : ∀ a, p a = true → q a = true → h (f a) = h a) :
  ((updateFirst p f l).filter q).map h = (l.filter q).map h
  := by
  induction l with
  | nil => rfl
  | cons a as ih =>
      unfold updateFirst
      split
      · rename_i found
        simp only [List.filter_cons, sameFilter a found]
        split
        · rename_i visible
          simp [sameValue a found visible]
        · rfl
      · simp only [List.filter_cons]
        split
        · simp [ih]
        · exact ih

/-- What a change of the first match leads to: the record was there, or it is the changed match. -/
theorem mem_updateFirst
    {p : α → Bool} {f : α → α} {l : List α} {b : α} (mem : b ∈ updateFirst p f l) :
  b ∈ l ∨ ∃ a ∈ l, p a = true ∧ b = f a
  := by
  induction l with
  | nil => simp [updateFirst] at mem
  | cons a as ih =>
      unfold updateFirst at mem
      split at mem
      · rcases List.mem_cons.mp mem with rfl | mem
        · exact .inr ⟨a, by simp, ‹_›, rfl⟩
        · exact .inl (List.mem_cons_of_mem _ mem)
      · rcases List.mem_cons.mp mem with rfl | mem
        · exact .inl (by simp)
        · rcases ih mem with mem | ⟨a', there, found, rfl⟩
          · exact .inl (List.mem_cons_of_mem _ mem)
          · exact .inr ⟨a', List.mem_cons_of_mem _ there, found, rfl⟩

/-- A change of the first match that a projection does not see leaves what it sees. -/
theorem map_updateFirst
    {p : α → Bool} {f : α → α} {l : List α} {g : α → β} (keeps : ∀ a, p a = true → g (f a) = g a) :
  (updateFirst p f l).map g = l.map g
  := by
  have same := filter_map_updateFirst (p := p) (q := fun _ => true) (f := f) (h := g) (l := l)
    (fun _ _ => rfl) (fun a found _ => keeps a found)
  simpa using same

/-- A filter that does not see the first match does not see its removal. -/
theorem filter_eraseP_of_find?
    {p q : α → Bool} {l : List α} {a : α} (found : l.find? p = some a) (hidden : q a = false) :
  (l.eraseP p).filter q = l.filter q
  := by
  induction l with
  | nil => rfl
  | cons b bs ih =>
      cases match_ : p b with
      | true =>
          rw [List.find?_cons_of_pos match_, Option.some.injEq] at found
          subst found
          simp [List.eraseP_cons_of_pos match_, hidden]
      | false =>
          have pb : ¬ p b = true := by simp [match_]
          rw [List.find?_cons_of_neg pb] at found
          simp only [List.eraseP_cons_of_neg pb, List.filter_cons]
          rw [ih found]

/-- The first match is found by what a filter and a projection see of the list. -/
theorem find?_map_eq
    {q : α → Bool} {h : α → β} {l l' : List α}
    (same : (l.filter q).map h = (l'.filter q).map h) :
  (l.find? q).map h = (l'.find? q).map h
  := by
  have head : ∀ l : List α, (l.find? q).map h = ((l.filter q).map h).head? := by
    intro l
    simp
  rw [head, head, same]

end Dagrail
