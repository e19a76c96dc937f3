import Mathlib.Data.List.Basic

/-!
# Outstanding admissions

A trace whose elements open an admission, close it, or do neither. An admission is outstanding when
it is the newest of the elements that open or close. In a trace whose uses all find an outstanding
admission and close it, no admission serves two uses.
-/

namespace Dagrail

variable {α : Type}

/-- The newest of the elements that open or close is one that opens. -/
def Outstanding (mark : α → Option Bool) (trace : List α) : Prop :=
  ∃ before opening between, trace = before ++ opening :: between ∧ mark opening = some true ∧
    ∀ x ∈ between, mark x ≠ some false

/-- Every use of the trace finds an outstanding admission in what comes before it, be it in the past
of the trace. -/
def Accounted (mark : α → Option Bool) (uses : α → Prop) (past trace : List α) : Prop :=
  ∀ before x after, trace = before ++ x :: after → uses x → Outstanding mark (past ++ before)

namespace Outstanding

variable {mark : α → Option Bool} {trace more : List α} {x : α}

/-- An admission stays outstanding while nothing closes it. -/
theorem append
    (outstanding : Outstanding mark trace) (calm : ∀ x ∈ more, mark x ≠ some false) :
  Outstanding mark (trace ++ more)
  := by
  obtain ⟨before, opening, between, rfl, opens, calm'⟩ := outstanding
  refine ⟨before, opening, between ++ more, by simp, opens, ?_⟩
  intro x mem
  rcases List.mem_append.mp mem with mem | mem
  · exact calm' x mem
  · exact calm x mem

/-- An admission stays outstanding whatever has come before. -/
theorem prepend
    (outstanding : Outstanding mark trace) (past : List α) :
  Outstanding mark (past ++ trace)
  := by
  obtain ⟨before, opening, between, rfl, opens, calm⟩ := outstanding
  exact ⟨past ++ before, opening, between, by simp, opens, calm⟩

/-- What opens leaves an outstanding admission. -/
theorem of_opens
    (opens : mark x = some true) :
  Outstanding mark (trace ++ [x])
  := ⟨trace, x, [], rfl, opens, by simp⟩

/-- What opens is outstanding on its own. -/
theorem single
    (opens : mark x = some true) :
  Outstanding mark [x]
  := ⟨[], x, [], rfl, opens, by simp⟩

/-- No admission is outstanding in the empty trace. -/
theorem not_nil :
  ¬ Outstanding mark []
  := by
  rintro ⟨before, opening, between, none_, -⟩
  simp at none_

/-- An admission that is outstanding after an element was opened by it, or was outstanding before
and is not closed by it. -/
theorem concat_cases
    (outstanding : Outstanding mark (trace ++ [x])) :
  mark x = some true ∨ (mark x ≠ some false ∧ Outstanding mark trace)
  := by
  obtain ⟨before, opening, between, split, opens, calm⟩ := outstanding
  rcases between.eq_nil_or_concat with rfl | ⟨between, last, rfl⟩
  · obtain ⟨-, same⟩ := List.append_inj' split rfl
    obtain rfl := List.singleton_inj.mp same
    exact .inl opens
  · rw [List.concat_eq_append, ← List.cons_append, ← List.append_assoc] at split
    obtain ⟨rfl, same⟩ := List.append_inj' split rfl
    obtain rfl := List.singleton_inj.mp same
    exact .inr ⟨calm x (by simp), before, opening, between, rfl, opens,
      fun y mem => calm y (by simp [mem])⟩

end Outstanding

namespace Accounted

variable {mark : α → Option Bool} {uses : α → Prop} {past trace more : List α}

/-- A trace without uses is accounted for. -/
theorem of_unused
    (unused : ∀ x ∈ trace, ¬ uses x) :
  Accounted mark uses past trace
  := by
  rintro before x after rfl used
  exact absurd used (unused x (by simp))

/-- Traces are accounted for one after the other. -/
theorem append
    (first : Accounted mark uses past trace) (second : Accounted mark uses (past ++ trace) more) :
  Accounted mark uses past (trace ++ more)
  := by
  intro before x after split used
  rcases List.append_eq_append_iff.mp split with ⟨rest, rfl, tail⟩ | ⟨rest, rfl, tail⟩
  · rw [← List.append_assoc]
    exact second rest x after tail used
  · rcases List.cons_eq_append_iff.mp tail with ⟨rfl, rfl⟩ | ⟨rest, rfl, -⟩
    · have here := second [] x after rfl used
      simpa using here
    · exact first before x rest rfl used

/-- A first element is accounted for with an admission of the past. -/
theorem cons
    {x : α} (here : uses x → Outstanding mark past) (rest : Accounted mark uses (past ++ [x]) trace) :
  Accounted mark uses past (x :: trace)
  := by
  rw [← List.singleton_append]
  refine append ?_ rest
  intro before y after split used
  obtain ⟨rfl, rfl⟩ : before = [] ∧ x = y := by
    rcases List.cons_eq_append_iff.mp split with ⟨rfl, same⟩ | ⟨rest, -, none_⟩
    · exact ⟨rfl, (List.cons.inj same).1.symm⟩
    · simp at none_
  rw [List.append_nil]
  exact here used

/-- Between two uses that close their admissions, an admission is opened. -/
theorem between
    (accounted : Accounted mark uses [] trace) {before between after : List α} {x y : α}
    (split : trace = before ++ x :: between ++ y :: after) (closes : mark x = some false)
    (used : uses y) :
  ∃ opening ∈ between, mark opening = some true
  := by
  obtain ⟨front, opening, rest, same, opens, calm⟩ := accounted _ y after split used
  rw [List.nil_append] at same
  rcases List.append_eq_append_iff.mp same with ⟨more, rfl, tail⟩ | ⟨more, rfl, tail⟩
  · rcases List.cons_eq_append_iff.mp tail with ⟨rfl, here⟩ | ⟨more, rfl, here⟩
    · obtain ⟨rfl, -⟩ := List.cons.inj here
      simp [opens] at closes
    · exact ⟨opening, by simp [here], opens⟩
  · -- the opening would come before the first use, which closes it
    rcases List.cons_eq_append_iff.mp tail with ⟨rfl, here⟩ | ⟨more, rfl, here⟩
    · obtain ⟨rfl, -⟩ := List.cons.inj here
      simp [opens] at closes
    · exact absurd closes (calm x (by simp [here]))

end Accounted

end Dagrail
