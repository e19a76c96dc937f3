import Mathlib.Data.List.Basic

/-!
# Joined lists

Parts that are joined by a separator are known from the result only up to the separators inside of
them: two lists of parts have the same join exactly when they have the same pieces.
-/

namespace Dagrail.Joined

variable {α : Type} [DecidableEq α] {sep : α} {parts parts' : List (List α)}

/-- The parts, each split at the separators inside of it. -/
def pieces (sep : α) (parts : List (List α)) : List (List α) :=
  parts.flatMap (List.splitOn sep)

/-- No separator is inside of what a list is split into. -/
theorem not_mem_of_mem_splitOn
    {list piece : List α} (mem : piece ∈ list.splitOn sep) :
  sep ∉ piece
  := by
  induction list generalizing piece with
  | nil =>
      rw [List.splitOn_nil, List.mem_singleton] at mem
      simp [mem]
  | cons a rest ih =>
      rw [List.splitOn_cons_eq_if_modifyHead] at mem
      obtain ⟨first, others, split⟩ := List.exists_cons_of_ne_nil (List.splitOn_ne_nil sep rest)
      rw [split] at mem ih
      by_cases separates : a = sep
      · rw [if_pos (by simp [separates]), List.mem_cons] at mem
        rcases mem with rfl | mem
        · simp
        · exact ih mem
      · rw [if_neg (by simp [separates]), List.modifyHead_cons, List.mem_cons] at mem
        rcases mem with rfl | mem
        · simp only [List.mem_cons, not_or]
          exact ⟨fun same => separates same.symm, ih List.mem_cons_self⟩
        · exact ih (List.mem_cons_of_mem first mem)

/-- No separator is inside of a piece. -/
theorem not_mem_of_mem_pieces
    {piece : List α} (mem : piece ∈ pieces sep parts) :
  sep ∉ piece
  := by
  obtain ⟨part, -, mem⟩ := List.mem_flatMap.mp mem
  exact not_mem_of_mem_splitOn mem

/-- Some part has a piece. -/
theorem pieces_ne_nil
    (some_ : parts ≠ []) :
  pieces sep parts ≠ []
  := by
  obtain ⟨part, rest, rfl⟩ := List.exists_cons_of_ne_nil some_
  simp [pieces, List.splitOn_ne_nil]

omit [DecidableEq α] in
/-- The join of two lists of parts has one more separator. -/
theorem intercalate_append
    (some_ : parts ≠ []) (some' : parts' ≠ []) :
  [sep].intercalate (parts ++ parts') = [sep].intercalate parts ++ [sep] ++ [sep].intercalate parts'
  := by
  induction parts with
  | nil => exact absurd rfl some_
  | cons part rest ih =>
      by_cases last : rest = []
      · simp [last, List.intercalate_cons_of_ne_nil some']
      · have more : rest ++ parts' ≠ [] := by simp [last]
        rw [List.cons_append, List.intercalate_cons_of_ne_nil more,
          List.intercalate_cons_of_ne_nil last, ih last]
        simp

/-- Splitting at the separators inside of the parts does not change the join. -/
theorem intercalate_pieces
    (parts : List (List α)) :
  [sep].intercalate (pieces sep parts) = [sep].intercalate parts
  := by
  induction parts with
  | nil => rfl
  | cons part rest ih =>
      by_cases last : rest = []
      · simp [pieces, last]
      · have some_ : pieces sep rest ≠ [] := pieces_ne_nil last
        rw [List.intercalate_cons_of_ne_nil last, ← ih]
        show [sep].intercalate (part.splitOn sep ++ pieces sep rest) = _
        rw [intercalate_append (List.splitOn_ne_nil sep part) some_, List.intercalate_splitOn]

/-- Two lists of parts have the same join exactly when they have the same pieces. -/
theorem intercalate_eq_iff
    (some_ : parts ≠ []) (some' : parts' ≠ []) :
  [sep].intercalate parts = [sep].intercalate parts' ↔ pieces sep parts = pieces sep parts'
  := by
  constructor
  · intro same
    rw [← intercalate_pieces parts, ← intercalate_pieces parts'] at same
    have split := congrArg (List.splitOn sep) same
    rwa [List.splitOn_intercalate sep (fun _ => not_mem_of_mem_pieces) (pieces_ne_nil some_),
      List.splitOn_intercalate sep (fun _ => not_mem_of_mem_pieces) (pieces_ne_nil some')] at split
  · intro same
    rw [← intercalate_pieces parts, ← intercalate_pieces parts', same]

/-- Parts without separators are their own pieces. -/
theorem pieces_of_free
    (free : ∀ part ∈ parts, sep ∉ part) :
  pieces sep parts = parts
  := by
  induction parts with
  | nil => rfl
  | cons part rest ih =>
      have own : part.splitOn sep = [part] := List.splitOn_eq_singleton (free part (by simp))
      have others := ih fun part mem => free part (by simp [mem])
      rw [pieces, List.flatMap_cons, own]
      exact congrArg (part :: ·) others

end Dagrail.Joined
