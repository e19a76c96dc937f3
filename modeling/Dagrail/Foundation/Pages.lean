import Mathlib.Data.List.Basic

/-!
# Pages

A list that is too long for one answer is given in pages, each with a reference to the next one. If
every page has the next part of the list, then the pages that are read one after the other are the
list, and they come to an end.
-/

namespace Dagrail

namespace Pages

variable {Ref Page β : Type}

/-- Pages that are read one after the other, each by the reference in the one before it, up to one
without a reference. -/
inductive Walk (answers : Ref → Page → Prop) (next : Page → Option Ref) : Ref → List Page → Prop
    where
  | last {ref : Ref} {page : Page} (answer : answers ref page) (stop : next page = none) :
      Walk answers next ref [page]
  | more {ref ref' : Ref} {page : Page} {pages : List Page} (answer : answers ref page)
      (goes : next page = some ref') (rest : Walk answers next ref' pages) :
      Walk answers next ref (page :: pages)

variable {answers : Ref → Page → Prop} {next : Page → Option Ref}

/-- The first reference is answered. -/
theorem Walk.answer
    {ref : Ref} {pages : List Page} (walk : Walk answers next ref pages) :
  ∃ page, answers ref page
  := by
  cases walk with
  | last answer _ => exact ⟨_, answer⟩
  | more answer _ _ => exact ⟨_, answer⟩

/-- Every page that is read satisfies what the answers in allowed places satisfy, if pages refer to
allowed places. -/
theorem Walk.forall
    {ref : Ref} {pages : List Page} (walk : Walk answers next ref pages) (allowed : Ref → Prop)
    {p : Page → Prop}
    (all : ∀ ref page, allowed ref → answers ref page →
      p page ∧ ∀ ref', next page = some ref' → allowed ref')
    (start : allowed ref) :
  ∀ page ∈ pages, p page
  := by
  induction walk with
  | last answer stop =>
      intro page mem
      obtain rfl := List.mem_singleton.mp mem
      exact (all _ _ start answer).1
  | more answer goes rest ih =>
      intro page mem
      obtain ⟨here, there⟩ := all _ _ start answer
      rcases List.mem_cons.mp mem with rfl | later
      · exact here
      · exact ih (there _ goes) page later

/-- The pages from a place on are what there is from that place on, if each page has the part up to
the place of the next one, and the last page has the rest. -/
theorem Walk.flatMap_eq
    {items : Page → List β} (place : Ref → Nat → Prop) (value : Nat → List β)
    (reads : ∀ ref i page, place ref i → answers ref page →
      (next page = none → items page = value i)
        ∧ ∀ ref', next page = some ref' → ∃ j, place ref' j ∧ items page ++ value j = value i)
    {ref : Ref} {pages : List Page} (walk : Walk answers next ref pages) {i : Nat}
    (start : place ref i) :
  pages.flatMap items = value i
  := by
  induction walk generalizing i with
  | last answer stop =>
      rw [List.flatMap_singleton]
      exact (reads _ _ _ start answer).1 stop
  | more answer goes rest ih =>
      obtain ⟨j, there, part⟩ := (reads _ _ _ start answer).2 _ goes
      rw [List.flatMap_cons, ih there]
      exact part

/-- Pages can be read to the end, if every place in front of the end is answered and the next page
is at a later place. -/
theorem exists_walk
    (place : Ref → Nat → Prop) (last : Nat)
    (answered : ∀ ref i, place ref i → i < last → ∃ page, answers ref page)
    (grows : ∀ ref i page, place ref i → i < last → answers ref page →
      ∀ ref', next page = some ref' → ∃ j, place ref' j ∧ i < j ∧ j < last)
    {ref : Ref} {i : Nat} (start : place ref i) (short : i < last) :
  ∃ pages, Walk answers next ref pages ∧ pages.length ≤ last - i
  := by
  induction left : last - i using Nat.strongRecOn generalizing ref i with
  | ind n ih =>
      obtain ⟨page, answer⟩ := answered ref i start short
      cases goes : next page with
      | none => exact ⟨[page], .last answer goes, by rw [List.length_singleton]; omega⟩
      | some ref' =>
          obtain ⟨j, there, later, inside⟩ := grows ref i page start short answer ref' goes
          obtain ⟨pages, walk, few⟩ := ih (last - j) (by omega) there inside rfl
          exact ⟨page :: pages, .more answer goes walk, by rw [List.length_cons]; omega⟩

end Pages

end Dagrail
