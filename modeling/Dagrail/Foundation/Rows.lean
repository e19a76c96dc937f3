import Mathlib.Data.List.AList
import Mathlib.Data.List.Induction
import Mathlib.Data.List.Sort
import Mathlib.Data.String.Basic
import Dagrail.Foundation.Outcome
import Dagrail.Foundation.Table

/-!
# Tables filled in any order

A table is filled from a list of entries in one of two ways: every entry under a new key, or every
entry over what was there before. The first way does not depend on the order of the list. The second
one keeps the last entry of a key. When whole records, each with entries of its own, come in any
order, the entry of a key is certain exactly when all records that have the key end with the same
entry for it.
-/

namespace Dagrail

namespace Table

variable {β : Type}

/-- Two tables with the same entry at every key. -/
def Same (t t' : Table β) : Prop :=
  ∀ k, t.lookup k = t'.lookup k

/-- The entries of a table in the order of their keys. -/
def ordered (t : Table β) : List (String × β) :=
  (t.keys.insertionSort (· ≤ ·)).filterMap fun k => (t.lookup k).map fun b => (k, b)

/-- An entry is listed exactly when it is in the table. -/
theorem mem_ordered
    {t : Table β} {k : String} {b : β} :
  (k, b) ∈ t.ordered ↔ t.lookup k = some b
  := by
  simp only [ordered, List.mem_filterMap, List.mem_insertionSort, Option.map_eq_some_iff,
    Prod.mk.injEq]
  constructor
  · rintro ⟨k', -, b', found, rfl, rfl⟩
    exact found
  · intro found
    refine ⟨k, ?_, b, found, rfl, rfl⟩
    rw [← AList.mem_keys, ← AList.lookup_isSome, found]
    rfl

/-- Tables with the same entries are listed the same way, and only these. -/
theorem ordered_eq_iff
    {t t' : Table β} :
  t.ordered = t'.ordered ↔ t.Same t'
  := by
  constructor
  · intro same k
    apply Option.ext
    intro b
    rw [← mem_ordered, ← mem_ordered, same]
  · intro same
    have keys : t.keys.Perm t'.keys := by
      apply (List.perm_ext_iff_of_nodup t.keys_nodup t'.keys_nodup).mpr
      intro k
      rw [← AList.mem_keys, ← AList.mem_keys, ← AList.lookup_isSome, ← AList.lookup_isSome, same k]
    have sorted : t.keys.insertionSort (· ≤ ·) = t'.keys.insertionSort (· ≤ ·) := by
      apply List.Perm.eq_of_pairwise' (List.pairwise_insertionSort _ _)
        (List.pairwise_insertionSort _ _)
      exact (List.perm_insertionSort _ _).trans (keys.trans (List.perm_insertionSort _ _).symm)
    unfold ordered
    rw [sorted]
    congr 1
    funext k
    rw [same k]

/-! ### New keys only -/

/-- File an entry under a new key. -/
def insertNew (message : String) (t : Table β) (e : String × β) : Fallible (Table β) := do
  check (!t.has e.1) message
  .ok (t.insert e.1 e.2)

/-- File every entry under a new key. -/
def fill (message : String) (entries : List (String × β)) : Fallible (Table β) :=
  entries.foldlM (insertNew message) ∅

/-- The keys of the entries are new to the table and differ from each other. -/
def New (t : Table β) (entries : List (String × β)) : Prop :=
  (∀ e ∈ entries, t.has e.1 = false) ∧ (entries.map Prod.fst).Nodup

/-- Filing entries, from any table: it succeeds when all keys are new, and adds just these
entries; otherwise it is refused. -/
theorem foldlM_insertNew
    {message : String} {entries : List (String × β)} {t : Table β} :
  (New t entries → ∃ t', entries.foldlM (insertNew message) t = .ok t' ∧
      ∀ k b, t'.lookup k = some b ↔ (k, b) ∈ entries ∨ t.lookup k = some b) ∧
    (¬ New t entries → entries.foldlM (insertNew message) t = .error message)
  := by
  induction entries generalizing t with
  | nil =>
      constructor
      · intro _
        exact ⟨t, rfl, by simp⟩
      · intro old
        exact absurd ⟨by simp, List.nodup_nil⟩ old
  | cons e rest ih =>
      obtain ⟨key, value⟩ := e
      rw [List.foldlM_cons]
      by_cases known : t.has key = true
      · have refused : insertNew message t (key, value) = .error message := by
          simp [insertNew, check, known]
        rw [refused]
        constructor
        · rintro ⟨new, -⟩
          simp [new (key, value) (by simp)] at known
        · intro _
          rfl
      · have fresh : t.has key = false := by simpa using known
        have filed : insertNew message t (key, value) = .ok (t.insert key value) := by
          simp [insertNew, check, fresh]
        have new_iff : New t ((key, value) :: rest) ↔ New (t.insert key value) rest := by
          simp only [New, List.forall_mem_cons, List.map_cons, List.nodup_cons, List.mem_map,
            has_insert, fresh, true_and]
          constructor
          · rintro ⟨new, other, nodup⟩
            refine ⟨?_, nodup⟩
            intro e mem
            have distinct : e.1 ≠ key := fun same => other ⟨e, mem, same⟩
            simp [distinct, new e mem]
          · rintro ⟨new, nodup⟩
            refine ⟨?_, ?_, nodup⟩
            · intro e mem
              have := new e mem
              simp only [Bool.or_eq_false_iff] at this
              exact this.2
            · rintro ⟨e, mem, same⟩
              have := new e mem
              simp [same] at this
        rw [filed, ok_bind, new_iff]
        obtain ⟨success, failure⟩ := @ih (t.insert key value)
        refine ⟨?_, failure⟩
        intro new
        obtain ⟨t', run, entries'⟩ := success new
        refine ⟨t', run, ?_⟩
        intro k b
        rw [entries', lookup_insert]
        by_cases same : k = key
        · subst same
          have absent : t.lookup k = none := by simpa [has] using fresh
          simp [absent, eq_comm, or_comm]
        · simp [same]

/-- Filing the entries succeeds exactly when no key occurs twice. -/
theorem fill_eq_ok
    {message : String} {entries : List (String × β)} :
  (∃ t, fill message entries = .ok t) ↔ (entries.map Prod.fst).Nodup
  := by
  obtain ⟨success, failure⟩ := @foldlM_insertNew _ message entries ∅
  have new : New ∅ entries ↔ (entries.map Prod.fst).Nodup := by simp [New]
  constructor
  · rintro ⟨t, run⟩
    by_contra twice
    rw [← new] at twice
    have := failure twice
    rw [fill, this] at run
    cases run
  · intro nodup
    obtain ⟨t, run, -⟩ := success (new.mpr nodup)
    exact ⟨t, run⟩

/-- A table that was filled has just the given entries. -/
theorem fill_lookup
    {message : String} {entries : List (String × β)} {t : Table β}
    (run : fill message entries = .ok t) {k : String} {b : β} :
  t.lookup k = some b ↔ (k, b) ∈ entries
  := by
  obtain ⟨success, failure⟩ := @foldlM_insertNew _ message entries ∅
  by_cases new : New ∅ entries
  · obtain ⟨t', run', entries'⟩ := success new
    obtain rfl := Except.ok.inj (run.symm.trans run')
    simp [entries']
  · have := failure new
    rw [fill, this] at run
    cases run

/-- The order of the entries does not matter. -/
theorem fill_perm
    {message : String} {entries entries' : List (String × β)} {t t' : Table β}
    (same : entries.Perm entries') (run : fill message entries = .ok t)
    (run' : fill message entries' = .ok t') :
  t.Same t'
  := by
  intro k
  apply Option.ext
  intro b
  rw [fill_lookup run, fill_lookup run', same.mem_iff]

/-! ### The last entry of a key -/

/-- The last entry of a key in a list. -/
def lastAt (entries : List (String × β)) (k : String) : Option β :=
  (entries.reverse.find? fun e => e.1 = k).map Prod.snd

@[simp]
theorem lastAt_nil
    {k : String} :
  lastAt ([] : List (String × β)) k = none
  := rfl

/-- The later list decides. -/
theorem lastAt_append
    {entries entries' : List (String × β)} {k : String} :
  lastAt (entries ++ entries') k = (lastAt entries' k).or (lastAt entries k)
  := by
  simp only [lastAt, List.reverse_append, List.find?_append, Option.map_or]

/-- File every entry over what was there before. -/
def overlay (entries : List (String × β)) (t : Table β) : Table β :=
  entries.foldl (fun t e => t.insert e.1 e.2) t

/-- The entry of a key is the last one filed for it. -/
theorem overlay_lookup
    {entries : List (String × β)} {t : Table β} {k : String} :
  (overlay entries t).lookup k = (lastAt entries k).or (t.lookup k)
  := by
  induction entries using List.reverseRecOn with
  | nil => rfl
  | append_singleton rest e ih =>
      obtain ⟨key, value⟩ := e
      have step : overlay (rest ++ [(key, value)]) t = (overlay rest t).insert key value := by
        simp [overlay, List.foldl_append]
      rw [step, lookup_insert, lastAt_append]
      by_cases same : k = key
      · subst same
        simp [lastAt]
      · have other : key ≠ k := fun h => same h.symm
        simp [same, lastAt, other, ih]

/-! ### Records in any order -/

/-- Some record has an entry of the key. -/
def Mentioned (records : List (List (String × β))) (k : String) : Prop :=
  ∃ record ∈ records, ∃ b, lastAt record k = some b

/-- All records that have an entry of the key end with the same one. -/
def Settled (records : List (List (String × β))) (k : String) : Prop :=
  ∀ record ∈ records, ∀ b, lastAt record k = some b →
    ∀ record' ∈ records, ∀ b', lastAt record' k = some b' → b = b'

/-- What all records have at a key when they come one after the other. -/
theorem lastAt_flatten
    {records : List (List (String × β))} {k : String} {b : β}
    (last : lastAt records.flatten k = some b) :
  ∃ record ∈ records, lastAt record k = some b
  := by
  induction records with
  | nil => simp at last
  | cons record rest ih =>
      rw [List.flatten_cons, lastAt_append, Option.or_eq_some_iff] at last
      rcases last with later | ⟨-, here⟩
      · obtain ⟨record', mem, found⟩ := ih later
        exact ⟨record', List.mem_cons_of_mem _ mem, found⟩
      · exact ⟨record, by simp, here⟩

/-- A key that is mentioned has a last entry. -/
theorem lastAt_flatten_ne_none
    {records : List (List (String × β))} {k : String} (mentioned : Mentioned records k) :
  ∃ b, lastAt records.flatten k = some b
  := by
  induction records with
  | nil =>
      obtain ⟨record, mem, -⟩ := mentioned
      simp at mem
  | cons record rest ih =>
      rw [List.flatten_cons, lastAt_append]
      obtain ⟨record', mem, b, found⟩ := mentioned
      rcases List.mem_cons.mp mem with rfl | mem
      · cases later : lastAt rest.flatten k with
        | none => exact ⟨b, by simp [found]⟩
        | some b' => exact ⟨b', by simp⟩
      · obtain ⟨b', later⟩ := ih ⟨record', mem, b, found⟩
        exact ⟨b', by simp [later]⟩

/-- Settled records in any order have the same last entry. -/
theorem Settled.lastAt_perm
    {records records' : List (List (String × β))} {k : String} (settled : Settled records k)
    (same : records.Perm records') :
  lastAt records'.flatten k = lastAt records.flatten k
  := by
  apply Option.ext
  intro b
  constructor
  · intro last
    obtain ⟨record, mem, found⟩ := lastAt_flatten last
    have mem := same.mem_iff.mpr mem
    obtain ⟨b', last'⟩ := lastAt_flatten_ne_none ⟨record, mem, b, found⟩
    obtain ⟨record', mem', found'⟩ := lastAt_flatten last'
    rw [last', settled record mem b found record' mem' b' found']
  · intro last
    obtain ⟨record, mem, found⟩ := lastAt_flatten last
    obtain ⟨b', last'⟩ := lastAt_flatten_ne_none ⟨record, same.mem_iff.mp mem, b, found⟩
    obtain ⟨record', mem', found'⟩ := lastAt_flatten last'
    rw [last', settled record mem b found record' (same.mem_iff.mpr mem') b' found']

/-- Any record may come last. -/
theorem exists_perm_last
    {α : Type} {records : List α} {record : α} (mem : record ∈ records) :
  ∃ front, records.Perm (front ++ [record])
  := by
  obtain ⟨before, after, rfl⟩ := List.append_of_mem mem
  refine ⟨before ++ after, ?_⟩
  rw [List.append_assoc]
  exact List.Perm.append_left before (List.perm_append_singleton record after).symm

end Table

end Dagrail
