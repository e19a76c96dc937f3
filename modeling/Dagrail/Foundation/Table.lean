import Mathlib.Data.List.AList
import Mathlib.Data.List.Sigma

/-!
# Tables keyed by text

The keyed maps of the program are Mathlib's association lists with text keys, in which no key
occurs twice. A lookup of an absent key gives the zero value of the entry type, as reading a
missing entry of a map does.
-/

namespace Dagrail

/-- A map from text keys to entries. -/
abbrev Table (β : Type) := AList (fun _ : String => β)

namespace Table

variable {β : Type}

/-- The entry at a key, or the zero value when the key is absent. -/
def get [Inhabited β] (t : Table β) (k : String) : β :=
  (t.lookup k).getD default

/-- Is there an entry at the key? -/
def has (t : Table β) (k : String) : Bool :=
  (t.lookup k).isSome

/-- The entries of a table in its own order. -/
def values (t : Table β) : List β :=
  t.entries.map Sigma.snd

/-- Change every entry of a table. -/
def mapValues (f : β → β) (t : Table β) : Table β :=
  ⟨t.entries.map fun e => ⟨e.1, f e.2⟩, by
    have nodup := t.nodupKeys
    simp only [List.NodupKeys, List.keys, List.map_map, Function.comp_def] at nodup ⊢
    exact nodup⟩

/-- Reading back the key just written. -/
@[simp]
theorem get_insert_self
    [Inhabited β] (t : Table β) (k : String) (b : β) :
  get (t.insert k b) k = b
  := by
  simp [get]

/-- Writing one key leaves the reading of the others. -/
theorem get_insert_of_ne
    [Inhabited β] {t : Table β} {k k' : String} {b : β} (h : k' ≠ k) :
  get (t.insert k b) k' = get t k'
  := by
  simp [get, AList.lookup_insert_ne h]

/-- Reading a table after one write. -/
theorem lookup_insert
    (t : Table β) (k k' : String) (b : β) :
  (t.insert k b).lookup k' = if k' = k then some b else t.lookup k'
  := by
  split
  · subst_vars
    simp
  · rename_i h
    exact AList.lookup_insert_ne h

/-- Reading a table with defaults after one write. -/
theorem get_insert
    [Inhabited β] (t : Table β) (k k' : String) (b : β) :
  get (t.insert k b) k' = if k' = k then b else get t k'
  := by
  unfold get
  rw [lookup_insert]
  split <;> simp

/-- A key is present after a write when it is the key written or was present before. -/
@[simp]
theorem has_insert
    (t : Table β) (k k' : String) (b : β) :
  has (t.insert k b) k' = (decide (k' = k) || has t k')
  := by
  unfold has
  rw [lookup_insert]
  split <;> simp_all

/-- Nothing is present in the empty table. -/
@[simp]
theorem has_empty
    (k : String) :
  has (∅ : Table β) k = false
  := by
  simp [has]

/-- A key is present exactly when a lookup finds an entry. -/
theorem has_iff
    {t : Table β} {k : String} :
  has t k = true ↔ ∃ b, t.lookup k = some b
  := by
  simp [has, Option.isSome_iff_exists]

/-- The reading of a key whose lookup is known. -/
theorem get_of_lookup
    [Inhabited β] {t : Table β} {k : String} {b : β} (h : t.lookup k = some b) :
  get t k = b
  := by
  simp [get, h]

/-- Looking up a changed entry. -/
@[simp]
theorem lookup_mapValues
    (f : β → β) (t : Table β) (k : String) :
  (t.mapValues f).lookup k = (t.lookup k).map f
  := by
  simp only [AList.lookup, mapValues]
  induction t.entries with
  | nil => rfl
  | cons e es ih =>
      rcases e with ⟨k', b⟩
      by_cases h : k' = k
      · subst h
        simp
      · rw [List.map_cons, List.dlookup_cons_ne _ _ (Ne.symm h),
          List.dlookup_cons_ne _ _ (Ne.symm h), ih]

/-- Changing entries keeps the keys. -/
@[simp]
theorem has_mapValues
    (f : β → β) (t : Table β) (k : String) :
  has (t.mapValues f) k = has t k
  := by
  simp [has]

/-- Changing entries twice changes them by both changes. -/
@[simp]
theorem mapValues_mapValues
    (f g : β → β) (t : Table β) :
  mapValues g (mapValues f t) = mapValues (fun b => g (f b)) t
  := by
  apply AList.ext
  simp [mapValues]

/-- Reading a changed entry, where the change keeps the zero value. -/
theorem get_mapValues
    [Inhabited β] {f : β → β} (zero : f default = default) (t : Table β) (k : String) :
  get (mapValues f t) k = f (get t k)
  := by
  unfold get
  rw [lookup_mapValues]
  cases t.lookup k with
  | none => exact zero.symm
  | some b => rfl

/-- Changing entries after a write changes the entry written. -/
theorem mapValues_insert
    (f : β → β) (t : Table β) (k : String) (b : β) :
  mapValues f (t.insert k b) = (mapValues f t).insert k (f b)
  := by
  apply AList.ext
  simp only [mapValues, AList.entries_insert, List.map_cons, List.cons.injEq, true_and]
  induction t.entries with
  | nil => rfl
  | cons e es ih =>
      rcases e with ⟨k', b'⟩
      by_cases h : k' = k
      · subst h
        simp
      · rw [List.kerase_cons_ne (Ne.symm h), List.map_cons, List.map_cons,
          List.kerase_cons_ne (Ne.symm h), ih]

/-- Tables that agree up to a change of their entries have entries at the same keys. -/
theorem lookup_of_mapValues_eq
    {f : β → β} {t t' : Table β} (h : t.mapValues f = t'.mapValues f) {k : String} {b : β}
    (found : t.lookup k = some b) :
  ∃ b', t'.lookup k = some b' ∧ f b = f b'
  := by
  have same := congrArg (fun x : Table β => x.lookup k) h
  simp only [lookup_mapValues, found, Option.map_some] at same
  obtain ⟨b', found', eq⟩ := Option.map_eq_some_iff.mp same.symm
  exact ⟨b', found', eq.symm⟩

/-- Tables that agree up to a change of their entries have the same keys. -/
theorem has_of_mapValues_eq
    {f : β → β} {t t' : Table β} (h : t.mapValues f = t'.mapValues f) (k : String) :
  t.has k = t'.has k
  := by
  rw [← has_mapValues f t, h, has_mapValues]

/-- A listed entry is the entry at some key. -/
theorem mem_values_iff
    {t : Table β} {b : β} :
  b ∈ values t ↔ ∃ k, t.lookup k = some b
  := by
  simp only [values, List.mem_map, Sigma.exists, exists_eq_right]
  constructor
  · rintro ⟨k, mem⟩
    use k
    exact AList.mem_lookup_iff.mpr mem
  · rintro ⟨k, found⟩
    use k
    exact AList.mem_lookup_iff.mp found

/-- Writing a new key puts its entry in front. -/
theorem values_insert_new
    {t : Table β} {k : String} (new : has t k = false) (b : β) :
  values (t.insert k b) = b :: values t
  := by
  have absent : k ∉ t.entries.keys := by
    intro mem
    have known := AList.lookup_isSome.mpr (AList.mem_keys.mp mem)
    simp [has, known] at new
  simp only [values, AList.entries_insert, List.kerase_of_notMem_keys absent, List.map_cons]

/-- Writing a known key puts its entry in front and takes the old one out. -/
theorem values_insert_known
    {t : Table β} {k : String} {a : β} (known : t.lookup k = some a) (b : β) :
  ∃ front back, values t = front ++ a :: back ∧ values (t.insert k b) = b :: (front ++ back)
  := by
  have mem : k ∈ t.entries.keys := by
    apply AList.mem_keys.mpr
    exact AList.lookup_isSome.mp (by simp [known])
  obtain ⟨c, front, back, absent, entries, erased⟩ := List.exists_of_kerase mem
  have same : t.lookup k = some c := AList.mem_lookup_iff.mpr (by simp [entries])
  obtain rfl := Option.some.inj (known.symm.trans same)
  refine ⟨front.map Sigma.snd, back.map Sigma.snd, ?_, ?_⟩
  · simp [values, entries]
  · simp only [values, AList.entries_insert, erased, List.map_cons, List.map_append]

end Table

end Dagrail
