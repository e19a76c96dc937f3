import Dagrail.Foundation.Decode

/-!
# Objects with members left out

An object whose members are left out when there is nothing to say, as the `omitempty` members of a
record are. When no two names fold to the same, what a name binds in the object is what was said
under it, and a record reads back field by field.
-/

namespace Dagrail

namespace Json

/-- The members of the entries that say something. -/
def present (entries : List (String × Option Json)) : List (String × Json) :=
  entries.filterMap fun e => e.2.map fun value => (e.1, value)

/-- A text, left out when it is empty. -/
def textOrOmit (s : String) : Option Json :=
  if s = "" then none else some (.str s)

/-- A truth value, left out when it is false. -/
def trueOrOmit (b : Bool) : Option Json :=
  if b then some (.bool true) else none

end Json

/-- What a name binds is what was said under it. -/
theorem boundValues_present
    {entries : List (String × Option Json)} {name : String} {value : Option Json}
    (distinct : (entries.map fun e => foldName e.1).Nodup) (mem : (name, value) ∈ entries) :
  boundValues name (Json.present entries) = value.toList
  := by
  have apart : ∀ rest : List (String × Option Json),
      foldName name ∉ rest.map (fun e => foldName e.1) →
        boundValues name (Json.present rest) = [] := by
    intro rest
    induction rest with
    | nil => exact fun _ => rfl
    | cons e rest ih =>
        intro absent
        rw [List.map_cons, List.mem_cons, not_or] at absent
        have other : binds e.1 name = false := by
          simp only [binds, decide_eq_false_iff_not]
          exact fun same => absent.1 same.symm
        have tail := ih absent.2
        unfold boundValues Json.present at tail ⊢
        obtain ⟨label, said⟩ := e
        cases said with
        | none => simpa using tail
        | some v =>
            have other : binds label name = false := other
            simpa [other] using tail
  induction entries with
  | nil => cases mem
  | cons e rest ih =>
      rw [List.map_cons, List.nodup_cons] at distinct
      rcases List.mem_cons.mp mem with rfl | mem
      · have tail := apart rest distinct.1
        unfold boundValues Json.present at tail ⊢
        have own : binds name name = true := by simp [binds]
        cases value with
        | none => simpa using tail
        | some v => simpa [own] using tail
      · have other : binds e.1 name = false := by
          simp only [binds, decide_eq_false_iff_not]
          intro same
          rw [same] at distinct
          exact distinct.1 (List.mem_map.mpr ⟨_, mem, rfl⟩)
        have tail := ih distinct.2 mem
        unfold boundValues Json.present at tail ⊢
        obtain ⟨label, said⟩ := e
        cases said with
        | none => simpa using tail
        | some v =>
            have other : binds label name = false := other
            simpa [other] using tail

namespace Decoder

variable {σ : Type}

/-- One field is read after the other. -/
theorem readFields_cons
    {f : Field σ} {fields : List (Field σ)} {r r₁ r₂ : σ} {members : List (String × Json)}
    (first : f.readValues r (boundValues f.name members) = .ok r₁)
    (rest : readFields fields r₁ members = .ok r₂) :
  readFields (f :: fields) r members = .ok r₂
  := by
  simp only [readFields, List.foldlM_cons, first, ok_bind]
  exact rest

/-- A text that was said is read. -/
theorem readValues_str
    (name : String) (get : σ → String) (set : σ → String → σ) (r : σ) (s : String) :
  Field.readValues { name, decoder := .text id, get, set } r (some (Json.str s)).toList
    = .ok (set r s)
  := rfl

/-- A text that may be left out is read onto the empty text. -/
theorem readValues_textOrOmit
    (name : String) (get : σ → String) (set : σ → String → σ) (r : σ) (s : String)
    (fresh : get r = "") :
  Field.readValues { name, decoder := .text id, get, set } r (Json.textOrOmit s).toList
    = .ok (set r s)
  := by
  unfold Json.textOrOmit
  split_ifs with empty
  · rw [empty, ← fresh]
    rfl
  · rfl

/-- A truth value that may be left out is read onto falsehood. -/
theorem readValues_trueOrOmit
    (name : String) (get : σ → Bool) (set : σ → Bool → σ) (r : σ) (b : Bool)
    (fresh : get r = false) :
  Field.readValues { name, decoder := .bool, get, set } r (Json.trueOrOmit b).toList = .ok (set r b)
  := by
  cases b with
  | false =>
      change (Except.ok (get r)).map (set r) = _
      rw [fresh]
      rfl
  | true => rfl

end Decoder

/-! ### What is said under names -/

namespace Json

/-- A number, left out when it is zero. -/
def numberOrOmit (n : Nat) : Option Json :=
  if n = 0 then none else some (.num n)

/-- Each name binds what was said under it. -/
def Binds (entries : List (String × Option Json)) : Prop :=
  ∀ name value, (name, value) ∈ entries → boundValues name (present entries) = value.toList

/-- Names that do not fold to the same bind what was said under them. -/
theorem binds_of_names
    {entries : List (String × Option Json)} (names : List String)
    (same : entries.map Prod.fst = names) (distinct : (names.map foldName).Nodup) :
  Binds entries
  := by
  intro name value mem
  refine boundValues_present ?_ mem
  rw [← same, List.map_map] at distinct
  exact distinct

end Json

namespace Decoder

variable {σ : Type}

/-- A field is read from what was said under its name, and the rest after it. -/
theorem readFields_said
    {entries : List (String × Option Json)} (binds : Json.Binds entries) {f : Field σ}
    {fields : List (Field σ)} {r r₁ r₂ : σ} (name : String) (value : Option Json)
    (named : f.name = name) (mem : (name, value) ∈ entries)
    (first : f.readValues r value.toList = .ok r₁)
    (rest : readFields fields r₁ (Json.present entries) = .ok r₂) :
  readFields (f :: fields) r (Json.present entries) = .ok r₂
  := by
  refine readFields_cons ?_ rest
  rw [named, binds name value mem]
  exact first

/-- A value that was said is read. -/
theorem readValues_some
    {f : Field σ} {r : σ} {j : Json} {v : f.α} (read : f.decoder.read (f.get r) j = .ok v) :
  f.readValues r (some j).toList = .ok (f.set r v)
  := by
  simp only [Field.readValues, Option.toList_some, List.foldlM_cons, List.foldlM_nil, read]
  rfl

/-- A number that may be left out is read onto zero. -/
theorem readValues_numberOrOmit
    (name : String) (get : σ → Nat) (set : σ → Nat → σ) (r : σ) (n : Nat) (fresh : get r = 0) :
  Field.readValues { name, decoder := .nat, get, set } r (Json.numberOrOmit n).toList
    = .ok (set r n)
  := by
  unfold Json.numberOrOmit
  split_ifs with zero
  · rw [zero, ← fresh]
    rfl
  · refine readValues_some ?_
    simp [nat, number, need]

/-- The items of a list read back from their documents. -/
theorem readItems_map
    {α : Type} {d : Decoder α} {zero : α} {document : α → Json}
    (read : ∀ a, d.read zero (document a) = .ok a) (items : List α) :
  readItems d zero (items.map document) = .ok items
  := by
  induction items with
  | nil => rfl
  | cons a items ih =>
      rw [List.map_cons, readItems, read, ih]
      rfl

/-- A list that may be absent reads back from the array of its items. -/
theorem read_list?
    {α : Type} {d : Decoder α} {zero : α} {document : α → Json}
    (read : ∀ a, d.read zero (document a) = .ok a) (old : Option (List α)) (items : List α) :
  (Decoder.list? zero d).read old (.arr (items.map document)) = .ok (some items)
  := by
  simp only [list?, readItems_map read]
  rfl

/-- A list reads back from the array of its items. -/
theorem read_list
    {α : Type} {d : Decoder α} {zero : α} {document : α → Json}
    (read : ∀ a, d.read zero (document a) = .ok a) (old items : List α) :
  (Decoder.list zero d).read old (.arr (items.map document)) = .ok items
  := by
  simp only [Decoder.list, iso, read_list? read]
  rfl

end Decoder

/-- An absent list is written as nothing. -/
def Json.listOrNull (items : Option (List Json)) : Json :=
  match items with
  | some items => .arr items
  | none => .null

end Dagrail
