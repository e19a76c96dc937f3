import Dagrail.Foundation.Json
import Dagrail.Foundation.Outcome
import Dagrail.Foundation.Table

/-!
# Decoding documents into records

A decoder reads a document onto an existing value, as a record decoder that binds members to
fields does. A member binds the field whose name it spells, upper and lower case being the same;
when several members bind one field, they are read onto it in document order, so the last one
wins. A decoder also knows which documents have members that bind no field, and which bind every
field at most once.

The invariant a decoder carries is the reason for the last notion: a document that binds every
field at most once decodes to the same value as its canonical form.
-/

namespace Dagrail

/-- Fold a letter to upper case. The long s and the Kelvin sign fold to ASCII letters; other
characters beyond ASCII never meet a field name. -/
def foldChar (c : Char) : Char :=
  if 'a' ≤ c ∧ c ≤ 'z' then Char.ofNat (c.toNat - 32)
  else if c.toNat = 0x17F then 'S'
  else if c.toNat = 0x212A then 'K'
  else c

/-- Fold a member name. -/
def foldName (s : String) : List Char :=
  s.toList.map foldChar

/-- Does the member name bind the field name? -/
def binds (member field : String) : Bool :=
  foldName member = foldName field

/-- The values of the members that bind a field, in document order. -/
def boundValues (field : String) (members : List (String × Json)) : List Json :=
  (members.filter fun m => binds m.1 field).map Prod.snd

/-- When one member at most binds the field, sorting does not change what is bound. -/
theorem boundValues_canon
    {field : String} {members : List (String × Json)}
    (single : (boundValues field members).length ≤ 1) :
  boundValues field (Json.sortMembers (Json.canonMembers members)) =
    (boundValues field members).map Json.canon
  := by
  rw [Json.canonMembers_eq_map, Json.sortMembers_map]
  have keep : ∀ l : List (String × Json),
      boundValues field (l.map fun m => (m.1, m.2.canon)) = (boundValues field l).map Json.canon := by
    intro l
    simp [boundValues, List.filter_map, Function.comp_def]
  rw [keep]
  congr 1
  -- a list of at most one element has no other order
  have perm : (boundValues field (Json.sortMembers members)).Perm (boundValues field members) :=
    ((Json.sortMembers_perm members).filter _).map _
  match sorted : boundValues field (Json.sortMembers members), given : boundValues field members with
  | [], [] => rfl
  | [a], [b] =>
      rw [sorted, given] at perm
      simpa using perm
  | [], _ :: _ | _ :: _, [] | _ :: _ :: _, [_] =>
      have := perm.length_eq
      simp [sorted, given] at this
  | _, _ :: _ :: _ =>
      rw [given] at single
      simp at single

/-- A reader of documents. -/
structure Decoder (α : Type) where
  /-- Read the document onto an existing value. -/
  read : α → Json → Fallible α
  /-- Does every member of the document bind a field? -/
  closed : Json → Bool
  /-- Does the document bind every field at most once? -/
  single : Json → Bool
  /-- Then its canonical form reads the same. -/
  read_canon : ∀ a j, single j = true → read a j.canon = read a j

namespace Decoder

/-! ### Scalars -/

/-- A text, converted by `f`; `null` keeps the existing value. -/
def text {α : Type} (f : String → α) : Decoder α where
  read a j :=
    match j with
    | .null => .ok a
    | .str s => .ok (f s)
    | _ => .error "cannot decode a non-text value into a text field"
  closed _ := true
  single _ := true
  read_canon a j _ := by cases j <;> rfl

/-- An integer, converted by `f`; `null` keeps the existing value. -/
def number {α : Type} (f : Int → Option α) : Decoder α where
  read a j :=
    match j with
    | .null => .ok a
    | .num n => need (f n) "number out of range"
    | _ => .error "cannot decode a non-number value into a number field"
  closed _ := true
  single _ := true
  read_canon a j _ := by cases j <;> rfl

/-- An integer field. -/
def int : Decoder Int := number some

/-- A field of natural numbers. -/
def nat : Decoder Nat := number fun n => if 0 ≤ n then some n.toNat else none

/-- A truth value; `null` keeps the existing value. -/
def bool : Decoder Bool where
  read a j :=
    match j with
    | .null => .ok a
    | .bool b => .ok b
    | _ => .error "cannot decode a value into a truth field"
  closed _ := true
  single _ := true
  read_canon a j _ := by cases j <;> rfl

/-- A document kept as it is, up to its canonical form. -/
def raw : Decoder (Option Json) where
  read _ j := .ok (some j.canon)
  closed _ := true
  single _ := true
  read_canon _ j _ := by rw [Json.canon_canon]

/-! ### Containers -/

/-- The items of an array, each read onto `zero`. -/
def readItems {α : Type} (d : Decoder α) (zero : α) : List Json → Fallible (List α)
  | [] => .ok []
  | x :: xs => do
      let a ← d.read zero x
      let as ← readItems d zero xs
      .ok (a :: as)

/-- Items in canonical form read the same. -/
theorem readItems_canon
    {α : Type} (d : Decoder α) (zero : α) (items : List Json) (single : items.all d.single = true) :
  readItems d zero (items.map Json.canon) = readItems d zero items
  := by
  induction items with
  | nil => rfl
  | cons x xs ih =>
      simp only [List.all_cons, Bool.and_eq_true] at single
      simp only [List.map_cons, readItems]
      rw [d.read_canon zero x single.1, ih single.2]

/-- An array whose items are read onto `zero`; `null` is the absent list. -/
def list? {α : Type} (zero : α) (d : Decoder α) : Decoder (Option (List α)) where
  read _ j :=
    match j with
    | .null => .ok none
    | .arr items => (readItems d zero items).map some
    | _ => .error "cannot decode a value into a list field"
  closed j :=
    match j with
    | .arr items => items.all d.closed
    | _ => true
  single j :=
    match j with
    | .arr items => items.all d.single
    | _ => true
  read_canon a j single := by
    cases j with
    | arr items =>
        simp only [Json.canon]
        rw [Json.canonItems_eq_map, readItems_canon d zero items single]
    | null | bool | num | str | obj => rfl

/-- The entries of an object, added to a table. -/
def readEntries (t : Table String) : List (String × Json) → Fallible (Table String)
  | [] => .ok t
  | (k, .str v) :: ms => readEntries (t.insert k v) ms
  | (k, .null) :: ms => readEntries (t.insert k "") ms
  | _ :: _ => .error "cannot decode a value into a text entry"

/-- A table of texts; `null` is the empty table. The entries are added in canonical order. -/
def texts : Decoder (Table String) where
  read t j :=
    match j.canon with
    | .null => .ok ∅
    | .obj members => readEntries t members
    | _ => .error "cannot decode a value into a table field"
  closed _ := true
  single _ := true
  read_canon t j _ := by rw [Json.canon_canon]

/-- An optional record; `null` is its absence. -/
def optional {α : Type} (zero : α) (d : Decoder α) : Decoder (Option α) where
  read a j :=
    match j with
    | .null => .ok none
    | j => (d.read (a.getD zero) j).map some
  closed := d.closed
  single := d.single
  read_canon a j single := by
    have same := d.read_canon (a.getD zero) j single
    cases j with
    | null => rfl
    | bool | num | str => rfl
    | arr | obj =>
        simp only [Json.canon] at same ⊢
        rw [same]

/-- The same reader for values that stand for others. -/
def iso {α β : Type} (d : Decoder α) (f : α → β) (g : β → α) : Decoder β where
  read b j := (d.read (g b) j).map f
  closed := d.closed
  single := d.single
  read_canon b j single := by rw [d.read_canon _ j single]

/-- An array field whose absence is the empty list. -/
def list {α : Type} (zero : α) (d : Decoder α) : Decoder (List α) :=
  (list? zero d).iso (fun o => o.getD []) some

/-! ### Records -/

/-- A field of a record: its name, the reader of its value, and its place in the record. -/
structure Field (σ : Type) where
  name : String
  {α : Type}
  decoder : Decoder α
  get : σ → α
  set : σ → α → σ

namespace Field

variable {σ : Type}

/-- Read the values bound to the field, in order, onto its existing value. -/
def readValues (f : Field σ) (s : σ) (values : List Json) : Fallible σ :=
  (values.foldlM f.decoder.read (f.get s)).map (f.set s)

/-- A single bound value in canonical form reads the same. -/
theorem readValues_canon
    (f : Field σ) (s : σ) {values : List Json} (short : values.length ≤ 1)
    (single : values.all f.decoder.single = true) :
  f.readValues s (values.map Json.canon) = f.readValues s values
  := by
  match values with
  | [] => rfl
  | [v] =>
      simp only [List.all_cons, List.all_nil, Bool.and_true] at single
      simp only [readValues, List.map_cons, List.map_nil, List.foldlM_cons, List.foldlM_nil]
      rw [f.decoder.read_canon _ v single]
  | _ :: _ :: _ => simp at short

end Field

/-- Read the members of an object onto a record, one field after the other. -/
def readFields {σ : Type} (fields : List (Field σ)) (s : σ) (members : List (String × Json)) :
    Fallible σ :=
  fields.foldlM (fun s f => f.readValues s (boundValues f.name members)) s

/-- Does the field have at most one bound value, itself without double bindings? -/
def fieldSingle {σ : Type} (members : List (String × Json)) (f : Field σ) : Bool :=
  decide ((boundValues f.name members).length ≤ 1)
    && (boundValues f.name members).all f.decoder.single

/-- Members in canonical form read the same. -/
theorem readFields_canon
    {σ : Type} (fields : List (Field σ)) (s : σ) {members : List (String × Json)}
    (single : fields.all (fieldSingle members) = true) :
  readFields fields s (Json.sortMembers (Json.canonMembers members)) = readFields fields s members
  := by
  induction fields generalizing s with
  | nil => rfl
  | cons f fs ih =>
      simp only [List.all_cons, Bool.and_eq_true, fieldSingle, decide_eq_true_eq] at single
      obtain ⟨⟨short, inner⟩, rest⟩ := single
      simp only [readFields, List.foldlM_cons]
      rw [boundValues_canon short, f.readValues_canon s short inner]
      congr 1
      funext s'
      exact ih s' rest

/-- A record whose fields are bound by the members of an object; `null` keeps the existing
record. -/
def record {σ : Type} (fields : List (Field σ)) : Decoder σ where
  read s j :=
    match j with
    | .null => .ok s
    | .obj members => readFields fields s members
    | _ => .error "cannot decode a value into a record"
  closed j :=
    match j with
    | .obj members =>
        members.all fun m => fields.any fun f => binds m.1 f.name && f.decoder.closed m.2
    | _ => true
  single j :=
    match j with
    | .obj members => fields.all (fieldSingle members)
    | _ => true
  read_canon s j single := by
    cases j with
    | obj members =>
        simp only [Json.canon]
        exact readFields_canon fields s single
    | null | bool | num | str | arr => rfl

/-- Read a document onto the zero value. -/
def decode {α : Type} (d : Decoder α) (zero : α) (j : Json) : Fallible α :=
  d.read zero j

/-- Read a document that may have no member without a field. -/
def decodeStrict {α : Type} (d : Decoder α) (zero : α) (j : Json) : Fallible α := do
  check (d.closed j) "unknown field"
  d.read zero j

/-- A strictly decoded document decodes to the same value. -/
theorem decode_of_decodeStrict
    {α : Type} {d : Decoder α} {zero : α} {j : Json} {a : α}
    (strict : d.decodeStrict zero j = .ok a) :
  d.decode zero j = .ok a
  := by
  simp only [decodeStrict, bind_eq_ok, check_eq_ok] at strict
  obtain ⟨_, -, read⟩ := strict
  exact read

/-! ### Properties that reading keeps -/

/-- Reading onto a value with the property gives one with the property. -/
def Keeps {α : Type} (d : Decoder α) (P : α → Prop) : Prop :=
  ∀ a j b, P a → d.read a j = .ok b → P b

/-- Reading values onto a field of a record with the property gives one with the property. -/
def Field.Keeps {σ : Type} (f : Field σ) (P : σ → Prop) : Prop :=
  ∀ s values s', P s → f.readValues s values = .ok s' → P s'

/-- A field keeps a property if its reader does and its place in the record has the property. -/
theorem Field.keeps
    {σ : Type} {f : Field σ} {P : σ → Prop} {Q : f.α → Prop} (reader : f.decoder.Keeps Q)
    (get : ∀ s, P s → Q (f.get s)) (set : ∀ s v, P s → Q v → P (f.set s v)) :
  f.Keeps P
  := by
  intro s values s' holds read
  simp only [Field.readValues] at read
  have fold : ∀ (values : List Json) (a b : f.α), Q a →
      values.foldlM f.decoder.read a = .ok b → Q b := by
    intro values
    induction values with
    | nil =>
        intro a b holds read
        obtain rfl := Except.ok.inj read
        exact holds
    | cons v vs ih =>
        intro a b holds read
        simp only [List.foldlM_cons, bind_eq_ok] at read
        obtain ⟨c, first, rest⟩ := read
        exact ih c b (reader a v c holds first) rest
  cases result : values.foldlM f.decoder.read (f.get s) with
  | error e => simp [result, Except.map] at read
  | ok v =>
      simp only [result, Except.map, Except.ok.injEq] at read
      obtain rfl := read
      exact set s v holds (fold values _ v (get s holds) result)

/-- A record keeps what each of its fields keeps. -/
theorem record_keeps
    {σ : Type} {fields : List (Field σ)} {P : σ → Prop} (each : ∀ f ∈ fields, f.Keeps P) :
  (record fields).Keeps P
  := by
  have all : ∀ (members : List (String × Json)) (s s' : σ), P s →
      readFields fields s members = .ok s' → P s' := by
    intro members
    induction fields with
    | nil =>
        intro s s' holds read
        obtain rfl := Except.ok.inj read
        exact holds
    | cons f fs ih =>
        intro s s' holds read
        rw [List.forall_mem_cons] at each
        simp only [readFields, List.foldlM_cons, bind_eq_ok] at read
        obtain ⟨t, first, rest⟩ := read
        exact ih each.2 t s' (each.1 s _ t holds first) rest
  intro s j s' holds read
  cases j with
  | null =>
      obtain rfl := Except.ok.inj read
      exact holds
  | obj members => exact all members s s' holds read
  | _ => simp [record] at read

/-- A text reader keeps what every text it makes has. -/
theorem text_keeps
    {α : Type} {f : String → α} {P : α → Prop} (made : ∀ s, P (f s)) :
  (text f).Keeps P
  := by
  intro a j b holds read
  cases j with
  | null =>
      obtain rfl := Except.ok.inj read
      exact holds
  | str s =>
      obtain rfl := Except.ok.inj read
      exact made s
  | _ => simp [text] at read

/-- Every reader keeps what everything has. -/
theorem keeps_of_all
    {α : Type} {d : Decoder α} {P : α → Prop} (all : ∀ a, P a) :
  d.Keeps P
  := fun _ _ b _ _ => all b

end Decoder

end Dagrail
