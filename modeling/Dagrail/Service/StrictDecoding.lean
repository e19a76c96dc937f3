import Dagrail.Domain.Scanner
import Dagrail.Foundation.Decode

/-!
# Strict decoding

A text is scanned and then decoded into a destination that admits no unknown fields. The scanner
compares the names of an object as they are, and the decoder binds them to fields whatever their
case.
-/

namespace Dagrail

/-! ### Destinations -/

/-- The type of a destination. -/
inductive Shape where
  | text
  | number (admits : Int → Bool)
  | bool
  /-- A document kept as it is. -/
  | raw
  | pointer (target : Shape)
  | list (item : Shape)
  | map (value : Shape)
  | record (fields : List (String × Shape))

/-- The values of destinations. -/
inductive Value where
  | text (s : String)
  | number (n : Int)
  | bool (b : Bool)
  | raw (j : Option Json)
  | pointer (target : Option Value)
  | list (items : Option (List Value))
  | map (entries : List (String × Value))
  | record (fields : List Value)
deriving Inhabited

namespace Value

def toBool : Value → Bool
  | .bool b => b
  | _ => false

def toRaw : Value → Option Json
  | .raw j => j
  | _ => none

def toPointer : Value → Option Value
  | .pointer target => target
  | _ => none

def toList : Value → Option (List Value)
  | .list items => items
  | _ => none

def toMap : Value → List (String × Value)
  | .map entries => entries
  | _ => []

def toRecord : Value → List Value
  | .record fields => fields
  | _ => []

end Value

/-- The entries of an object, each read onto `zero`. -/
def readMembers {α : Type} (d : Decoder α) (zero : α) :
    List (String × Json) → Fallible (List (String × α))
  | [] => .ok []
  | (k, x) :: ms => do
      let a ← d.read zero x
      let others ← readMembers d zero ms
      .ok ((k, a) :: others)

/-- Entries in canonical form read the same. -/
theorem readMembers_canon
    {α : Type} (d : Decoder α) (zero : α) (members : List (String × Json))
    (single : members.all (fun m => d.single m.2) = true) :
  readMembers d zero (members.map fun m => (m.1, m.2.canon)) = readMembers d zero members
  := by
  induction members with
  | nil => rfl
  | cons m ms ih =>
      simp only [List.all_cons, Bool.and_eq_true] at single
      simp only [List.map_cons, readMembers]
      rw [d.read_canon zero m.2 single.1, ih single.2]

/-- An object whose members are the entries, in the order of their names; `null` has none. -/
def Decoder.entries {α : Type} (zero : α) (d : Decoder α) : Decoder (List (String × α)) where
  read a j :=
    match j with
    | .null => .ok a
    | .obj members => readMembers d zero (Json.sortMembers members)
    | _ => .error "cannot decode a value into a table field"
  closed j :=
    match j with
    | .obj members => members.all fun m => d.closed m.2
    | _ => true
  single j :=
    match j with
    | .obj members => members.all fun m => d.single m.2
    | _ => true
  read_canon a j single := by
    cases j with
    | obj members =>
        simp only [Json.canon]
        rw [Json.canonMembers_eq_map, Json.sortMembers_sortMembers, Json.sortMembers_map]
        apply readMembers_canon
        rw [List.all_eq_true] at single ⊢
        intro m mem
        exact single m ((Json.sortMembers_perm members).subset mem)
    | null | bool | num | str | arr => rfl

mutual

/-- The value of a destination before it is decoded into. -/
def Shape.zero : Shape → Value
  | .text => .text ""
  | .number _ => .number 0
  | .bool => .bool false
  | .raw => .raw none
  | .pointer _ => .pointer none
  | .list _ => .list none
  | .map _ => .map []
  | .record fields => .record (zeros fields)

/-- The values of fields before they are decoded into. -/
def zeros : List (String × Shape) → List Value
  | [] => []
  | (_, shape) :: rest => shape.zero :: zeros rest

end

/-- The fields of a record, which have the places from `i` on. -/
def fieldsAt : Nat → List (String × Decoder Value) → List (Decoder.Field Value)
  | _, [] => []
  | i, (name, decoder) :: rest =>
      { name
        decoder
        get := fun s => s.toRecord.getD i default
        set := fun s v => .record (s.toRecord.set i v) } :: fieldsAt (i + 1) rest

mutual

/-- The decoder into a destination. -/
def Shape.decoder : Shape → Decoder Value
  | .text => .text .text
  | .number admits => .number fun n => if admits n then some (.number n) else none
  | .bool => Decoder.bool.iso .bool Value.toBool
  | .raw => Decoder.raw.iso .raw Value.toRaw
  | .pointer target => (Decoder.optional target.zero target.decoder).iso .pointer Value.toPointer
  | .list item => (Decoder.list? item.zero item.decoder).iso .list Value.toList
  | .map value => (Decoder.entries value.zero value.decoder).iso .map Value.toMap
  | .record fields => .record (fieldsAt 0 (fieldDecoders fields))

/-- The decoders of fields. -/
def fieldDecoders : List (String × Shape) → List (String × Decoder Value)
  | [] => []
  | (name, shape) :: rest => (name, shape.decoder) :: fieldDecoders rest

end

mutual

/-- Do no two fields of a record within the destination have names that differ in case only? -/
def Shape.distinct : Shape → Bool
  | .text | .number _ | .bool | .raw => true
  | .pointer target => target.distinct
  | .list item => item.distinct
  | .map value => value.distinct
  | .record fields => decide (fields.map fun f => foldName f.1).Nodup && fieldsDistinct fields

/-- Does that hold within every field? -/
def fieldsDistinct : List (String × Shape) → Bool
  | [] => true
  | (_, shape) :: rest => shape.distinct && fieldsDistinct rest

end

/-- A type that documents are decoded into. -/
structure Destination where
  shape : Shape
  distinct : shape.distinct = true

/-- Decoding the document into the destination reads a part of it into a destination within. -/
inductive Reads : Shape → Json → Shape → Json → Prop where
  | here (shape : Shape) (j : Json) : Reads shape j shape j
  | target {target shape : Shape} {j part : Json} (within : Reads target j shape part) :
      Reads (.pointer target) j shape part
  | item {item shape : Shape} {items : List Json} {x part : Json} (mem : x ∈ items)
      (within : Reads item x shape part) :
      Reads (.list item) (.arr items) shape part
  | entry {value shape : Shape} {members : List (String × Json)} {m : String × Json} {part : Json}
      (mem : m ∈ members) (within : Reads value m.2 shape part) :
      Reads (.map value) (.obj members) shape part
  | field {fields : List (String × Shape)} {shape : Shape} {members : List (String × Json)}
      {m : String × Json} {f : String × Shape} {part : Json} (mem : m ∈ members) (known : f ∈ fields)
      (bound : binds m.1 f.1 = true) (within : Reads f.2 m.2 shape part) :
      Reads (.record fields) (.obj members) shape part
  | rawItem {shape : Shape} {items : List Json} {x part : Json} (mem : x ∈ items)
      (within : Reads .raw x shape part) :
      Reads .raw (.arr items) shape part
  | rawMember {shape : Shape} {members : List (String × Json)} {m : String × Json} {part : Json}
      (mem : m ∈ members) (within : Reads .raw m.2 shape part) :
      Reads .raw (.obj members) shape part

/-- Do members with the names go to one field, or to one key? -/
def Shape.SameDestination (shape : Shape) (a b : String) : Prop :=
  match shape with
  | .record fields => ∃ f ∈ fields, binds a f.1 = true ∧ binds b f.1 = true
  | _ => a = b

/-- A value of the document, with its depth below the top. -/
inductive Below : Json → Nat → Json → Prop where
  | top (j : Json) : Below j 0 j
  | item {j : Json} {depth : Nat} {items : List Json} {x : Json} (list : Below j depth (.arr items))
      (mem : x ∈ items) :
      Below j (depth + 1) x
  | member {j : Json} {depth : Nat} {members : List (String × Json)} {m : String × Json}
      (object : Below j depth (.obj members)) (mem : m ∈ members) :
      Below j (depth + 1) m.2

/-- The bounds hold of the document at every level. -/
structure Bounded (j : Json) : Prop where
  count : j.values ≤ maxAuthorityValues
  depth : ∀ depth part, Below j depth part → depth ≤ maxAuthorityDepth
  integers : ∀ depth n, Below j depth (.num n) → n.natAbs ≤ maxAuthorityInteger.natAbs
  texts : ∀ depth s, Below j depth (.str s) → s.utf8ByteSize ≤ maxAuthorityStringBytes
  names : ∀ depth members, Below j depth (.obj members) →
    ∀ m ∈ members, m.1.utf8ByteSize ≤ maxAuthorityKeyBytes

/-- No two members of an object go to one destination. -/
def Once (shape : Shape) (j : Json) : Prop :=
  ∀ shape' members, Reads shape j shape' (.obj members) →
    members.Pairwise fun a b => ¬ shape'.SameDestination a.1 b.1

/-- The items of a well-formed list are well formed one level deeper. -/
theorem itemsWellFormed_mem
    {depth : Nat} {items : List Json} {x : Json} (formed : Json.itemsWellFormed depth items = true)
    (mem : x ∈ items) :
  0 < depth ∧ x.wellFormed (depth - 1) = true
  := by
  induction items with
  | nil => simp at mem
  | cons first rest ih =>
      simp only [Json.itemsWellFormed, Bool.and_eq_true, decide_eq_true_eq] at formed
      obtain ⟨⟨deep, here⟩, others⟩ := formed
      rcases List.mem_cons.mp mem with rfl | mem
      · exact ⟨deep, here⟩
      · exact ih others mem

/-- The members of a well-formed object have bounded names and are well formed one level deeper. -/
theorem membersWellFormed_mem
    {depth : Nat} {members : List (String × Json)} {m : String × Json}
    (formed : Json.membersWellFormed depth members = true) (mem : m ∈ members) :
  0 < depth ∧ m.1.utf8ByteSize ≤ maxAuthorityKeyBytes ∧ m.2.wellFormed (depth - 1) = true
  := by
  induction members with
  | nil => simp at mem
  | cons first rest ih =>
      obtain ⟨k, x⟩ := first
      simp only [Json.membersWellFormed, Bool.and_eq_true, decide_eq_true_eq] at formed
      obtain ⟨⟨⟨deep, key⟩, here⟩, others⟩ := formed
      rcases List.mem_cons.mp mem with rfl | mem
      · exact ⟨deep, key, here⟩
      · exact ih others mem

/-- Everything below a well-formed document is well formed within the levels that are left. -/
theorem Below.wellFormed
    {j part : Json} {maxDepth depth : Nat} (below : Below j depth part)
    (formed : j.wellFormed maxDepth = true) :
  depth ≤ maxDepth ∧ part.wellFormed (maxDepth - depth) = true
  := by
  induction below with
  | top => exact ⟨Nat.zero_le _, formed⟩
  | item list mem ih =>
      obtain ⟨deep, inside⟩ := ih
      obtain ⟨deeper, here⟩ := itemsWellFormed_mem inside mem
      exact ⟨by omega, by rwa [Nat.sub_sub] at here⟩
  | member object mem ih =>
      obtain ⟨deep, inside⟩ := ih
      simp only [Json.wellFormed, Bool.and_eq_true] at inside
      obtain ⟨deeper, -, here⟩ := membersWellFormed_mem inside.2 mem
      exact ⟨by omega, by rwa [Nat.sub_sub] at here⟩

/-- What a decoder reads is below the document. -/
theorem Reads.exists_below
    {shape shape' : Shape} {j part : Json} (reads : Reads shape j shape' part) :
  ∀ {whole : Json} {depth : Nat}, Below whole depth j → ∃ depth', Below whole depth' part
  := by
  induction reads with
  | here => exact fun below => ⟨_, below⟩
  | target within ih => exact fun below => ih below
  | item mem within ih => exact fun below => ih (below.item mem)
  | entry mem within ih => exact fun below => ih (below.member mem)
  | field mem known bound within ih => exact fun below => ih (below.member mem)
  | rawItem mem within ih => exact fun below => ih (below.item mem)
  | rawMember mem within ih => exact fun below => ih (below.member mem)

/-! ### Names and fields -/

/-- The fields of a record are those of its type, in this order. -/
theorem mem_fieldsAt
    {i : Nat} {fields : List (String × Shape)} {f : Decoder.Field Value}
    (mem : f ∈ fieldsAt i (fieldDecoders fields)) :
  ∃ g ∈ fields, f.name = g.1 ∧ f.decoder.closed = g.2.decoder.closed ∧
    f.decoder.single = g.2.decoder.single
  := by
  induction fields generalizing i with
  | nil => simp [fieldDecoders, fieldsAt] at mem
  | cons g rest ih =>
      obtain ⟨name, shape⟩ := g
      rw [fieldDecoders, fieldsAt, List.mem_cons] at mem
      rcases mem with rfl | mem
      · exact ⟨(name, shape), by simp, rfl, rfl, rfl⟩
      · obtain ⟨g, known, same⟩ := ih mem
        exact ⟨g, List.mem_cons_of_mem _ known, same⟩

/-- The types of fields of a distinct record are distinct. -/
theorem fieldsDistinct_mem
    {fields : List (String × Shape)} {f : String × Shape} (distinct : fieldsDistinct fields = true)
    (mem : f ∈ fields) :
  f.2.distinct = true
  := by
  induction fields with
  | nil => simp at mem
  | cons first rest ih =>
      simp only [fieldsDistinct, Bool.and_eq_true] at distinct
      rcases List.mem_cons.mp mem with rfl | mem
      · exact distinct.1
      · exact ih distinct.2 mem

/-- Every member of a document without unknown fields goes to a field. -/
theorem exists_field_of_closed
    {fields : List (String × Shape)} {members : List (String × Json)}
    (closed : (Shape.record fields).decoder.closed (.obj members) = true) {m : String × Json}
    (mem : m ∈ members) :
  ∃ f ∈ fields, binds m.1 f.1 = true ∧ f.2.decoder.closed m.2 = true
  := by
  simp only [Shape.decoder, Decoder.record, List.all_eq_true, List.any_eq_true, Bool.and_eq_true]
    at closed
  obtain ⟨f, known, bound, inside⟩ := closed m mem
  obtain ⟨g, known', name, same, -⟩ := mem_fieldsAt known
  exact ⟨g, known', name ▸ bound, same ▸ inside⟩

/-- A document without unknown fields has none in what is read into records. -/
theorem Reads.closed
    {shape shape' : Shape} {j part : Json} (reads : Reads shape j shape' part)
    (distinct : shape.distinct = true) (closed : shape.decoder.closed j = true) :
  shape'.decoder.closed part = true
  := by
  induction reads with
  | here => exact closed
  | target within ih =>
      simp only [Shape.distinct] at distinct
      exact ih distinct closed
  | item mem within ih =>
      simp only [Shape.distinct] at distinct
      simp only [Shape.decoder, Decoder.iso, Decoder.list?, List.all_eq_true] at closed
      exact ih distinct (closed _ mem)
  | entry mem within ih =>
      simp only [Shape.distinct] at distinct
      simp only [Shape.decoder, Decoder.iso, Decoder.entries, List.all_eq_true] at closed
      exact ih distinct (closed _ mem)
  | field mem known bound within ih =>
      rename_i fields shape members m f part
      obtain ⟨g, known', bound', inside⟩ := exists_field_of_closed closed mem
      simp only [Shape.distinct, Bool.and_eq_true, decide_eq_true_eq] at distinct
      -- both fields are bound by the member, so they are one
      obtain rfl : g = f := by
        apply List.inj_on_of_nodup_map distinct.1 known' known
        exact (of_decide_eq_true bound').symm.trans (of_decide_eq_true bound)
      exact ih (fieldsDistinct_mem distinct.2 known) inside
  | rawItem mem within ih => exact ih rfl rfl
  | rawMember mem within ih => exact ih rfl rfl

/-- No object of an authority document has a name twice. -/
theorem Reads.nodup
    {shape shape' : Shape} {j : Json} {members : List (String × Json)}
    (reads : Reads shape j shape' (.obj members)) (valid : j.validateAuthority = true) :
  (members.map Prod.fst).Nodup
  := by
  obtain ⟨depth, below⟩ := reads.exists_below (.top j)
  simp only [Json.validateAuthority, Bool.and_eq_true] at valid
  have inside := (below.wellFormed valid.1).2
  simp only [Json.wellFormed, Bool.and_eq_true, decide_eq_true_eq] at inside
  exact inside.1

/-! ### Readers -/

mutual

/-- A document none of whose objects has two members for one destination binds every field once. -/
theorem Shape.single_of_once : (shape : Shape) → (j : Json) → Once shape j →
    shape.decoder.single j = true
  | .text, _, _ => rfl
  | .number _, _, _ => rfl
  | .bool, _, _ => rfl
  | .raw, _, _ => rfl
  | .pointer target, j, once =>
      target.single_of_once j fun shape' members reads => once shape' members (.target reads)
  | .list item, j, once => by
      cases j with
      | arr items =>
          simp only [Shape.decoder, Decoder.iso, Decoder.list?, List.all_eq_true]
          intro x mem
          exact item.single_of_once x fun shape' members reads => once shape' members (.item mem reads)
      | _ => rfl
  | .map value, j, once => by
      cases j with
      | obj members =>
          simp only [Shape.decoder, Decoder.iso, Decoder.entries, List.all_eq_true]
          intro m mem
          exact value.single_of_once m.2 fun shape' members' reads =>
            once shape' members' (.entry mem reads)
      | _ => rfl
  | .record fields, j, once => by
      cases j with
      | obj members =>
          simp only [Shape.decoder, Decoder.record, List.all_eq_true]
          intro f mem
          obtain ⟨g, known, name, -, single⟩ := mem_fieldsAt mem
          have apart := once (.record fields) members (.here _ _)
          simp only [Decoder.fieldSingle, Bool.and_eq_true, decide_eq_true_eq, List.all_eq_true,
            single, name]
          refine ⟨?_, ?_⟩
          · rw [boundValues, List.length_map]
            -- two bound members would go to one field
            have bound : ∀ m ∈ members.filter (fun m => binds m.1 g.1), binds m.1 g.1 = true :=
              fun m mem => (List.mem_filter.mp mem).2
            have apart := apart.filter (fun m => binds m.1 g.1)
            generalize members.filter (fun m => binds m.1 g.1) = chosen at apart bound
            match chosen with
            | [] | [_] => simp
            | a :: b :: rest =>
                have differ := (List.pairwise_cons.mp apart).1 b (by simp)
                exact absurd ⟨g, known, bound a (by simp), bound b (by simp)⟩ differ
          · intro v bound
            obtain ⟨m, inside, rfl⟩ := List.mem_map.mp bound
            obtain ⟨mem, bound⟩ := List.mem_filter.mp inside
            exact fields_single_of_once fields g known m.2 fun shape' members' reads =>
              once shape' members' (.field mem known bound reads)
      | _ => rfl

/-- So does what is read into a field. -/
theorem fields_single_of_once : (fields : List (String × Shape)) → (f : String × Shape) →
    f ∈ fields → (j : Json) → Once f.2 j → f.2.decoder.single j = true
  | (name, shape) :: rest, f, mem, j, once => by
      rcases List.mem_cons.mp mem with rfl | mem
      · exact shape.single_of_once j once
      · exact fields_single_of_once rest f mem j once

end

/-! ### When decoding is unambiguous -/

namespace SampleDecoding

/-- A destination with one field. -/
def destination : Destination where
  shape := .record [("roleId", .text)]
  distinct := by decide

/-- A document with the field. -/
def plain : Json := .obj [("roleId", .str "dev")]

/-- A document with the field in two spellings. -/
def twice : Json := .obj [("roleId", .str "dev"), ("ROLEID", .str "ops")]

end SampleDecoding

end Dagrail
