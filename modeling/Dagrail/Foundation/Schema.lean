import Dagrail.Foundation.Json

/-!
# Document schemas

The part of JSON Schema that closed request documents use: bounded texts, integers and lists,
closed objects with required members, and maps from names to values of one schema.
-/

namespace Dagrail

/-- A schema. -/
inductive Schema where
  /-- Any document. -/
  | anything
  /-- Any document but `null`. -/
  | notNull
  /-- A truth value. -/
  | boolean
  /-- A text whose number of characters is within the bounds and which satisfies a pattern. -/
  | text (minLength : Nat) (maxLength : Option Nat) (pattern : String → Bool)
  /-- One of the given texts. -/
  | enum (values : List String)
  /-- An integer within the bounds. -/
  | integer (minimum : Int) (maximum : Option Int)
  /-- A list of bounded length. -/
  | array (minItems maxItems : Nat) (items : Schema)
  /-- An object with the given members only, some of them required, and exactly one of a list of
  alternatives if that list is not empty. -/
  | object (required alternatives : List String) (members : List (String × Schema))
  /-- An object with any names. -/
  | map (values : Schema)

namespace Schema

/-- A text with bounds only. -/
def bounded (minLength maxLength : Nat) : Schema :=
  .text minLength (some maxLength) fun _ => true

/-- Is there a member with the name? -/
def present (doc : List (String × Json)) (name : String) : Bool :=
  doc.any fun m => m.1 = name

mutual

/-- Does the document satisfy the schema? -/
def validate : Schema → Json → Bool
  | .anything, _ => true
  | .notNull, j => j ≠ .null
  | .boolean, j =>
      match j with
      | .bool _ => true
      | _ => false
  | .text minLength maxLength pattern, j =>
      match j with
      | .str s =>
          decide (minLength ≤ s.length) && maxLength.all (fun m => decide (s.length ≤ m)) && pattern s
      | _ => false
  | .enum values, j =>
      match j with
      | .str s => values.contains s
      | _ => false
  | .integer minimum maximum, j =>
      match j with
      | .num n => decide (minimum ≤ n) && maximum.all fun m => decide (n ≤ m)
      | _ => false
  | .array minItems maxItems items, j =>
      match j with
      | .arr xs => decide (minItems ≤ xs.length ∧ xs.length ≤ maxItems) && xs.all (validate items)
      | _ => false
  | .object required alternatives members, j =>
      match j with
      | .obj doc =>
          required.all (present doc)
            && (alternatives.isEmpty || decide ((alternatives.filter (present doc)).length = 1))
            && doc.all (fun m => members.any fun member => member.1 = m.1)
            && validateMembers members doc
      | _ => false
  | .map values, j =>
      match j with
      | .obj doc => doc.all fun m => validate values m.2
      | _ => false

/-- Do the members of the document satisfy the schemas under their names? -/
def validateMembers : List (String × Schema) → List (String × Json) → Bool
  | [], _ => true
  | (name, schema) :: rest, doc =>
      doc.all (fun m => m.1 ≠ name || validate schema m.2) && validateMembers rest doc

end

/-- A valid member of a closed object satisfies the schema under its name. -/
theorem validateMembers_mem
    {members : List (String × Schema)} {doc : List (String × Json)} {name : String}
    {schema : Schema} {value : Json} (valid : validateMembers members doc = true)
    (declared : (name, schema) ∈ members) (mem : (name, value) ∈ doc) :
  validate schema value = true
  := by
  induction members with
  | nil => simp at declared
  | cons member rest ih =>
      obtain ⟨name', schema'⟩ := member
      simp only [validateMembers, Bool.and_eq_true, List.all_eq_true] at valid
      rcases List.mem_cons.mp declared with same | declared
      · obtain ⟨rfl, rfl⟩ := Prod.mk.inj same
        simpa using valid.1 (name, value) mem
      · exact ih valid.2 declared

end Schema

end Dagrail
