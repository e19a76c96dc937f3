import Dagrail.Domain.Authority
import Dagrail.Foundation.Outcome

/-!
# The scanner of authority documents

Before a document is decoded its text is scanned token by token: the depth, the number of values,
the lengths of names and texts, and the integers are checked, and that no object has a name twice.
The scanner accepts the texts of the well-formed documents.
-/

namespace Dagrail

/-! ### Tokens -/

/-- A token of a text, without the commas and colons between tokens. -/
inductive Token where
  | openObject
  | closeObject
  | openArray
  | closeArray
  | null
  | bool (b : Bool)
  | integer (n : Int)
  /-- A number with a fraction or an exponent. -/
  | floating (text : String)
  | str (s : String)

namespace Json

mutual

/-- The tokens of the text of a document. -/
def tokens : Json → List Token
  | .null => [.null]
  | .bool b => [.bool b]
  | .num n => [.integer n]
  | .str s => [.str s]
  | .arr items => .openArray :: (itemTokens items ++ [.closeArray])
  | .obj members => .openObject :: (memberTokens members ++ [.closeObject])

/-- The tokens of items. -/
def itemTokens : List Json → List Token
  | [] => []
  | x :: xs => tokens x ++ itemTokens xs

/-- The tokens of members. -/
def memberTokens : List (String × Json) → List Token
  | [] => []
  | (k, x) :: xs => .str k :: (tokens x ++ memberTokens xs)

end

/-- Every document has a token. -/
theorem tokens_length_pos
    (j : Json) :
  0 < j.tokens.length
  := by
  cases j <;> simp [tokens]

end Json

/-! ### The walk -/

section Walk

variable (maxDepth maxValues : Nat)

mutual

/-- Walk over one value at a depth, when so many values have been seen. The result is the number of
values seen by then, and the tokens behind. -/
def walk : Nat → Nat → Nat → List Token → Fallible (Nat × List Token)
  | 0, _, _, _ => .error "invalid JSON"
  | fuel + 1, depth, values, tokens => do
      check (decide (depth ≤ maxDepth)) "authority JSON nesting exceeds the levels"
      match tokens with
      | [] => .error "invalid JSON"
      | token :: rest => do
          check (decide (values + 1 ≤ maxValues)) "authority JSON exceeds the values"
          match token with
          | .openObject => walkMembers fuel [] depth (values + 1) rest
          | .openArray => walkItems fuel depth (values + 1) rest
          | .closeObject | .closeArray => .error "unexpected JSON delimiter"
          | .floating _ => .error "floating authority number must be an integer or string"
          | .integer n => do
              check (decide (n.natAbs ≤ maxAuthorityInteger.natAbs))
                "authority integer exceeds the RFC 8785 safe range"
              .ok (values + 1, rest)
          | .str s => do
              check (decide (s.utf8ByteSize ≤ maxAuthorityStringBytes))
                "authority JSON string exceeds the bytes"
              .ok (values + 1, rest)
          | .null | .bool _ => .ok (values + 1, rest)
termination_by structural fuel => fuel

/-- Walk over the items of a list up to its end. -/
def walkItems : Nat → Nat → Nat → List Token → Fallible (Nat × List Token)
  | 0, _, _, _ => .error "invalid JSON"
  | _ + 1, _, values, .closeArray :: rest => .ok (values, rest)
  | fuel + 1, depth, values, tokens => do
      let (values, rest) ← walk fuel (depth + 1) values tokens
      walkItems fuel depth values rest
termination_by structural fuel => fuel

/-- Walk over the members of an object up to its end, when these names have been seen. -/
def walkMembers : Nat → List String → Nat → Nat → List Token → Fallible (Nat × List Token)
  | 0, _, _, _, _ => .error "invalid JSON"
  | _ + 1, _, _, values, .closeObject :: rest => .ok (values, rest)
  | fuel + 1, seen, depth, values, .str key :: rest => do
      check (decide (key.utf8ByteSize ≤ maxAuthorityKeyBytes)) "authority JSON key exceeds the bytes"
      check (decide (key ∉ seen)) "authority JSON contains duplicate key"
      let (values, rest) ← walk fuel (depth + 1) values rest
      walkMembers fuel (key :: seen) depth values rest
  | _ + 1, _, _, _, _ => .error "invalid JSON object key"
termination_by structural fuel => fuel

end

end Walk

section Accepted

variable {maxDepth maxValues : Nat}

/-- A value that is one token is read if the depth and the values so far admit it and its own
check passes. -/
theorem leaf_iff
    {depth values size values' : Nat} {rest rest' : List Token} (own : Bool) (message : String)
    (one : size = 1) :
  ((check (decide (depth ≤ maxDepth)) "authority JSON nesting exceeds the levels" >>= fun _ =>
      check (decide (values + 1 ≤ maxValues)) "authority JSON exceeds the values" >>= fun _ =>
      check own message >>= fun _ => Except.ok (values + 1, rest)) = Except.ok (values', rest') ↔
    (depth ≤ maxDepth ∧ own = true ∧ values + size ≤ maxValues) ∧ values' = values + size ∧
      rest' = rest)
  := by
  subst one
  simp only [bind_eq_ok, check_eq_ok, decide_eq_true_eq, Except.ok.injEq, Prod.mk.injEq]
  constructor
  · rintro ⟨_, deep, _, short, _, passes, rfl, rfl⟩
    exact ⟨⟨deep, passes, short⟩, rfl, rfl⟩
  · rintro ⟨⟨deep, passes, short⟩, rfl, rfl⟩
    exact ⟨(), deep, (), short, (), passes, rfl, rfl⟩

mutual

/-- The walk over a document ends behind it if the document is well formed at its depth and has no
more values than are left. -/
theorem walk_tokens : (j : Json) → (fuel depth values values' : Nat) → (rest rest' : List Token) →
    j.tokens.length ≤ fuel →
    (walk maxDepth maxValues fuel depth values (j.tokens ++ rest) = .ok (values', rest') ↔
      (depth ≤ maxDepth ∧ j.wellFormed (maxDepth - depth) = true ∧
        values + j.values ≤ maxValues) ∧ values' = values + j.values ∧ rest' = rest)
  | j, 0, _, _, _, _, _, enough => by
      have := j.tokens_length_pos
      omega
  | .null, fuel + 1, depth, values, values', rest, rest', _ =>
      leaf_iff true "" rfl
  | .bool b, fuel + 1, depth, values, values', rest, rest', _ =>
      leaf_iff true "" rfl
  | .num n, fuel + 1, depth, values, values', rest, rest', _ => leaf_iff _ _ rfl
  | .str s, fuel + 1, depth, values, values', rest, rest', _ => leaf_iff _ _ rfl
  | .arr items, fuel + 1, depth, values, values', rest, rest', enough => by
      have within : (Json.itemTokens items).length + 1 ≤ fuel := by
        simp only [Json.tokens, List.length_cons, List.length_append, List.length_nil] at enough
        omega
      have inside := walkItems_tokens items fuel depth (values + 1) values' rest rest' within
      simp only [Json.tokens, List.cons_append, List.append_assoc, List.nil_append, walk,
        bind_eq_ok, check_eq_ok, decide_eq_true_eq, Json.wellFormed, Json.values, ← Nat.add_assoc]
      constructor
      · rintro ⟨_, deep, _, short, walked⟩
        obtain ⟨⟨formed, total⟩, rfl, rfl⟩ := (inside deep short).mp walked
        exact ⟨⟨deep, formed, total⟩, rfl, rfl⟩
      · rintro ⟨⟨deep, formed, total⟩, rfl, rfl⟩
        have short : values + 1 ≤ maxValues := by omega
        exact ⟨(), deep, (), short, (inside deep short).mpr ⟨⟨formed, total⟩, rfl, rfl⟩⟩
  | .obj members, fuel + 1, depth, values, values', rest, rest', enough => by
      have within : (Json.memberTokens members).length + 1 ≤ fuel := by
        simp only [Json.tokens, List.length_cons, List.length_append, List.length_nil] at enough
        omega
      have inside := walkMembers_tokens members [] fuel depth (values + 1) values' rest rest' within
      simp only [Json.tokens, List.cons_append, List.append_assoc, List.nil_append, walk,
        bind_eq_ok, check_eq_ok, decide_eq_true_eq, Json.wellFormed, Json.values, ← Nat.add_assoc,
        Bool.and_eq_true]
      constructor
      · rintro ⟨_, deep, _, short, walked⟩
        obtain ⟨⟨⟨distinct, -⟩, formed, total⟩, rfl, rfl⟩ := (inside deep short).mp walked
        exact ⟨⟨deep, ⟨distinct, formed⟩, total⟩, rfl, rfl⟩
      · rintro ⟨⟨deep, ⟨distinct, formed⟩, total⟩, rfl, rfl⟩
        have short : values + 1 ≤ maxValues := by omega
        exact ⟨(), deep, (), short,
          (inside deep short).mpr ⟨⟨⟨distinct, by simp⟩, formed, total⟩, rfl, rfl⟩⟩

/-- So does the walk over items. -/
theorem walkItems_tokens : (items : List Json) → (fuel depth values values' : Nat) →
    (rest rest' : List Token) → (Json.itemTokens items).length + 1 ≤ fuel →
    depth ≤ maxDepth → values ≤ maxValues →
    (walkItems maxDepth maxValues fuel depth values
        (Json.itemTokens items ++ .closeArray :: rest) = .ok (values', rest') ↔
      (Json.itemsWellFormed (maxDepth - depth) items = true ∧
        values + Json.itemValues items ≤ maxValues) ∧
        values' = values + Json.itemValues items ∧ rest' = rest)
  | _, 0, _, _, _, _, _, enough, _, _ => by omega
  | [], fuel + 1, depth, values, values', rest, rest', enough, deep, short => by
      simp only [Json.itemTokens, List.nil_append, walkItems, Json.itemsWellFormed,
        Json.itemValues, Nat.add_zero, Except.ok.injEq, Prod.mk.injEq, eq_comm (a := values),
        eq_comm (a := rest), short, and_self, true_and]
  | x :: xs, fuel + 1, depth, values, values', rest, rest', enough, deep, short => by
      have first := x.tokens_length_pos
      simp only [Json.itemTokens, List.length_append] at enough
      have open_ : ∀ tail, walkItems maxDepth maxValues (fuel + 1) depth values (x.tokens ++ tail) =
          (walk maxDepth maxValues fuel (depth + 1) values (x.tokens ++ tail) >>= fun r =>
            walkItems maxDepth maxValues fuel depth r.1 r.2) := by
        intro tail
        cases x <;> rfl
      simp only [Json.itemTokens, List.append_assoc, open_, bind_eq_ok, Prod.exists,
        Json.itemsWellFormed, Json.itemValues, Bool.and_eq_true, decide_eq_true_eq, ← Nat.add_assoc]
      constructor
      · rintro ⟨middle, tail, walked, later⟩
        obtain ⟨⟨deeper, formed, total⟩, rfl, rfl⟩ :=
          (walk_tokens x fuel (depth + 1) values middle _ tail (by omega)).mp walked
        obtain ⟨⟨others, total'⟩, rfl, rfl⟩ :=
          (walkItems_tokens xs fuel depth _ values' rest rest' (by omega) deep total).mp later
        rw [Nat.sub_add_eq] at formed
        exact ⟨⟨⟨⟨by omega, formed⟩, others⟩, total'⟩, rfl, rfl⟩
      · rintro ⟨⟨⟨⟨deeper, formed⟩, others⟩, total⟩, rfl, rfl⟩
        rw [← Nat.sub_add_eq] at formed
        refine ⟨values + x.values, _, (walk_tokens x fuel (depth + 1) values _ _ _ (by omega)).mpr
          ⟨⟨by omega, formed, by omega⟩, rfl, rfl⟩, ?_⟩
        exact (walkItems_tokens xs fuel depth _ _ _ _ (by omega) deep (by omega)).mpr
          ⟨⟨others, total⟩, rfl, rfl⟩

/-- So does the walk over members, when their names are new and distinct. -/
theorem walkMembers_tokens : (members : List (String × Json)) → (seen : List String) →
    (fuel depth values values' : Nat) → (rest rest' : List Token) →
    (Json.memberTokens members).length + 1 ≤ fuel → depth ≤ maxDepth → values ≤ maxValues →
    (walkMembers maxDepth maxValues fuel seen depth values
        (Json.memberTokens members ++ .closeObject :: rest) = .ok (values', rest') ↔
      (((members.map Prod.fst).Nodup ∧ ∀ key ∈ members.map Prod.fst, key ∉ seen) ∧
        Json.membersWellFormed (maxDepth - depth) members = true ∧
        values + Json.memberValues members ≤ maxValues) ∧
        values' = values + Json.memberValues members ∧ rest' = rest)
  | _, _, 0, _, _, _, _, _, enough, _, _ => by omega
  | [], seen, fuel + 1, depth, values, values', rest, rest', enough, deep, short => by
      simp [Json.memberTokens, walkMembers, Json.membersWellFormed, Json.memberValues, short,
        eq_comm]
  | (k, x) :: ms, seen, fuel + 1, depth, values, values', rest, rest', enough, deep, short => by
      simp only [Json.memberTokens, List.length_cons, List.length_append] at enough
      simp only [Json.memberTokens, List.cons_append, List.append_assoc, walkMembers, bind_eq_ok,
        check_eq_ok, Prod.exists, Json.membersWellFormed, Json.memberValues, Bool.and_eq_true,
        decide_eq_true_eq, ← Nat.add_assoc, List.map_cons, List.nodup_cons, List.forall_mem_cons]
      constructor
      · rintro ⟨_, key, _, new, middle, tail, walked, later⟩
        obtain ⟨⟨deeper, formed, total⟩, rfl, rfl⟩ :=
          (walk_tokens x fuel (depth + 1) values middle _ tail (by omega)).mp walked
        obtain ⟨⟨⟨distinct, unseen⟩, others, total'⟩, rfl, rfl⟩ :=
          (walkMembers_tokens ms (k :: seen) fuel depth _ values' rest rest' (by omega) deep
            total).mp later
        rw [Nat.sub_add_eq] at formed
        refine ⟨⟨⟨⟨?_, distinct⟩, new, ?_⟩, ⟨⟨⟨by omega, key⟩, formed⟩, others⟩, total'⟩, rfl, rfl⟩
        · intro again
          exact unseen k again (by simp)
        · intro name mem old
          exact unseen name mem (by simp [old])
      · rintro ⟨⟨⟨⟨once, distinct⟩, new, unseen⟩, ⟨⟨⟨deeper, key⟩, formed⟩, others⟩, total⟩, rfl, rfl⟩
        rw [← Nat.sub_add_eq] at formed
        refine ⟨(), key, (), new, values + x.values, _,
          (walk_tokens x fuel (depth + 1) values _ _ _ (by omega)).mpr
            ⟨⟨by omega, formed, by omega⟩, rfl, rfl⟩, ?_⟩
        refine (walkMembers_tokens ms (k :: seen) fuel depth _ _ _ _ (by omega) deep
          (by omega)).mpr ⟨⟨⟨distinct, ?_⟩, others, total⟩, rfl, rfl⟩
        intro name mem old
        rcases List.mem_cons.mp old with rfl | old
        · exact once mem
        · exact unseen name mem old

end

end Accepted

end Dagrail
