import Mathlib.Data.List.Sort
import Mathlib.Data.List.Lex

/-!
# JSON documents

A JSON document keeps the members of an object in the order of the text, so that two texts that
differ only in that order are different documents. Numbers are integers: the authority documents
of this development admit no other. The canonical form of a document lists the members of every
object by the UTF-16 order of their names.
-/

namespace Dagrail

/-- A JSON document, object members in document order. -/
inductive Json where
  | null
  | bool (b : Bool)
  | num (n : Int)
  | str (s : String)
  | arr (items : List Json)
  | obj (members : List (String × Json))
deriving Inhabited

namespace Json

mutual

/-- Equality of documents is decided by comparing them member by member. -/
def decEq : (a b : Json) → Decidable (a = b)
  | .null, b =>
      match b with
      | .null => isTrue rfl
      | .bool _ | .num _ | .str _ | .arr _ | .obj _ => isFalse nofun
  | .bool x, b =>
      match b with
      | .bool y => decidable_of_iff (x = y) (by simp)
      | .null | .num _ | .str _ | .arr _ | .obj _ => isFalse nofun
  | .num x, b =>
      match b with
      | .num y => decidable_of_iff (x = y) (by simp)
      | .null | .bool _ | .str _ | .arr _ | .obj _ => isFalse nofun
  | .str x, b =>
      match b with
      | .str y => decidable_of_iff (x = y) (by simp)
      | .null | .bool _ | .num _ | .arr _ | .obj _ => isFalse nofun
  | .arr xs, b =>
      match b with
      | .arr ys =>
          match decEqItems xs ys with
          | isTrue h => isTrue (congrArg Json.arr h)
          | isFalse h => isFalse (fun e => h (Json.arr.inj e))
      | .null | .bool _ | .num _ | .str _ | .obj _ => isFalse nofun
  | .obj xs, b =>
      match b with
      | .obj ys =>
          match decEqMembers xs ys with
          | isTrue h => isTrue (congrArg Json.obj h)
          | isFalse h => isFalse (fun e => h (Json.obj.inj e))
      | .null | .bool _ | .num _ | .str _ | .arr _ => isFalse nofun

/-- Equality of item lists. -/
def decEqItems : (xs ys : List Json) → Decidable (xs = ys)
  | [], ys =>
      match ys with
      | [] => isTrue rfl
      | _ :: _ => isFalse nofun
  | x :: xs, ys =>
      match ys with
      | [] => isFalse nofun
      | y :: ys =>
          match decEq x y, decEqItems xs ys with
          | isTrue h, isTrue h' => isTrue (by rw [h, h'])
          | isFalse h, _ => isFalse (fun e => h (List.cons.inj e).1)
          | _, isFalse h => isFalse (fun e => h (List.cons.inj e).2)

/-- Equality of member lists. -/
def decEqMembers : (xs ys : List (String × Json)) → Decidable (xs = ys)
  | [], ys =>
      match ys with
      | [] => isTrue rfl
      | _ :: _ => isFalse nofun
  | (k, x) :: xs, ys =>
      match ys with
      | [] => isFalse nofun
      | (l, y) :: ys =>
          match decEq x y, decEqMembers xs ys with
          | isTrue h, isTrue h' => decidable_of_iff (k = l) (by simp [h, h'])
          | isFalse h, _ => isFalse (fun e => h (Prod.mk.inj (List.cons.inj e).1).2)
          | _, isFalse h => isFalse (fun e => h (List.cons.inj e).2)

end

instance : DecidableEq Json := decEq

/-! ### Canonical form -/

/-- The UTF-16 code units of a text, the order in which canonical JSON sorts member names. -/
def codeUnits (s : String) : List Nat :=
  s.toList.flatMap fun c =>
    if c.toNat < 0x10000 then [c.toNat]
    else [0xD800 + (c.toNat - 0x10000) / 0x400, 0xDC00 + (c.toNat - 0x10000) % 0x400]

/-- Does the member `a` come no later than `b` in a canonical object? -/
def memberLe (a b : String × Json) : Prop :=
  codeUnits a.1 ≤ codeUnits b.1

instance : DecidableRel memberLe := fun a b =>
  inferInstanceAs (Decidable (codeUnits a.1 ≤ codeUnits b.1))

instance : Std.Total memberLe := ⟨fun a b => le_total (codeUnits a.1) (codeUnits b.1)⟩

instance : IsTrans (String × Json) memberLe := ⟨fun _ _ _ => le_trans⟩

/-- Sort members by name, keeping the document order of members with one name. -/
def sortMembers (members : List (String × Json)) : List (String × Json) :=
  members.insertionSort memberLe

mutual

/-- The canonical form of a document: members of every object sorted by name. -/
def canon : Json → Json
  | .arr items => .arr (canonItems items)
  | .obj members => .obj (sortMembers (canonMembers members))
  | .null => .null
  | .bool b => .bool b
  | .num n => .num n
  | .str s => .str s

/-- The canonical forms of a list of items. -/
def canonItems : List Json → List Json
  | [] => []
  | x :: xs => canon x :: canonItems xs

/-- Members with canonical values, in the order given. -/
def canonMembers : List (String × Json) → List (String × Json)
  | [] => []
  | (k, x) :: xs => (k, canon x) :: canonMembers xs

end

/-- Canonical members keep their names and order. -/
theorem canonMembers_eq_map
    (members : List (String × Json)) :
  canonMembers members = members.map fun m => (m.1, canon m.2)
  := by
  induction members with
  | nil => rfl
  | cons m ms ih => simp [canonMembers, ih]

/-- Canonical items are the items in canonical form. -/
theorem canonItems_eq_map
    (items : List Json) :
  canonItems items = items.map canon
  := by
  induction items with
  | nil => rfl
  | cons x xs ih => simp [canonItems, ih]

/-- Sorting members does not depend on their values. -/
theorem sortMembers_map
    (f : Json → Json) (members : List (String × Json)) :
  sortMembers (members.map fun m => (m.1, f m.2)) =
    (sortMembers members).map fun m => (m.1, f m.2)
  := by
  unfold sortMembers
  symm
  apply List.map_insertionSort
  intro a _ b _
  rfl

/-- Members in canonical order stay where they are. -/
theorem sortMembers_sortMembers
    (members : List (String × Json)) :
  sortMembers (sortMembers members) = sortMembers members
  := by
  apply List.Pairwise.insertionSort_eq
  exact List.pairwise_insertionSort memberLe members

/-- The members of a sorted object are those of the object. -/
theorem sortMembers_perm
    (members : List (String × Json)) :
  (sortMembers members).Perm members
  := List.perm_insertionSort memberLe members

mutual

/-- A canonical document is its own canonical form. -/
theorem canon_canon : (j : Json) → j.canon.canon = j.canon
  | .null => rfl
  | .bool _ => rfl
  | .num _ => rfl
  | .str _ => rfl
  | .arr items => by
      simp only [canon]
      rw [canonItems_canonItems items]
  | .obj members => by
      simp only [canon]
      rw [canonMembers_eq_map (sortMembers _), ← sortMembers_map, ← canonMembers_eq_map,
        canonMembers_canonMembers members, sortMembers_sortMembers]

/-- Canonical items are in canonical form. -/
theorem canonItems_canonItems : (items : List Json) →
    canonItems (canonItems items) = canonItems items
  | [] => rfl
  | x :: xs => by
      simp only [canonItems]
      rw [canon_canon x, canonItems_canonItems xs]

/-- Canonical members have canonical values. -/
theorem canonMembers_canonMembers : (members : List (String × Json)) →
    canonMembers (canonMembers members) = canonMembers members
  | [] => rfl
  | (k, x) :: xs => by
      simp only [canonMembers]
      rw [canon_canon x, canonMembers_canonMembers xs]

end

end Json

example : (Json.obj [("b", .num 1), ("A", .null)]).canon = .obj [("A", .null), ("b", .num 1)] := by
  decide

end Dagrail
