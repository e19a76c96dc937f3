import Dagrail.Foundation.Json

/-!
# Authority documents

The grammar a document needs to be kept as authority: bounded depth, number of values, names and
texts, no name twice in one object, and integers that a double represents.
-/

namespace Dagrail

def maxAuthorityDepth : Nat := 64
def maxAuthorityValues : Nat := 1000000
def maxAuthorityKeyBytes : Nat := 1024
def maxAuthorityStringBytes : Nat := 1048576

/-- The largest integer of an authority document. -/
def maxAuthorityInteger : Int := 9007199254740991

namespace Json

mutual

/-- The number of values in a document: itself and everything below it. -/
def values : Json → Nat
  | .arr items => 1 + itemValues items
  | .obj members => 1 + memberValues members
  | .null => 1
  | .bool _ => 1
  | .num _ => 1
  | .str _ => 1

/-- The number of values in a list of items. -/
def itemValues : List Json → Nat
  | [] => 0
  | x :: xs => values x + itemValues xs

/-- The number of values in a list of members. -/
def memberValues : List (String × Json) → Nat
  | [] => 0
  | (_, x) :: xs => values x + memberValues xs

end

mutual

/-- Is every value of the document well formed, with at most `depth` levels below it? -/
def wellFormed (depth : Nat) : Json → Bool
  | .null => true
  | .bool _ => true
  | .num n => decide (n.natAbs ≤ maxAuthorityInteger.natAbs)
  | .str s => decide (s.utf8ByteSize ≤ maxAuthorityStringBytes)
  | .arr items => itemsWellFormed depth items
  | .obj members => decide (members.map Prod.fst).Nodup && membersWellFormed depth members

/-- Is every item well formed, one level deeper? -/
def itemsWellFormed (depth : Nat) : List Json → Bool
  | [] => true
  | x :: xs => decide (0 < depth) && wellFormed (depth - 1) x && itemsWellFormed depth xs

/-- Is every member well formed, one level deeper? -/
def membersWellFormed (depth : Nat) : List (String × Json) → Bool
  | [] => true
  | (k, x) :: xs =>
      decide (0 < depth) && decide (k.utf8ByteSize ≤ maxAuthorityKeyBytes)
        && wellFormed (depth - 1) x && membersWellFormed depth xs

end

/-- Is the document one that may be kept as authority? -/
def validateAuthority (j : Json) : Bool :=
  wellFormed maxAuthorityDepth j && decide (values j ≤ maxAuthorityValues)

end Json

end Dagrail
