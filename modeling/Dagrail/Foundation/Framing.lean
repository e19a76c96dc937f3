import Mathlib.Tactic.NormNum
import Mathlib.Data.List.Basic

/-!
# Frames

A frame is a tag, the length of what follows in eight bytes, and that many bytes. A frame says where
it ends, so a list of bytes begins with one frame at most.
-/

namespace Dagrail

namespace Framing

/-- A byte. -/
abbrev Byte := UInt8

/-- The last `k` bytes of a number, the first one first. -/
def bigEndian : Nat → Nat → List Byte
  | 0, _ => []
  | k + 1, n => bigEndian k (n / 256) ++ [UInt8.ofNat n]

@[simp]
theorem length_bigEndian
    (k n : Nat) :
  (bigEndian k n).length = k
  := by
  induction k generalizing n with
  | zero => rfl
  | succ k ih => simp [bigEndian, ih]

/-- A number is determined by its bytes, if there are enough of them. -/
theorem bigEndian_inj
    {k n m : Nat} (shortn : n < 256 ^ k) (shortm : m < 256 ^ k)
    (same : bigEndian k n = bigEndian k m) :
  n = m
  := by
  induction k generalizing n m with
  | zero =>
      rw [pow_zero] at shortn shortm
      omega
  | succ k ih =>
      rw [pow_succ] at shortn shortm
      obtain ⟨front, last⟩ := List.append_inj' same rfl
      have high : n / 256 = m / 256 := ih (by omega) (by omega) front
      have low : n % 256 = m % 256 := by
        have bytes := congrArg UInt8.toNat (List.head_eq_of_cons_eq last)
        simpa using bytes
      omega

/-- A tag, the length of the data, and the data. -/
def frame (tag : Byte) (data : List Byte) : List Byte :=
  tag :: (bigEndian 8 data.length ++ data)

/-- A list of bytes begins with one frame at most. -/
theorem frame_append_inj
    {tag tag' : Byte} {data data' rest rest' : List Byte} (short : data.length < 2 ^ 64)
    (short' : data'.length < 2 ^ 64)
    (same : frame tag data ++ rest = frame tag' data' ++ rest') :
  tag = tag' ∧ data = data' ∧ rest = rest'
  := by
  rw [frame, frame, List.cons_append, List.cons_append, List.cons.injEq, List.append_assoc,
    List.append_assoc] at same
  obtain ⟨tags, same⟩ := same
  obtain ⟨lengths, same⟩ := List.append_inj same (by simp)
  have sizes : data.length = data'.length :=
    bigEndian_inj (by norm_num at short ⊢; omega) (by norm_num at short' ⊢; omega) lengths
  obtain ⟨datas, rests⟩ := List.append_inj same sizes
  exact ⟨tags, datas, rests⟩

/-- A frame is not empty. -/
theorem frame_ne_nil
    (tag : Byte) (data : List Byte) :
  frame tag data ≠ []
  := List.cons_ne_nil _ _

end Framing

end Dagrail
