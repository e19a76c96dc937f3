import Mathlib.Data.List.Basic
import Mathlib.Data.UInt

/-!
# Texts of bytes

The URL alphabet of base64 without padding (`base64.RawURLEncoding`): three bytes are four letters
of six bits each, and one or two bytes that remain are two or three letters. A text of bytes reads
back as the bytes it was made of, and has no full stop in it.
-/

namespace Dagrail

namespace Base64

/-! ### Letters -/

/-- The letter of six bits. -/
def letter (n : Nat) : Char :=
  if n < 26 then Char.ofNat (65 + n)
  else if n < 52 then Char.ofNat (71 + n)
  else if n < 62 then Char.ofNat (n - 4)
  else if n = 62 then '-'
  else '_'

/-- The six bits of a letter. -/
def bits (c : Char) : Option Nat :=
  if 'A' ≤ c ∧ c ≤ 'Z' then some (c.toNat - 65)
  else if 'a' ≤ c ∧ c ≤ 'z' then some (c.toNat - 71)
  else if '0' ≤ c ∧ c ≤ '9' then some (c.toNat + 4)
  else if c = '-' then some 62
  else if c = '_' then some 63
  else none

/-- A letter reads as its bits. -/
theorem bits_letter
    {n : Nat} (short : n < 64) :
  bits (letter n) = some n
  := by
  have all : ∀ n < 64, bits (letter n) = some n := by decide
  exact all n short

/-- A letter is neither a full stop nor the end of a line. -/
theorem letter_plain
    {n : Nat} (short : n < 64) :
  letter n ≠ '.' ∧ letter n ≠ '\n' ∧ letter n ≠ '\r'
  := by
  have all : ∀ n < 64, letter n ≠ '.' ∧ letter n ≠ '\n' ∧ letter n ≠ '\r' := by decide
  exact all n short

/-! ### Texts -/

/-- The letters of bytes. -/
def encode : List UInt8 → List Char
  | [] => []
  | [a] => [letter (a.toNat / 4), letter (a.toNat % 4 * 16)]
  | [a, b] =>
      [letter (a.toNat / 4), letter (a.toNat % 4 * 16 + b.toNat / 16), letter (b.toNat % 16 * 4)]
  | a :: b :: c :: rest =>
      letter (a.toNat / 4) :: letter (a.toNat % 4 * 16 + b.toNat / 16)
        :: letter (b.toNat % 16 * 4 + c.toNat / 64) :: letter (c.toNat % 64) :: encode rest

/-- The bytes of six-bit groups. Bits that remain after the last byte are dropped. -/
def bytes : List Nat → Option (List UInt8)
  | [] => some []
  | [_] => none
  | [w, x] => some [UInt8.ofNat (w * 4 + x / 16)]
  | [w, x, y] => some [UInt8.ofNat (w * 4 + x / 16), UInt8.ofNat (x % 16 * 16 + y / 4)]
  | w :: x :: y :: z :: rest =>
      (bytes rest).map fun tail =>
        UInt8.ofNat (w * 4 + x / 16) :: UInt8.ofNat (x % 16 * 16 + y / 4)
          :: UInt8.ofNat (y % 4 * 64 + z) :: tail

/-- The bytes of letters. Ends of lines are skipped. -/
def decode (cs : List Char) : Option (List UInt8) :=
  ((cs.filter fun c => c ≠ '\n' && c ≠ '\r').mapM bits).bind bytes

/-- The six-bit groups of bytes. -/
def groups : List UInt8 → List Nat
  | [] => []
  | [a] => [a.toNat / 4, a.toNat % 4 * 16]
  | [a, b] => [a.toNat / 4, a.toNat % 4 * 16 + b.toNat / 16, b.toNat % 16 * 4]
  | a :: b :: c :: rest =>
      a.toNat / 4 :: (a.toNat % 4 * 16 + b.toNat / 16) :: (b.toNat % 16 * 4 + c.toNat / 64)
        :: c.toNat % 64 :: groups rest

/-- The letters of bytes are those of their groups. -/
theorem encode_eq
    (bs : List UInt8) :
  encode bs = (groups bs).map letter
  := by
  induction bs using encode.induct with
  | case1 => rfl
  | case2 a => rfl
  | case3 a b => rfl
  | case4 a b c rest ih => simp [encode, groups, ih]

/-- Groups have six bits. -/
theorem groups_short
    (bs : List UInt8) :
  ∀ n ∈ groups bs, n < 64
  := by
  induction bs using groups.induct with
  | case1 => simp [groups]
  | case2 a =>
      have := a.toNat_lt
      simp only [groups, List.mem_cons, List.not_mem_nil, or_false]
      omega
  | case3 a b =>
      have := a.toNat_lt
      have := b.toNat_lt
      simp only [groups, List.mem_cons, List.not_mem_nil, or_false]
      omega
  | case4 a b c rest ih =>
      have := a.toNat_lt
      have := b.toNat_lt
      have := c.toNat_lt
      simp only [groups, List.mem_cons]
      rintro n (rfl | rfl | rfl | rfl | mem)
      · omega
      · omega
      · omega
      · omega
      · exact ih n mem

/-- A byte is made of its number. -/
theorem ofNat_of_eq
    {a : UInt8} {n : Nat} (same : n = a.toNat) :
  UInt8.ofNat n = a
  := by
  rw [same, UInt8.ofNat_toNat]

/-- The groups of bytes are the bytes. -/
theorem bytes_groups
    (bs : List UInt8) :
  bytes (groups bs) = some bs
  := by
  induction bs using groups.induct with
  | case1 => rfl
  | case2 a =>
      have := a.toNat_lt
      have first : UInt8.ofNat (a.toNat / 4 * 4 + a.toNat % 4 * 16 / 16) = a :=
        ofNat_of_eq (by omega)
      simp only [groups, bytes, first]
  | case3 a b =>
      have := a.toNat_lt
      have := b.toNat_lt
      have first : UInt8.ofNat (a.toNat / 4 * 4 + (a.toNat % 4 * 16 + b.toNat / 16) / 16) = a :=
        ofNat_of_eq (by omega)
      have second : UInt8.ofNat ((a.toNat % 4 * 16 + b.toNat / 16) % 16 * 16
          + b.toNat % 16 * 4 / 4) = b :=
        ofNat_of_eq (by omega)
      simp only [groups, bytes, first, second]
  | case4 a b c rest ih =>
      have := a.toNat_lt
      have := b.toNat_lt
      have := c.toNat_lt
      have first : UInt8.ofNat (a.toNat / 4 * 4 + (a.toNat % 4 * 16 + b.toNat / 16) / 16) = a :=
        ofNat_of_eq (by omega)
      have second : UInt8.ofNat ((a.toNat % 4 * 16 + b.toNat / 16) % 16 * 16
          + (b.toNat % 16 * 4 + c.toNat / 64) / 4) = b :=
        ofNat_of_eq (by omega)
      have third : UInt8.ofNat ((b.toNat % 16 * 4 + c.toNat / 64) % 4 * 64 + c.toNat % 64) = c :=
        ofNat_of_eq (by omega)
      simp only [groups, bytes, ih, Option.map_some, first, second, third]

/-- Letters are neither full stops nor ends of lines. -/
theorem encode_plain
    (bs : List UInt8) :
  ∀ c ∈ encode bs, c ≠ '.' ∧ c ≠ '\n' ∧ c ≠ '\r'
  := by
  rw [encode_eq]
  intro c mem
  obtain ⟨n, inside, rfl⟩ := List.mem_map.mp mem
  exact letter_plain (groups_short bs n inside)

/-- A text of bytes reads back as the bytes. -/
theorem decode_encode
    (bs : List UInt8) :
  decode (encode bs) = some bs
  := by
  have kept : (encode bs).filter (fun c => c ≠ '\n' && c ≠ '\r') = encode bs := by
    rw [List.filter_eq_self]
    intro c mem
    obtain ⟨-, line, feed⟩ := encode_plain bs c mem
    simp [line, feed]
  have read : ((groups bs).map letter).mapM bits = some (groups bs) := by
    have short := groups_short bs
    generalize groups bs = ns at short
    induction ns with
    | nil => rfl
    | cons n ns ih =>
        rw [List.forall_mem_cons] at short
        simp [List.mapM_cons, bits_letter short.1, ih short.2]
  rw [decode, kept, encode_eq, read]
  exact bytes_groups bs

end Base64

end Dagrail
