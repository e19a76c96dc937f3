/-!
# Texts

Small predicates on texts: white space, hexadecimal digests, and canonical UUIDs.
-/

namespace Dagrail

/-- White space as `strings.TrimSpace` understands it. -/
def isSpace (c : Char) : Bool :=
  [0x09, 0x0A, 0x0B, 0x0C, 0x0D, 0x20, 0x85, 0xA0, 0x1680, 0x2028, 0x2029, 0x202F, 0x205F,
    0x3000].contains c.toNat || (0x2000 ≤ c.toNat && c.toNat ≤ 0x200A)

/-- The text without white space at its ends. -/
def trimSpace (s : String) : String :=
  String.ofList (((s.toList.dropWhile isSpace).reverse.dropWhile isSpace).reverse)

/-- Nothing but white space. -/
def blank (s : String) : Bool :=
  s.toList.all isSpace

/-- A lowercase hexadecimal digit. -/
def isHexDigit (c : Char) : Bool :=
  (decide ('0' ≤ c) && decide (c ≤ '9')) || (decide ('a' ≤ c) && decide (c ≤ 'f'))

/-- Sixty-four lowercase hexadecimal digits. -/
def validBareHash (s : String) : Bool :=
  s.toList.length = 64 && s.toList.all isHexDigit

/-- The prefix of a digest. -/
def digestPrefix : String := "sha256:"

/-- A digest: the prefix and sixty-four lowercase hexadecimal digits. -/
def validDigest (s : String) : Bool :=
  s.toList.take 7 = digestPrefix.toList && validBareHash (String.ofList (s.toList.drop 7))

/-- A UUID in canonical form: lowercase groups of 8, 4, 4, 4 and 12 digits. -/
def canonicalUUID (s : String) : Bool :=
  s.toList.length = 36 && s.toList.zipIdx.all fun (c, i) =>
    if [8, 13, 18, 23].contains i then c = '-' else isHexDigit c

/-- A hash text: sixty-four lowercase hexadecimal digits. -/
structure Hex where
  text : String
  valid : validBareHash text = true

namespace Hex

/-- The hash as a digest. -/
def digest (h : Hex) : String :=
  digestPrefix ++ h.text

/-- The digest of a hash is a valid digest. -/
@[simp]
theorem validDigest_digest
    (h : Hex) :
  validDigest h.digest = true
  := by
  have seven : digestPrefix.toList.length = 7 := rfl
  simp [validDigest, digest, String.toList_append, ← seven, h.valid]

/-- A digest has something in it. -/
@[simp]
theorem digest_ne_empty
    (h : Hex) :
  h.digest ≠ ""
  := by
  intro empty
  have := congrArg String.toList empty
  simp [digest, digestPrefix] at this

/-- A hash text is not empty. -/
theorem text_ne_empty
    (h : Hex) :
  h.text ≠ ""
  := by
  intro empty
  have valid := h.valid
  rw [empty] at valid
  exact absurd valid (by decide)

/-- A hash is determined by its text. -/
theorem text_injective :
  Function.Injective text
  := by
  rintro ⟨s, _⟩ ⟨s', _⟩ same
  obtain rfl : s = s' := same
  rfl

/-- A hash is determined by its digest. -/
theorem digest_injective
    {h h' : Hex} (same : h.digest = h'.digest) :
  h = h'
  := by
  have texts := congrArg String.toList same
  simp only [digest, String.toList_append, List.append_cancel_left_eq] at texts
  apply text_injective
  exact String.toList_injective texts

/-- The hash of sixty-four zeros. -/
def zero : Hex :=
  ⟨String.ofList (List.replicate 64 '0'), by decide⟩

instance : Inhabited Hex := ⟨zero⟩

end Hex

end Dagrail
