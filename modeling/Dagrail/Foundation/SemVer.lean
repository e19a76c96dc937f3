import Mathlib.Data.List.Basic
import Mathlib.Tactic.Linarith
import Mathlib.Tactic.Ring

/-!
# Semantic versions

The grammar of semantic versions and their precedence. A version is built from identifiers that
carry their own well-formedness; its text is what the grammar derives for it, and its precedence is
a total preorder that does not look at the build.
-/

namespace Dagrail.SemVer

open Std

/-- A character of an identifier: a letter, a digit or a hyphen. -/
def identifierChar (c : Char) : Bool :=
  c.isAlphanum || c = '-'

/-- A numeric identifier: digits, the first of them `0` only when it is alone. -/
structure Numeric where
  text : List Char
  some_ : text ≠ []
  digits : ∀ c ∈ text, c.isDigit = true
  leading : text.head? = some '0' → text.length = 1

/-- An alphanumeric identifier: characters of identifiers, one of them not a digit. -/
structure Alphanumeric where
  text : List Char
  allowed : ∀ c ∈ text, identifierChar c = true
  letter : ∃ c ∈ text, c.isDigit = false

/-- An identifier of a build: characters of identifiers. -/
structure Build where
  text : List Char
  some_ : text ≠ []
  allowed : ∀ c ∈ text, identifierChar c = true

/-- An identifier of a prerelease. -/
inductive PreRelease where
  | numeric (identifier : Numeric)
  | alphanumeric (identifier : Alphanumeric)

/-- The text of an identifier of a prerelease. -/
def PreRelease.text : PreRelease → List Char
  | numeric identifier => identifier.text
  | alphanumeric identifier => identifier.text

/-- A semantic version. -/
structure Version where
  major : Numeric
  minor : Numeric
  patch : Numeric
  prerelease : List PreRelease
  build : List Build

/-- Texts with a dot between them. -/
def dotted (texts : List (List Char)) : List Char :=
  ['.'].intercalate texts

/-- Dotted texts behind a sign, nothing when there are none. -/
def marked (sign : Char) (texts : List (List Char)) : List Char :=
  if texts = [] then [] else sign :: dotted texts

namespace Version

/-- The three numbers of a version. -/
def core (v : Version) : List Numeric :=
  [v.major, v.minor, v.patch]

/-- The text of the core. -/
def coreText (v : Version) : List Char :=
  dotted (v.core.map Numeric.text)

/-- The text that the grammar derives for a version. -/
def text (v : Version) : List Char :=
  v.coreText ++ marked '-' (v.prerelease.map PreRelease.text) ++ marked '+' (v.build.map Build.text)

end Version

/-- The number that digits write. -/
def value (digits : List Char) : Nat :=
  Nat.ofDigitChars 10 digits 0

/-- The precedence of identifiers: numeric ones by their numbers, below alphanumeric ones, which are
in lexical order. -/
def PreRelease.precedence : PreRelease → PreRelease → Ordering
  | numeric a, numeric b => compare (value a.text) (value b.text)
  | numeric _, alphanumeric _ => .lt
  | alphanumeric _, numeric _ => .gt
  | alphanumeric a, alphanumeric b => compare a.text b.text

/-- The precedence of prereleases: none is above all others, and a longer one is above those that
begin it. -/
def prereleasePrecedence : List PreRelease → List PreRelease → Ordering
  | [], [] => .eq
  | [], _ :: _ => .gt
  | _ :: _, [] => .lt
  | a :: as, b :: bs => List.compareLex PreRelease.precedence (a :: as) (b :: bs)

/-- The precedence of the core: the first of the three numbers that differs. -/
def corePrecedence : List Numeric → List Numeric → Ordering :=
  List.compareLex (compareOn fun n => value n.text)

/-- The precedence of versions. -/
def Version.precedence (v w : Version) : Ordering :=
  (corePrecedence v.core w.core).then (prereleasePrecedence v.prerelease w.prerelease)

section Preorder

instance : TransCmp PreRelease.precedence where
  eq_swap {a b} := by
    cases a <;> cases b <;> simp only [PreRelease.precedence, Ordering.swap_lt, Ordering.swap_gt]
    · exact OrientedOrd.eq_swap
    · exact OrientedOrd.eq_swap
  isLE_trans {a b c} hab hbc := by
    cases a <;> cases b <;> cases c <;> simp only [PreRelease.precedence, Ordering.isLE_lt,
      Ordering.isLE_gt, reduceCtorEq] at hab hbc ⊢
    · exact TransOrd.isLE_trans hab hbc
    · exact TransOrd.isLE_trans hab hbc

instance : TransCmp prereleasePrecedence where
  eq_swap {a b} := by
    cases a <;> cases b <;> simp only [prereleasePrecedence, Ordering.swap_lt, Ordering.swap_gt,
      Ordering.swap_eq]
    exact OrientedCmp.eq_swap
  isLE_trans {a b c} hab hbc := by
    cases a <;> cases b <;> cases c <;> simp only [prereleasePrecedence, Ordering.isLE_lt,
      Ordering.isLE_gt, Ordering.isLE_eq, reduceCtorEq] at hab hbc ⊢
    exact TransCmp.isLE_trans hab hbc

instance : TransCmp corePrecedence :=
  inferInstanceAs (TransCmp (List.compareLex _))

/-- What compares by a preorder of what it maps to is a preorder. -/
theorem transCmp_comap
    {α β : Type} (cmp : β → β → Ordering) [TransCmp cmp] (f : α → β) :
  TransCmp fun a b => cmp (f a) (f b)
  where
  eq_swap {a b} := (OrientedCmp.eq_swap : cmp (f a) (f b) = (cmp (f b) (f a)).swap)
  isLE_trans {a _ c} first second :=
    (TransCmp.isLE_trans first second : (cmp (f a) (f c)).isLE = true)

/-- Precedence is a total preorder. -/
instance : TransCmp Version.precedence :=
  have := transCmp_comap corePrecedence Version.core
  have := transCmp_comap prereleasePrecedence Version.prerelease
  inferInstanceAs (TransCmp (compareLex
    (fun v w : Version => corePrecedence v.core w.core)
    (fun v w : Version => prereleasePrecedence v.prerelease w.prerelease)))

end Preorder

section Numbers

variable {l r : List Char}

/-- The first digit counts for as many places as there are digits after it. -/
theorem ofDigitChars_eq
    (l : List Char) (n : Nat) :
  Nat.ofDigitChars 10 l n = n * 10 ^ l.length + value l
  := by
  induction l generalizing n with
  | nil => simp [value]
  | cons c rest ih =>
      rw [value, Nat.ofDigitChars_cons, Nat.ofDigitChars_cons, ih, ih (10 * 0 + _),
        List.length_cons, Nat.pow_succ]
      ring

theorem value_cons
    (c : Char) (l : List Char) :
  value (c :: l) = (c.toNat - '0'.toNat) * 10 ^ l.length + value l
  := by
  rw [value, Nat.ofDigitChars_cons, ofDigitChars_eq]
  simp

/-- A digit is at most nine. -/
theorem toNat_of_isDigit
    {c : Char} (digit : c.isDigit = true) :
  '0'.toNat ≤ c.toNat ∧ c.toNat - '0'.toNat ≤ 9
  := by
  simp only [Char.isDigit, Bool.and_eq_true, decide_eq_true_eq, ge_iff_le] at digit
  have low : '0'.toNat ≤ c.toNat := digit.1
  have high : c.toNat ≤ '9'.toNat := digit.2
  have nine : '9'.toNat = '0'.toNat + 9 := rfl
  omega

/-- A number is below the power of ten of its digits. -/
theorem value_lt
    (digits : ∀ c ∈ l, c.isDigit = true) :
  value l < 10 ^ l.length
  := by
  induction l with
  | nil => simp [value]
  | cons c rest ih =>
      have below := ih fun d mem => digits d (List.mem_cons_of_mem c mem)
      have nine := (toNat_of_isDigit (digits c List.mem_cons_self)).2
      rw [value_cons, List.length_cons, Nat.pow_succ]
      nlinarith

/-- Characters are in the order of their numbers. -/
theorem compare_of_toNat_lt
    {c d : Char} (less : c.toNat < d.toNat) :
  compare c d = .lt
  := by
  have smaller : c < d := less
  show compareOfLessAndEq c d = .lt
  simp [compareOfLessAndEq, smaller]

/-- Numbers of as many digits are in the lexical order of the digits. -/
theorem compare_value_of_length_eq
    (digits : ∀ c ∈ l, c.isDigit = true) (digits' : ∀ c ∈ r, c.isDigit = true)
    (same : l.length = r.length) :
  compare (value l) (value r) = compare l r
  := by
  induction l generalizing r with
  | nil =>
      obtain rfl := List.length_eq_zero_iff.mp same.symm
      rfl
  | cons c rest ih =>
      cases r with
      | nil => simp at same
      | cons d others =>
        have same' : rest.length = others.length := by simpa using same
        have below := value_lt fun e mem => digits e (List.mem_cons_of_mem c mem)
        have below' := value_lt fun e mem => digits' e (List.mem_cons_of_mem d mem)
        have low := (toNat_of_isDigit (digits c List.mem_cons_self)).1
        have low' := (toNat_of_isDigit (digits' d List.mem_cons_self)).1
        have later := ih (fun e mem => digits e (List.mem_cons_of_mem c mem))
          (fun e mem => digits' e (List.mem_cons_of_mem d mem)) same'
        rw [List.compare_cons_cons, value_cons, value_cons, ← later, same']
        rw [same'] at below
        have step : 1 ≤ 10 ^ others.length := Nat.one_le_pow _ _ (by norm_num)
        rcases Nat.lt_trichotomy c.toNat d.toNat with less | equal | greater
        · have first : compare c d = .lt := compare_of_toNat_lt less
          rw [first, Ordering.lt_then, Nat.compare_eq_lt]
          obtain ⟨k, hk⟩ : ∃ k, d.toNat - '0'.toNat = c.toNat - '0'.toNat + 1 + k :=
            ⟨d.toNat - '0'.toNat - (c.toNat - '0'.toNat + 1), by omega⟩
          rw [hk]
          nlinarith [Nat.zero_le (k * 10 ^ others.length)]
        · obtain rfl := Char.toNat_inj.mp equal
          rw [ReflOrd.compare_self, Ordering.eq_then]
          simp [Nat.compare_eq_ite_lt]
        · have first : compare c d = .gt := OrientedCmp.gt_of_lt (compare_of_toNat_lt greater)
          rw [first, Ordering.gt_then, Nat.compare_eq_gt]
          obtain ⟨k, hk⟩ : ∃ k, c.toNat - '0'.toNat = d.toNat - '0'.toNat + 1 + k :=
            ⟨c.toNat - '0'.toNat - (d.toNat - '0'.toNat + 1), by omega⟩
          rw [hk]
          nlinarith [Nat.zero_le (k * 10 ^ others.length)]

/-- The number of fewer digits is the smaller one. -/
theorem Numeric.value_lt_of_length_lt
    (n m : Numeric) (shorter : n.text.length < m.text.length) :
  value n.text < value m.text
  := by
  obtain ⟨c, rest, text⟩ := List.exists_cons_of_ne_nil m.some_
  have digit := toNat_of_isDigit (m.digits c (by simp [text]))
  have positive : c.toNat - '0'.toNat ≠ 0 := by
    intro zero
    have isZero : c = '0' := Char.toNat_inj.mp (by omega)
    have alone := m.leading (by simp [text, isZero])
    have some_ := List.length_pos_of_ne_nil n.some_
    omega
  have below := value_lt n.digits
  have few : n.text.length ≤ rest.length := by simpa [text, Nat.lt_succ_iff] using shorter
  have power : 10 ^ n.text.length ≤ 10 ^ rest.length := Nat.pow_le_pow_right (by norm_num) few
  rw [text, value_cons]
  have lead : 10 ^ rest.length ≤ (c.toNat - '0'.toNat) * 10 ^ rest.length :=
    Nat.le_mul_of_pos_left _ (Nat.pos_of_ne_zero positive)
  omega

/-- Numbers of any length are in order when their lengths are, and in the lexical order of the
digits when these are the same. -/
theorem Numeric.compare_value
    (n m : Numeric) :
  compare (value n.text) (value m.text)
    = (compare n.text.length m.text.length).then (compare n.text m.text)
  := by
  rcases Nat.lt_trichotomy n.text.length m.text.length with shorter | same | longer
  · rw [Nat.compare_eq_lt.mpr shorter, Ordering.lt_then, Nat.compare_eq_lt]
    exact n.value_lt_of_length_lt m shorter
  · rw [Nat.compare_eq_eq.mpr same, Ordering.eq_then]
    exact compare_value_of_length_eq n.digits m.digits same
  · rw [Nat.compare_eq_gt.mpr longer, Ordering.gt_then, Nat.compare_eq_gt]
    exact m.value_lt_of_length_lt n longer

end Numbers

end Dagrail.SemVer
