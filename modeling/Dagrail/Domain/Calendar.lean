import Mathlib.Data.List.TakeWhile
import Mathlib.Tactic.Ring
import Mathlib.Tactic.SplitIfs
import Dagrail.Domain.Time

/-!
# The text of an instant

Every day has a civil date, and the date gives the day back. So the RFC 3339 text of an instant of
the years 0 to 9999 is read as that instant.
-/

namespace Dagrail

namespace Time

/-! ### Civil dates -/

/-- The year of its era a day is in: the day is at most a year after the year began, and a whole
year only when the next year is a leap year. -/
theorem yearOfEra_bounds
    {d y : Int} (low : 0 ≤ d) (high : d < 146097)
    (year : y = (d - d / 1460 + d / 36524 - d / 146096) / 365) :
  0 ≤ y ∧ y < 400 ∧ 365 * y + y / 4 - y / 100 ≤ d ∧ d ≤ 365 * y + y / 4 - y / 100 + 365
    ∧ (d = 365 * y + y / 4 - y / 100 + 365 → (y + 1) % 4 = 0 ∧ ((y + 1) % 100 ≠ 0 ∨ y = 399))
  := by
  by_cases last : d = 146096
  · subst last
    omega
  have noLast : d / 146096 = 0 := by omega
  -- the century, the four years in it, and the day in these
  obtain ⟨b, century⟩ : ∃ b, b = d / 36524 := ⟨_, rfl⟩
  obtain ⟨q, four⟩ : ∃ q, q = (d - 36524 * b) / 1461 := ⟨_, rfl⟩
  obtain ⟨t, day⟩ : ∃ t, t = d - 36524 * b - 1461 * q := ⟨_, rfl⟩
  have b_range : 0 ≤ b ∧ b ≤ 3 := by omega
  have q_range : 0 ≤ q ∧ q ≤ 24 := by omega
  have t_range : 0 ≤ t ∧ t ≤ 1460 := by omega
  have leapless : q = 24 → t ≤ 1459 := by omega
  have d_eq : d = 36524 * b + 1461 * q + t := by omega
  obtain ⟨e, inFour⟩ : ∃ e, e = (t - (24 * b + q + t) / 1460) / 365 := ⟨_, rfl⟩
  have days : d / 1460 = 25 * b + q + (24 * b + q + t) / 1460 := by
    clear year century four day
    omega
  have y_eq : y = 100 * b + 4 * q + e := by
    rw [year, days, ← century, noLast]
    clear century four day year days noLast
    omega
  have e_range : 0 ≤ e ∧ e ≤ 3 ∧ 365 * e ≤ t ∧ t ≤ 365 * e + 365 ∧ (t = 365 * e + 365 → e = 3) := by
    clear century four day year days noLast y_eq d_eq
    omega
  clear century four day year days noLast inFour
  have fours : y / 4 = 25 * b + q := by omega
  have hundreds : y / 100 = b := by omega
  omega

/-- A day of a year that begins in March is in the month the calendar finds for it. -/
theorem month_bounds
    {n m : Int} (low : 0 ≤ n) (high : n ≤ 365) (month : m = (5 * n + 2) / 153) :
  0 ≤ m ∧ m ≤ 11 ∧ (153 * m + 2) / 5 ≤ n ∧ n < (153 * (m + 1) + 2) / 5
  := by omega

/-- The last day of a month, in a year that is a leap year when the day is its 29th of February. -/
theorem day_le_daysInMonth
    {n m : Int} (year : Int) (low : 0 ≤ m) (high : m ≤ 11) (short : n ≤ 365)
    (next : n < (153 * (m + 1) + 2) / 5)
    (leap : m = 11 → n = 365 → year % 4 = 0 ∧ (year % 100 ≠ 0 ∨ year % 400 = 0)) :
  n - (153 * m + 2) / 5 + 1 ≤ daysInMonth year (if m < 10 then m + 3 else m - 9)
  := by
  unfold daysInMonth
  by_cases february : m = 11
  · subst february
    simp only [show ¬ (11 : Int) < 10 by decide, if_false]
    by_cases full : n = 365
    · have isLeap := leap rfl full
      simp [isLeap]
      omega
    · split_ifs <;> omega
  · have cases : m = 0 ∨ m = 1 ∨ m = 2 ∨ m = 3 ∨ m = 4 ∨ m = 5 ∨ m = 6 ∨ m = 7 ∨ m = 8 ∨ m = 9 ∨
        m = 10 := by omega
    clear leap
    rcases cases with rfl | rfl | rfl | rfl | rfl | rfl | rfl | rfl | rfl | rfl | rfl <;>
      simp at next ⊢ <;> omega

/-- Every day has a civil date. -/
theorem civilOfDays_spec
    {days year month day : Int} (civil : civilOfDays days = (year, month, day)) :
  daysOfCivil year month day = days ∧ 1 ≤ month ∧ month ≤ 12 ∧ 1 ≤ day ∧
    day ≤ daysInMonth year month
  := by
  unfold civilOfDays at civil
  simp only [Prod.mk.injEq] at civil
  obtain ⟨z, hz⟩ : ∃ z, z = days + 719468 := ⟨_, rfl⟩
  rw [← hz] at civil
  obtain ⟨era, hera⟩ : ∃ era, era = z / 146097 := ⟨_, rfl⟩
  rw [← hera] at civil
  obtain ⟨d, hd⟩ : ∃ d, d = z - era * 146097 := ⟨_, rfl⟩
  rw [← hd] at civil
  obtain ⟨y, hy⟩ : ∃ y, y = (d - d / 1460 + d / 36524 - d / 146096) / 365 := ⟨_, rfl⟩
  rw [← hy] at civil
  obtain ⟨n, hn⟩ : ∃ n, n = d - (365 * y + y / 4 - y / 100) := ⟨_, rfl⟩
  rw [← hn] at civil
  obtain ⟨m, hm⟩ : ∃ m, m = (5 * n + 2) / 153 := ⟨_, rfl⟩
  rw [← hm] at civil
  obtain ⟨y_low, y_high, start, stop, leap⟩ := yearOfEra_bounds (by omega) (by omega) hy
  obtain ⟨m_low, m_high, first, next⟩ := month_bounds (n := n) (by omega) (by omega) hm
  clear hy hm
  obtain ⟨year_eq, month_eq, day_eq⟩ := civil
  have month_low : (if m < 10 then m + 3 else m - 9) ≤ 2 ↔ 10 ≤ m := by split_ifs <;> omega
  have inMonth := day_le_daysInMonth (n := n) year m_low m_high (by omega) next (by
    intro isFeb isLast
    have nextYear : year = y + era * 400 + 1 := by
      rw [← year_eq, if_pos (month_low.mpr (by omega))]
    have := leap (by omega)
    omega)
  refine ⟨?_, ?_, ?_, by omega, ?_⟩
  · rw [month_eq] at month_low year_eq
    unfold daysOfCivil
    have back : (if month ≤ 2 then year - 1 else year) = y + era * 400 := by
      split_ifs at year_eq ⊢ <;> omega
    have shift : (if month > 2 then month - 3 else month + 9) = m := by
      split_ifs at month_eq ⊢ <;> omega
    simp only [back, shift]
    have sameEra : (y + era * 400) / 400 = era := by omega
    rw [sameEra]
    have inEra : y + era * 400 - era * 400 = y := by omega
    rw [inEra]
    omega
  · split_ifs at month_eq <;> omega
  · split_ifs at month_eq <;> omega
  · rw [month_eq, day_eq] at inMonth
    exact inMonth

/-- The year of a day of the years 0 to 9999. -/
theorem year_bounds
    {days year month day : Int} (civil : civilOfDays days = (year, month, day))
    (low : -719528 ≤ days) (high : days < 2932897) :
  0 ≤ year ∧ year < 10000
  := by
  obtain ⟨back, month_low, month_high, day_low, inMonth⟩ := civilOfDays_spec civil
  have day_high : day ≤ 31 := by
    unfold daysInMonth at inMonth
    split_ifs at inMonth <;> omega
  unfold daysOfCivil at back
  clear inMonth
  have leaps : ∀ y : Int, 0 ≤ y → y < 400 →
      0 ≤ y / 4 - y / 100 ∧ y / 4 - y / 100 ≤ 96 := by
    intro y _ _
    have centuries : y / 100 = 0 ∨ y / 100 = 1 ∨ y / 100 = 2 ∨ y / 100 = 3 := by omega
    rcases centuries with h | h | h | h <;> omega
  by_cases winter : month ≤ 2
  · simp only [winter, if_true, show ¬ month > 2 by omega, if_false] at back
    have := leaps (year - 1 - (year - 1) / 400 * 400) (by omega) (by omega)
    omega
  · simp only [winter, if_false, show month > 2 by omega, if_true] at back
    have := leaps (year - year / 400 * 400) (by omega) (by omega)
    have march : (153 * (month - 3) + 2) / 5 ≤ 275 ∧ 0 ≤ (153 * (month - 3) + 2) / 5 := by omega
    have era : 0 ≤ year ∨ year / 400 ≤ -1 := by omega
    have after : year < 10000 ∨ 25 ≤ year / 400 := by omega
    omega

/-! ### Decimal digits -/

/-- A digit reads back. -/
theorem digit_ofNat
    {k : Int} (low : 0 ≤ k) (high : k < 10) :
  digit (Char.ofNat (48 + k.toNat)) = some k
  := by
  have cases : k = 0 ∨ k = 1 ∨ k = 2 ∨ k = 3 ∨ k = 4 ∨ k = 5 ∨ k = 6 ∨ k = 7 ∨ k = 8 ∨ k = 9 := by
    omega
  rcases cases with rfl | rfl | rfl | rfl | rfl | rfl | rfl | rfl | rfl | rfl <;> decide

/-- One digit more is read. -/
theorem digits_succ
    {n : Nat} {acc a d : Int} {cs rest : List Char} {c : Char}
    (read : digits n acc cs = some (a, c :: rest)) (last : digit c = some d) :
  digits (n + 1) acc cs = some (10 * a + d, rest)
  := by
  induction n generalizing acc cs with
  | zero =>
      simp only [digits, Option.some.injEq, Prod.mk.injEq] at read
      obtain ⟨rfl, rfl⟩ := read
      simp [digits, last]
  | succ n ih =>
      cases cs with
      | nil => simp [digits] at read
      | cons c' cs =>
          simp only [digits, Option.bind_eq_some_iff] at read
          obtain ⟨d', first, read⟩ := read
          rw [digits, first]
          exact ih read

/-- The digits of a number read back. -/
theorem digits_pad
    (n : Nat) {v : Int} (rest : List Char) (low : 0 ≤ v) (high : v < 10 ^ n) :
  digits n 0 (pad n v ++ rest) = some (v, rest)
  := by
  induction n generalizing v rest with
  | zero =>
      have zero : v = 0 := by
        rw [pow_zero] at high
        omega
      rw [zero]
      rfl
  | succ n ih =>
      rw [pow_succ] at high
      have front := ih (v := v / 10) (Char.ofNat (48 + (v % 10).toNat) :: rest) (by omega)
        (by omega)
      have back := digits_succ front (digit_ofNat (k := v % 10) (by omega) (by omega))
      rw [pad, List.append_assoc, List.singleton_append, back]
      congr 2
      omega

/-! ### Fractions -/

/-- The digits of a number are read as a fraction. -/
theorem fraction_pad
    (n m : Nat) {v : Int} (acc : Int) (rest : List Char) (low : 0 ≤ v) (high : v < 10 ^ (n + 1)) :
  fraction (10 ^ (n + m)) acc (pad (n + 1) v ++ rest) =
    fraction (10 ^ m / 10) (acc + v * 10 ^ m) rest
  := by
  induction n generalizing v m rest with
  | zero =>
      have small : v % 10 = v := by
        rw [zero_add, pow_one] at high
        omega
      have read := digit_ofNat (k := v % 10) (by omega) (by omega)
      simp only [pad, List.nil_append, List.singleton_append, zero_add, fraction, read]
      rw [small]
      norm_num
  | succ n ih =>
      rw [pow_succ] at high
      have front := ih (m + 1) (v := v / 10) (Char.ofNat (48 + (v % 10).toNat) :: rest) (by omega)
        (by omega)
      have read := digit_ofNat (k := v % 10) (by omega) (by omega)
      rw [pad, List.append_assoc, List.singleton_append, show n + 1 + m = n + (m + 1) by omega,
        front, fraction, read]
      have scale : 10 ^ (m + 1) / 10 = 10 ^ m := by
        rw [pow_succ, Nat.mul_div_cancel _ (by decide)]
      simp only [scale]
      congr 1
      push_cast
      rw [pow_succ]
      have split : v = v / 10 * 10 + v % 10 := by omega
      generalize v / 10 = a at split ⊢
      generalize v % 10 = b at split ⊢
      rw [split]
      ring

/-- The zeros that end a fraction say nothing. -/
theorem fraction_zeros
    (scale : Nat) (acc : Int) (k : Nat) (rest : List Char)
    (stop : ∀ scale acc, fraction scale acc rest = (acc, rest)) :
  fraction scale acc (List.replicate k '0' ++ rest) = (acc, rest)
  := by
  induction k generalizing scale acc with
  | zero => exact stop scale acc
  | succ k ih =>
      have zero : digit '0' = some 0 := by decide
      simp only [List.replicate_succ, List.cons_append, fraction, zero]
      rw [ih]
      simp

/-- Reading a fraction without the zeros that end it. -/
theorem fraction_append_zeros
    (scale : Nat) (acc : Int) (k : Nat) (ds rest : List Char)
    (digital : ∀ c ∈ ds, (digit c).isSome)
    (stop : ∀ scale acc, fraction scale acc rest = (acc, rest)) :
  fraction scale acc (ds ++ (List.replicate k '0' ++ rest)) = fraction scale acc (ds ++ rest)
  := by
  induction ds generalizing scale acc with
  | nil =>
      rw [List.nil_append, List.nil_append, fraction_zeros scale acc k rest stop, stop]
  | cons c ds ih =>
      rw [List.forall_mem_cons, Option.isSome_iff_exists] at digital
      obtain ⟨⟨d, read⟩, rest_digital⟩ := digital
      simp only [List.cons_append, fraction, read]
      exact ih _ _ rest_digital

/-- The digits of a number are digits. -/
theorem digital_pad
    (n : Nat) {v : Int} (low : 0 ≤ v) :
  ∀ c ∈ pad n v, (digit c).isSome
  := by
  induction n generalizing v with
  | zero => simp [pad]
  | succ n ih =>
      intro c mem
      rw [pad, List.mem_append, List.mem_singleton] at mem
      rcases mem with mem | rfl
      · exact ih (by omega) c mem
      · rw [digit_ofNat (k := v % 10) (by omega) (by omega)]
        rfl

/-- The fraction of a second reads back. -/
theorem fractionField_trim
    {nanos : Int} (low : 0 ≤ nanos) (high : nanos < 1000000000) :
  fractionField (trimFraction nanos ++ ['Z']) = (nanos, ['Z'])
  := by
  have stop : ∀ scale acc, fraction scale acc ['Z'] = (acc, ['Z']) := by
    intro scale acc
    simp [fraction, show digit 'Z' = none by decide]
  have whole : fraction 100000000 0 (pad 9 nanos ++ ['Z']) = (nanos, ['Z']) := by
    have read := fraction_pad 8 0 0 ['Z'] low (by omega)
    simp only [Nat.add_zero, pow_zero, mul_one, zero_add] at read
    rw [show 100000000 = 10 ^ 8 by norm_num, read, stop]
  obtain ⟨k, cut⟩ : ∃ k, pad 9 nanos =
      ((pad 9 nanos).reverse.dropWhile (· = '0')).reverse ++ List.replicate k '0' := by
    refine ⟨((pad 9 nanos).reverse.takeWhile (· = '0')).length, ?_⟩
    have zeros : (pad 9 nanos).reverse.takeWhile (· = '0') =
        List.replicate ((pad 9 nanos).reverse.takeWhile (· = '0')).length '0' := by
      rw [List.eq_replicate_iff]
      refine ⟨rfl, fun c mem => ?_⟩
      simpa using List.mem_takeWhile_imp mem
    rw [← List.reverse_replicate, ← zeros, ← List.reverse_append, List.takeWhile_append_dropWhile,
      List.reverse_reverse]
  have digital := digital_pad 9 low
  unfold trimFraction
  generalize ((pad 9 nanos).reverse.dropWhile (· = '0')).reverse = kept at cut ⊢
  rw [cut, List.append_assoc] at whole
  cases kept with
  | nil =>
      rw [List.nil_append, fraction_zeros _ _ _ _ stop] at whole
      obtain ⟨rfl, -⟩ := Prod.mk.injEq .. ▸ whole
      rfl
  | cons c kept =>
      have kept_digital : ∀ x ∈ c :: kept, (digit x).isSome := by
        intro x mem
        apply digital
        rw [cut]
        exact List.mem_append_left _ mem
      rw [fraction_append_zeros _ _ _ _ _ kept_digital stop] at whole
      simpa [fractionField, kept_digital c (List.mem_cons_self ..)] using whole

/-! ### Instants -/

/-- The text of an instant reads back. -/
theorem parseZoned_formatZoned
    {t : Int} (years : representable t = true) :
  parseZoned (formatZoned t 0) = some (t, 0)
  := by
  simp only [representable, decide_eq_true_eq] at years
  have early : (-62167219200000000000 : Int) ≤ t := years.1
  have late : t < (253402300800000000000 : Int) := years.2
  obtain ⟨seconds, seconds_eq⟩ : ∃ seconds : Int, seconds = t / 1000000000 := ⟨_, rfl⟩
  obtain ⟨ofDay, ofDay_eq⟩ : ∃ ofDay : Int, ofDay = seconds % 86400 := ⟨_, rfl⟩
  obtain ⟨year, month, day, civil⟩ : ∃ year month day,
      civilOfDays (seconds / 86400) = (year, month, day) := ⟨_, _, _, rfl⟩
  obtain ⟨days, month_low, month_high, day_low, inMonth⟩ := civilOfDays_spec civil
  obtain ⟨year_low, year_high⟩ := year_bounds civil (by omega) (by omega)
  have day_high : day ≤ 31 := by
    have long := inMonth
    unfold daysInMonth at long
    split_ifs at long <;> omega
  have written : formatZoned t 0 = String.ofList (pad 4 year ++ ('-' :: (pad 2 month ++ ('-' ::
      (pad 2 day ++ ('T' :: (pad 2 (ofDay / 3600) ++ (':' :: (pad 2 (ofDay / 60 % 60) ++ (':' ::
      (pad 2 (ofDay % 60) ++ (trimFraction (t % 1000000000) ++ ['Z'])))))))))))) := by
    simp only [formatZoned, zero_mul, add_zero, ← seconds_eq, ← ofDay_eq, civil, if_true,
      List.append_assoc, List.cons_append, List.nil_append]
  have hour := digits_pad 2 (v := ofDay / 3600) (':' :: (pad 2 (ofDay / 60 % 60) ++ (':' ::
      (pad 2 (ofDay % 60) ++ (trimFraction (t % 1000000000) ++ ['Z']))))) (by omega)
      (by norm_num; omega)
  rw [written, parseZoned, String.toList_ofList,
    digits_pad 4 _ year_low (by norm_num; omega), Option.bind_some]
  simp only [expect, if_true, Option.bind_some]
  rw [digits_pad 2 _ (by omega) (by norm_num; omega), Option.bind_some]
  simp only [if_true, Option.bind_some]
  rw [digits_pad 2 _ (by omega) (by norm_num; omega), Option.bind_some]
  simp only [if_true, Option.bind_some, hourField, hour]
  rw [digits_pad 2 _ (by omega) (by norm_num; omega), Option.bind_some]
  simp only [if_true, Option.bind_some]
  rw [digits_pad 2 _ (by omega) (by norm_num; omega), Option.bind_some]
  rw [fractionField_trim (by omega) (by omega)]
  simp only [zoneField, Option.bind_some]
  rw [if_pos ⟨month_low, month_high, day_low, inMonth, by omega, by omega, by omega⟩, days]
  have whole : (seconds / 86400 * 86400 + ofDay / 3600 * 3600 + ofDay / 60 % 60 * 60
      + ofDay % 60 - 0) * 1000000000 + t % 1000000000 = t := by omega
  rw [whole]

end Time

namespace Stamp

/-- A writer's timestamp reads back from its text. -/
theorem ofText_format
    {t : Instant} (years : Time.representable t = true) :
  ofText (Time.formatZoned t 0) = .utc t
  := by
  simp [ofText, Time.parseZoned_formatZoned years]

end Stamp

end Dagrail
