/-!
# Instants and timestamp texts

An instant is a number of nanoseconds since the Unix epoch. A timestamp field of a record is the
RFC 3339 text of an instant. The writers of this program always store an instant formatted in
UTC, so such a field is kept as the instant itself. A field that comes from outside is kept as
its text when that is not the UTC text of an instant.
-/

namespace Dagrail

/-- Nanoseconds since the Unix epoch. -/
abbrev Instant := Int

/-- A duration in nanoseconds. -/
abbrev Duration := Int

namespace Duration

/-- One second. -/
def second : Duration := 1000000000

/-- One minute. -/
def minute : Duration := 60 * second

/-- One hour. -/
def hour : Duration := 60 * minute

end Duration

namespace Time

/-! ### The civil calendar -/

/-- Days since the epoch of a civil date (proleptic Gregorian calendar). -/
def daysOfCivil (year month day : Int) : Int :=
  let y := if month ≤ 2 then year - 1 else year
  let era := y / 400
  let yearOfEra := y - era * 400
  let shifted := if month > 2 then month - 3 else month + 9
  let dayOfYear := (153 * shifted + 2) / 5 + day - 1
  let dayOfEra := yearOfEra * 365 + yearOfEra / 4 - yearOfEra / 100 + dayOfYear
  era * 146097 + dayOfEra - 719468

/-- The civil date (year, month, day) of a day count. -/
def civilOfDays (days : Int) : Int × Int × Int :=
  let z := days + 719468
  let era := z / 146097
  let dayOfEra := z - era * 146097
  let yearOfEra := (dayOfEra - dayOfEra / 1460 + dayOfEra / 36524 - dayOfEra / 146096) / 365
  let dayOfYear := dayOfEra - (365 * yearOfEra + yearOfEra / 4 - yearOfEra / 100)
  let shifted := (5 * dayOfYear + 2) / 153
  let day := dayOfYear - (153 * shifted + 2) / 5 + 1
  let month := if shifted < 10 then shifted + 3 else shifted - 9
  let year := yearOfEra + era * 400
  (if month ≤ 2 then year + 1 else year, month, day)

/-- Length of a month. -/
def daysInMonth (year month : Int) : Int :=
  if month = 2 then
    if year % 4 = 0 ∧ (year % 100 ≠ 0 ∨ year % 400 = 0) then 29 else 28
  else if month = 4 ∨ month = 6 ∨ month = 9 ∨ month = 11 then 30 else 31

/-! ### Reading an RFC 3339 text -/

/-- The value of a decimal digit. -/
def digit (c : Char) : Option Int :=
  if '0' ≤ c ∧ c ≤ '9' then some (c.toNat - 48) else none

/-- Exactly `n` decimal digits, and the rest of the text. -/
def digits : Nat → Int → List Char → Option (Int × List Char)
  | 0, acc, rest => some (acc, rest)
  | n + 1, acc, c :: rest => (digit c).bind fun d => digits n (10 * acc + d) rest
  | _ + 1, _, [] => none

/-- One expected character. -/
def expect (c : Char) : List Char → Option (List Char)
  | d :: rest => if d = c then some rest else none
  | [] => none

/-- The hour, which may be written with one digit. -/
def hourField (cs : List Char) : Option (Int × List Char) :=
  match digits 2 0 cs with
  | some r => some r
  | none => digits 1 0 cs

/-- The leading digits of a fraction as nanoseconds; digits past the ninth are dropped. -/
def fraction : Nat → Int → List Char → Int × List Char
  | scale, acc, c :: rest =>
      match digit c with
      | some d => fraction (scale / 10) (acc + d * scale) rest
      | none => (acc, c :: rest)
  | _, acc, [] => (acc, [])

/-- An optional fraction of a second, after a point or a comma. -/
def fractionField (cs : List Char) : Int × List Char :=
  match cs with
  | s :: d :: rest =>
      if (s = '.' ∨ s = ',') ∧ (digit d).isSome then fraction 100000000 0 (d :: rest) else (0, cs)
  | _ => (0, cs)

/-- The zone offset in seconds: `Z` or a signed hour and minute. -/
def zoneField (cs : List Char) : Option Int :=
  match cs with
  | ['Z'] => some 0
  | sign :: rest =>
      (digits 2 0 rest).bind fun (h, rest) =>
        (expect ':' rest).bind fun rest =>
          (digits 2 0 rest).bind fun (m, rest) =>
            if rest = [] ∧ h ≤ 24 ∧ m ≤ 60 then
              if sign = '+' then some (h * 3600 + m * 60)
              else if sign = '-' then some (-(h * 3600 + m * 60))
              else none
            else none
  | [] => none

/-- The instant and the zone offset of an RFC 3339 text, if it is one. -/
def parseZoned (text : String) : Option (Instant × Int) :=
  (digits 4 0 text.toList).bind fun (year, cs) =>
    (expect '-' cs).bind fun cs => (digits 2 0 cs).bind fun (month, cs) =>
      (expect '-' cs).bind fun cs => (digits 2 0 cs).bind fun (day, cs) =>
        (expect 'T' cs).bind fun cs => (hourField cs).bind fun (hh, cs) =>
          (expect ':' cs).bind fun cs => (digits 2 0 cs).bind fun (mm, cs) =>
            (expect ':' cs).bind fun cs => (digits 2 0 cs).bind fun (ss, cs) =>
              let (nanos, cs) := fractionField cs
              (zoneField cs).bind fun offset =>
                if 1 ≤ month ∧ month ≤ 12 ∧ 1 ≤ day ∧ day ≤ daysInMonth year month
                    ∧ hh < 24 ∧ mm < 60 ∧ ss < 60 then
                  some (((daysOfCivil year month day * 86400 + hh * 3600 + mm * 60 + ss - offset)
                    * 1000000000 + nanos), offset)
                else none

/-! ### Writing an RFC 3339 text -/

/-- The last `n` decimal digits of a number. -/
def pad : Nat → Int → List Char
  | 0, _ => []
  | n + 1, v => pad n (v / 10) ++ [Char.ofNat (48 + (v % 10).toNat)]

/-- Drop the zeros that end a fraction, and the point of an empty one. -/
def trimFraction (nanos : Int) : List Char :=
  match ((pad 9 nanos).reverse.dropWhile (· = '0')).reverse with
  | [] => []
  | cs => '.' :: cs

/-- The RFC 3339 text of an instant in a zone. -/
def formatZoned (t : Instant) (offset : Int) : String :=
  let localNanos := t + offset * 1000000000
  let seconds := localNanos / 1000000000
  let (year, month, day) := civilOfDays (seconds / 86400)
  let ofDay := seconds % 86400
  let zone :=
    if offset = 0 then ['Z']
    else
      let m := if offset < 0 then -offset / 60 else offset / 60
      (if offset < 0 then '-' else '+') :: pad 2 (m / 60) ++ [':'] ++ pad 2 (m % 60)
  String.ofList (pad 4 year ++ ['-'] ++ pad 2 month ++ ['-'] ++ pad 2 day ++ ['T']
    ++ pad 2 (ofDay / 3600) ++ [':'] ++ pad 2 (ofDay / 60 % 60) ++ [':'] ++ pad 2 (ofDay % 60)
    ++ trimFraction (localNanos % 1000000000) ++ zone)

/-- Is the year of the instant one that an RFC 3339 text can carry? -/
def representable (t : Instant) : Bool :=
  decide (-62167219200000000000 ≤ t ∧ t < 253402300800000000000)

end Time

/-- A timestamp field of a record. -/
inductive Stamp where
  /-- Any text that is not the UTC text of an instant, the empty text included. -/
  | text (s : String)
  /-- The UTC text of an instant. -/
  | utc (t : Instant)
deriving DecidableEq

namespace Stamp

instance : Inhabited Stamp := ⟨.text ""⟩

/-- The absent timestamp. -/
def unset : Stamp := .text ""

/-- The field read from a text. -/
def ofText (s : String) : Stamp :=
  match Time.parseZoned s with
  | some (t, 0) => if Time.formatZoned t 0 = s then .utc t else .text s
  | _ => .text s

/-- The instant and zone offset the text of the field parses to, if any. -/
def parseZoned : Stamp → Option (Instant × Int)
  | .text s => Time.parseZoned s
  | .utc t => if Time.representable t then some (t, 0) else none

/-- The instant the text of the field parses to, if any. -/
def parse (s : Stamp) : Option Instant :=
  s.parseZoned.map Prod.fst

/-- The field `d` later, formatted in the zone of the given one. -/
def plus (s : Stamp) (d : Duration) : Option Stamp :=
  s.parseZoned.map fun (t, offset) =>
    if offset = 0 then .utc (t + d) else ofText (Time.formatZoned (t + d) offset)

/-- A writer's timestamp parses back to its instant. -/
theorem parse_utc
    {t : Instant} (h : Time.representable t = true) :
  parse (.utc t) = some t
  := by
  simp [parse, parseZoned, h]

end Stamp

example : Stamp.ofText "2026-01-02T03:04:05.25Z" = .utc 1767323045250000000 := by decide

end Dagrail
