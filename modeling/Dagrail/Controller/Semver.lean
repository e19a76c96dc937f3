import Dagrail.Foundation.SemVer
import Mathlib.Data.Set.List

/-!
# Versions of the controller

How the controller reads and compares versions before one of them replaces another
(`internal/controller/semver.go`): the reader accepts semantic versions, with a `v` in front or
without one, whose numbers fit into 64 bits, and the comparison is their precedence.
-/

namespace Dagrail.Controller

open SemVer

/-- A version as it is read: three numbers and the identifiers of the prerelease. -/
structure SemanticVersion where
  core : List Nat
  prerelease : List (List Char)

/-- Nothing but digits. -/
def numericIdentifier (value : List Char) : Bool :=
  value.all fun c => !(decide (c < '0') || decide ('9' < c))

/-- A digit, a letter or a hyphen. -/
def identifierCharacter (c : Char) : Bool :=
  (decide ('0' ≤ c) && decide (c ≤ '9')) || (decide ('A' ≤ c) && decide (c ≤ 'Z')) ||
    (decide ('a' ≤ c) && decide (c ≤ 'z')) || c == '-'

/-- A zero in front of other characters. -/
def leadingZero (identifier : List Char) : Bool :=
  decide (1 < identifier.length) && identifier.head? == some '0'

/-- Identifiers with dots between them, numeric ones of a prerelease without a leading zero. -/
def validIdentifiers (value : List Char) (prerelease : Bool) : Bool :=
  !value.isEmpty && (value.splitOn '.').all fun identifier =>
    !(identifier.isEmpty || (prerelease && numericIdentifier identifier && leadingZero identifier))
      && identifier.all identifierCharacter

/-- The value without a `v` in front. -/
def trimV (value : List Char) : List Char :=
  if value.head? = some 'v' then value.tail else value

/-- The value in front of a build, which has to be valid. -/
def cutBuild (value : List Char) : Option (List Char) :=
  match value.idxOf? '+' with
  | some build =>
      if validIdentifiers (value.drop (build + 1)) false then some (value.take build) else none
  | none => some value

/-- The value in front of a prerelease, which has to be valid, and the identifiers of this. -/
def cutPrerelease (value : List Char) : Option (List Char × List (List Char)) :=
  match value.idxOf? '-' with
  | some dash =>
      if validIdentifiers (value.drop (dash + 1)) true then
        some (value.take dash, (value.drop (dash + 1)).splitOn '.')
      else none
  | none => some (value, [])

/-- `strconv.ParseUint` for decimals of 64 bits. -/
def parseUint (identifier : List Char) : Option Nat :=
  if identifier ≠ [] ∧ identifier.all Char.isDigit ∧ value identifier < 2 ^ 64 then
    some (value identifier)
  else none

/-- A number of the core, without a leading zero. -/
def coreNumber (identifier : List Char) : Option Nat :=
  if identifier.isEmpty || leadingZero identifier then none else parseUint identifier

/-- The three numbers of the core. -/
def parseCore (value : List Char) : Option (List Nat) :=
  if (value.splitOn '.').length ≠ 3 then none else (value.splitOn '.').mapM coreNumber

/-- Read a version. -/
def parseSemanticVersion (text : String) : Option SemanticVersion :=
  (cutBuild (trimV text.toList)).bind fun value =>
    (cutPrerelease value).bind fun cut =>
      (parseCore cut.1).map fun core => { core, prerelease := cut.2 }

/-- An ordering as the number that comparisons answer. -/
def sign : Ordering → Int
  | .lt => -1
  | .eq => 0
  | .gt => 1

/-- `strings.Compare`. -/
def stringsCompare (left right : List Char) : Int :=
  sign (compare left right)

/-- Compare two numbers. -/
def compareNumber (left right : Nat) : Int :=
  if left < right then -1 else if right < left then 1 else 0

/-- Compare two identifiers of prereleases. -/
def comparePrereleaseIdentifier (left right : List Char) : Int :=
  if numericIdentifier left && numericIdentifier right then
    if left.length < right.length then -1
    else if right.length < left.length then 1
    else stringsCompare left right
  else if numericIdentifier left then -1
  else if numericIdentifier right then 1
  else stringsCompare left right

/-- The first comparison that is not zero, over the places that both lists have. -/
def firstDifference {α : Type} (comparison : α → α → Int) : List α → List α → Int
  | a :: as, b :: bs =>
      if comparison a b ≠ 0 then comparison a b else firstDifference comparison as bs
  | _, _ => 0

/-- Compare two versions that were read. -/
def compareParsed (a b : SemanticVersion) : Int :=
  let core := firstDifference compareNumber a.core b.core
  if core ≠ 0 then core
  else if a.prerelease.length = 0 ∧ b.prerelease.length = 0 then 0
  else if a.prerelease.length = 0 then 1
  else if b.prerelease.length = 0 then -1
  else
    let identifiers := firstDifference comparePrereleaseIdentifier a.prerelease b.prerelease
    if identifiers ≠ 0 then identifiers
    else compareNumber a.prerelease.length b.prerelease.length

/-- Compare two versions: the comparison, and whether both were accepted. -/
def compareSemanticVersions (left right : String) : Int × Bool :=
  match parseSemanticVersion left with
  | none => (0, false)
  | some a =>
      match parseSemanticVersion right with
      | none => (0, false)
      | some b => (compareParsed a b, true)

/-- The reader accepts a text. -/
def accepts (text : String) : Bool :=
  (parseSemanticVersion text).isSome

section Words

/-- The numeric identifiers are the ones of digits. -/
theorem numericIdentifier_iff
    {t : List Char} :
  numericIdentifier t = true ↔ ∀ c ∈ t, c.isDigit = true
  := by
  simp only [numericIdentifier, List.all_eq_true, Bool.not_or, Bool.and_eq_true, Bool.not_eq_true',
    decide_eq_false_iff_not, Char.not_lt, Char.isDigit, decide_eq_true_eq]
  exact Iff.rfl

/-- The reader knows the characters of identifiers. -/
theorem identifierCharacter_eq
    (c : Char) :
  identifierCharacter c = identifierChar c
  := by
  have upper : c.isUpper = decide ('A' ≤ c ∧ c ≤ 'Z') := rfl
  have lower : c.isLower = (decide ('a' ≤ c) && decide (c ≤ 'z')) := rfl
  have digit : c.isDigit = (decide ('0' ≤ c) && decide (c ≤ '9')) := rfl
  have whole : c.isAlphanum = (c.isUpper || c.isLower || c.isDigit) := rfl
  rw [identifierCharacter, identifierChar, whole, upper, lower, digit]
  rw [Bool.eq_iff_iff]
  simp only [Bool.or_eq_true, Bool.and_eq_true, decide_eq_true_eq, beq_iff_eq]
  tauto

/-- An identifier is an identifier of a build exactly when it has allowed characters only. -/
theorem exists_build_iff
    {t : List Char} :
  (∃ b : Build, b.text = t) ↔ t ≠ [] ∧ t.all identifierCharacter = true
  := by
  simp only [List.all_eq_true, identifierCharacter_eq]
  constructor
  · rintro ⟨b, rfl⟩
    exact ⟨b.some_, b.allowed⟩
  · intro ⟨some_, allowed⟩
    exact ⟨⟨t, some_, allowed⟩, rfl⟩

/-- No leading zero: the zero is alone. -/
theorem leadingZero_eq_false_iff
    {t : List Char} (some_ : t ≠ []) :
  leadingZero t = false ↔ (t.head? = some '0' → t.length = 1)
  := by
  have positive := List.length_pos_of_ne_nil some_
  simp only [leadingZero, Bool.and_eq_false_iff, decide_eq_false_iff_not, beq_eq_false_iff_ne]
  constructor
  · rintro (short | other) zero
    · omega
    · exact absurd zero other
  · intro alone
    by_cases zero : t.head? = some '0'
    · exact Or.inl (by rw [alone zero]; omega)
    · exact Or.inr zero

/-- A digit is a character of identifiers. -/
theorem identifierChar_of_isDigit
    {c : Char} (digit : c.isDigit = true) :
  identifierChar c = true
  := by
  simp [identifierChar, Char.isAlphanum, digit]

/-- An identifier with a letter is not numeric. -/
theorem numericIdentifier_alphanumeric
    (a : Alphanumeric) :
  numericIdentifier a.text = false
  := by
  obtain ⟨c, mem, letter⟩ := a.letter
  rw [← Bool.not_eq_true, numericIdentifier_iff]
  intro digits
  simp [digits c mem] at letter

/-- An identifier is one of a prerelease exactly when the reader finds it valid. -/
theorem exists_preRelease_iff
    {t : List Char} :
  (∃ p : PreRelease, p.text = t) ↔
    t ≠ [] ∧ (numericIdentifier t && leadingZero t) = false ∧ t.all identifierCharacter = true
  := by
  simp only [List.all_eq_true, identifierCharacter_eq]
  constructor
  · rintro ⟨n | a, rfl⟩
    · have alone := (leadingZero_eq_false_iff n.some_).mpr n.leading
      exact ⟨n.some_, by simp [PreRelease.text, alone],
        fun c mem => identifierChar_of_isDigit (n.digits c mem)⟩
    · obtain ⟨c, mem, -⟩ := a.letter
      exact ⟨List.ne_nil_of_mem mem, by simp [PreRelease.text, numericIdentifier_alphanumeric a],
        a.allowed⟩
  · intro ⟨some_, zero, allowed⟩
    by_cases digits : numericIdentifier t = true
    · have alone : leadingZero t = false := by simpa [digits] using zero
      exact ⟨.numeric ⟨t, some_, numericIdentifier_iff.mp digits,
        (leadingZero_eq_false_iff some_).mp alone⟩, rfl⟩
    · have letter : ∃ c ∈ t, c.isDigit = false := by
        simpa [numericIdentifier_iff] using digits
      exact ⟨.alphanumeric ⟨t, allowed, letter⟩, rfl⟩

/-- A number of the core is a numeric identifier that fits into 64 bits. -/
theorem coreNumber_eq_some_iff
    {t : List Char} {n : Nat} :
  coreNumber t = some n ↔ ∃ i : Numeric, i.text = t ∧ value i.text = n ∧ value i.text < 2 ^ 64
  := by
  constructor
  · intro read
    simp only [coreNumber, parseUint, Option.ite_none_left_eq_some, Option.ite_none_right_eq_some,
      Bool.or_eq_true, not_or, Bool.not_eq_true, List.all_eq_true, Option.some.injEq] at read
    obtain ⟨⟨-, alone⟩, ⟨some_, digits, fits⟩, rfl⟩ := read
    exact ⟨⟨t, some_, digits, (leadingZero_eq_false_iff some_).mp alone⟩, rfl, rfl, fits⟩
  · rintro ⟨i, rfl, rfl, fits⟩
    have alone := (leadingZero_eq_false_iff i.some_).mpr i.leading
    have digits : i.text.all Char.isDigit = true := List.all_eq_true.mpr i.digits
    rw [coreNumber, if_neg (by simp [alone, i.some_]), parseUint, if_pos ⟨i.some_, digits, fits⟩]

/-- No dot is in allowed characters. -/
theorem dot_not_mem
    {t : List Char} (allowed : t.all identifierCharacter = true) :
  '.' ∉ t
  := by
  intro mem
  have dot := List.all_eq_true.mp allowed '.' mem
  exact absurd dot (by decide)

end Words

section Parts

/-- Texts without dots are what their dotted text splits into. -/
theorem splitOn_dotted
    {texts : List (List Char)} (some_ : texts ≠ [])
    (allowed : ∀ t ∈ texts, t.all identifierCharacter = true) :
  (dotted texts).splitOn '.' = texts
  := List.splitOn_intercalate '.' (fun t mem => dot_not_mem (allowed t mem)) some_

/-- A text is what it splits into, with dots between. -/
theorem dotted_splitOn
    (t : List Char) :
  dotted (t.splitOn '.') = t
  := List.intercalate_splitOn '.'

/-- A text is a dotted text of identifiers exactly when it splits into identifiers. -/
theorem exists_dotted_iff
    {β : Type} {f : β → List Char} (allowed : ∀ b, (f b).all identifierCharacter = true)
    {v : List Char} :
  (∃ bs : List β, bs ≠ [] ∧ dotted (bs.map f) = v) ↔ ∀ t ∈ v.splitOn '.', ∃ b, f b = t
  := by
  constructor
  · rintro ⟨bs, some_, rfl⟩ t mem
    have allowed' : ∀ t ∈ bs.map f, t.all identifierCharacter = true := by
      simpa using fun b _ => allowed b
    rw [splitOn_dotted (by simpa using some_) allowed', List.mem_map] at mem
    obtain ⟨b, -, rfl⟩ := mem
    exact ⟨b, rfl⟩
  · intro each
    obtain ⟨bs, split⟩ : v.splitOn '.' ∈ Set.range (List.map f) := by
      rw [Set.range_list_map]
      exact each
    refine ⟨bs, ?_, by rw [split, dotted_splitOn]⟩
    rintro rfl
    exact List.splitOn_ne_nil '.' v split.symm

/-- The characters of an identifier of a build are allowed. -/
theorem all_build
    (b : Build) :
  b.text.all identifierCharacter = true
  := (exists_build_iff.mp ⟨b, rfl⟩).2

/-- The characters of an identifier of a prerelease are allowed. -/
theorem all_preRelease
    (p : PreRelease) :
  p.text.all identifierCharacter = true
  := (exists_preRelease_iff.mp ⟨p, rfl⟩).2.2

/-- What splits into identifiers that are not empty is not empty. -/
theorem ne_nil_of_splitOn
    {v : List Char} (each : ∀ t ∈ v.splitOn '.', t ≠ []) :
  v ≠ []
  := by
  rintro rfl
  exact each [] (by simp) rfl

/-- The valid builds are the dotted texts of identifiers of builds. -/
theorem validIdentifiers_build_iff
    {v : List Char} :
  validIdentifiers v false = true ↔ ∃ bs : List Build, bs ≠ [] ∧ dotted (bs.map Build.text) = v
  := by
  rw [exists_dotted_iff all_build]
  simp only [exists_build_iff, validIdentifiers, Bool.and_eq_true, Bool.not_eq_true',
    Bool.false_and, Bool.or_false, List.all_eq_true (l := v.splitOn '.'), List.isEmpty_eq_false_iff]
  exact and_iff_right_of_imp fun each => ne_nil_of_splitOn fun t mem => (each t mem).1

/-- The valid prereleases are the dotted texts of identifiers of prereleases. -/
theorem validIdentifiers_preRelease_iff
    {v : List Char} :
  validIdentifiers v true = true ↔
    ∃ ps : List PreRelease, ps ≠ [] ∧ dotted (ps.map PreRelease.text) = v
  := by
  rw [exists_dotted_iff all_preRelease]
  simp only [exists_preRelease_iff, validIdentifiers, Bool.and_eq_true, Bool.not_eq_true',
    Bool.true_and, Bool.or_eq_false_iff, List.all_eq_true (l := v.splitOn '.'),
    List.isEmpty_eq_false_iff, and_assoc]
  exact and_iff_right_of_imp fun each => ne_nil_of_splitOn fun t mem => (each t mem).1

/-- What stands behind the first sign. -/
theorem eq_of_idxOf?
    {sign : Char} {v : List Char} {i : Nat} (found : v.idxOf? sign = some i) :
  v = v.take i ++ sign :: v.drop (i + 1)
  := by
  obtain ⟨inside, here, -⟩ := List.idxOf?_eq_some_iff.mp found
  rw [← here, List.getElem_cons_drop, List.take_append_drop]

/-- The first sign is the one behind a text without it. -/
theorem idxOf?_append
    {sign : Char} {v rest : List Char} (free : sign ∉ v) :
  (v ++ sign :: rest).idxOf? sign = some v.length
  := by
  rw [List.idxOf?_eq_some_iff]
  refine ⟨by simp, by simp, ?_⟩
  intro j before same
  rw [List.getElem_append_left before] at same
  exact free (same ▸ List.getElem_mem before)

/-- The identifiers of a prerelease are what their dotted text splits into. -/
theorem splitOn_preReleases
    {ps : List PreRelease} (some_ : ps ≠ []) :
  (dotted (ps.map PreRelease.text)).splitOn '.' = ps.map PreRelease.text
  := splitOn_dotted (by simpa using some_) (by simpa using fun p _ => all_preRelease p)

/-- What is in front of a build, when the build is valid. -/
theorem exists_of_cutBuild
    {v front : List Char} (cut : cutBuild v = some front) :
  ∃ bs : List Build, v = front ++ marked '+' (bs.map Build.text)
  := by
  unfold cutBuild at cut
  split at cut
  · rename_i build found
    obtain ⟨valid, same⟩ := Option.ite_none_right_eq_some.mp cut
    obtain rfl := Option.some.inj same
    obtain ⟨bs, some_, text⟩ := validIdentifiers_build_iff.mp valid
    refine ⟨bs, ?_⟩
    rw [marked, if_neg (by simpa using some_), text]
    exact eq_of_idxOf? found
  · obtain rfl := Option.some.inj cut
    exact ⟨[], by simp [marked]⟩

/-- The build is cut off. -/
theorem cutBuild_append
    {front : List Char} (free : '+' ∉ front) (bs : List Build) :
  cutBuild (front ++ marked '+' (bs.map Build.text)) = some front
  := by
  by_cases none_ : bs = []
  · have absent : front.idxOf? '+' = none := List.idxOf?_eq_none_iff.mpr free
    simp [none_, marked, cutBuild, absent]
  · have valid := validIdentifiers_build_iff.mpr ⟨bs, none_, rfl⟩
    rw [marked, if_neg (by simpa using none_), cutBuild, idxOf?_append free]
    simp [valid]

/-- What is in front of a prerelease, when the prerelease is valid. -/
theorem exists_of_cutPrerelease
    {v front : List Char} {prerelease : List (List Char)}
    (cut : cutPrerelease v = some (front, prerelease)) :
  ∃ ps : List PreRelease, ps.map PreRelease.text = prerelease ∧
    v = front ++ marked '-' (ps.map PreRelease.text)
  := by
  unfold cutPrerelease at cut
  split at cut
  · rename_i dash found
    obtain ⟨valid, same⟩ := Option.ite_none_right_eq_some.mp cut
    obtain ⟨rfl, rfl⟩ := Prod.mk.inj (Option.some.inj same)
    obtain ⟨ps, some_, text⟩ := validIdentifiers_preRelease_iff.mp valid
    have split := splitOn_preReleases some_
    refine ⟨ps, by rw [← text, split], ?_⟩
    rw [marked, if_neg (by simpa using some_), text]
    exact eq_of_idxOf? found
  · obtain ⟨rfl, rfl⟩ := Prod.mk.inj (Option.some.inj cut)
    exact ⟨[], rfl, by simp [marked]⟩

/-- The prerelease is cut off. -/
theorem cutPrerelease_append
    {front : List Char} (free : '-' ∉ front) (ps : List PreRelease) :
  cutPrerelease (front ++ marked '-' (ps.map PreRelease.text))
    = some (front, ps.map PreRelease.text)
  := by
  by_cases none_ : ps = []
  · have absent : front.idxOf? '-' = none := List.idxOf?_eq_none_iff.mpr free
    simp [none_, marked, cutPrerelease, absent]
  · have valid := validIdentifiers_preRelease_iff.mpr ⟨ps, none_, rfl⟩
    have split := splitOn_preReleases none_
    rw [marked, if_neg (by simpa using none_), cutPrerelease, idxOf?_append free]
    simp [valid, split]

end Parts

section Reading

/-- What is read of a version: the numbers and the identifiers of the prerelease. -/
def reading (v : Version) : SemanticVersion where
  core := v.core.map fun n => value n.text
  prerelease := v.prerelease.map PreRelease.text

/-- The numbers of a version fit into 64 bits. -/
def Fits (v : Version) : Prop :=
  ∀ n ∈ v.core, value n.text < 2 ^ 64

/-- A text writes a version, perhaps with a `v` in front. -/
def Writes (text : String) (v : Version) : Prop :=
  text.toList = v.text ∨ text.toList = 'v' :: v.text

/-- A digit is an allowed character. -/
theorem all_numeric
    (n : Numeric) :
  n.text.all identifierCharacter = true
  := by
  rw [List.all_eq_true]
  intro c mem
  rw [identifierCharacter_eq]
  exact identifierChar_of_isDigit (n.digits c mem)

/-- The core splits into three numbers that fit into 64 bits. -/
theorem parseCore_eq_some_iff
    {v : List Char} {numbers : List Nat} :
  parseCore v = some numbers ↔
    ∃ a b c : Numeric, dotted [a.text, b.text, c.text] = v ∧
      numbers = [value a.text, value b.text, value c.text] ∧
      value a.text < 2 ^ 64 ∧ value b.text < 2 ^ 64 ∧ value c.text < 2 ^ 64
  := by
  constructor
  · intro read
    obtain ⟨three, each⟩ := Option.ite_none_left_eq_some.mp read
    obtain ⟨x, y, z, split⟩ := List.length_eq_three.mp (not_not.mp three)
    rw [split] at each
    simp only [List.mapM_cons, List.mapM_nil, Option.bind_eq_bind, Option.bind_eq_some_iff,
      Option.pure_def, Option.some.injEq, exists_eq_left', coreNumber_eq_some_iff] at each
    obtain ⟨-, ⟨a, rfl, rfl, fitsA⟩, -, ⟨-, ⟨b, rfl, rfl, fitsB⟩, -, ⟨-, ⟨c, rfl, rfl, fitsC⟩, rfl⟩,
      rfl⟩, rfl⟩ := each
    exact ⟨a, b, c, by rw [← split, dotted_splitOn], rfl, fitsA, fitsB, fitsC⟩
  · rintro ⟨a, b, c, rfl, rfl, fitsA, fitsB, fitsC⟩
    have split : (dotted [a.text, b.text, c.text]).splitOn '.' = [a.text, b.text, c.text] :=
      splitOn_dotted (by simp) (by simp only [List.forall_mem_cons, all_numeric]; simp)
    rw [parseCore, split, if_neg (by simp)]
    have readA := coreNumber_eq_some_iff.mpr ⟨a, rfl, rfl, fitsA⟩
    have readB := coreNumber_eq_some_iff.mpr ⟨b, rfl, rfl, fitsB⟩
    have readC := coreNumber_eq_some_iff.mpr ⟨c, rfl, rfl, fitsC⟩
    simp [readA, readB, readC]

/-- A character of a dotted text is a dot or in one of the texts. -/
theorem mem_dotted
    {c : Char} {texts : List (List Char)} (mem : c ∈ dotted texts) :
  c = '.' ∨ ∃ t ∈ texts, c ∈ t
  := by
  induction texts with
  | nil => simp [dotted] at mem
  | cons t rest ih =>
      by_cases last : rest = []
      · exact Or.inr ⟨t, List.mem_cons_self, by simpa [dotted, last] using mem⟩
      · rw [dotted, List.intercalate_cons_of_ne_nil last, List.append_assoc, List.mem_append] at mem
        rcases mem with mem | mem
        · exact Or.inr ⟨t, List.mem_cons_self, mem⟩
        · rcases List.mem_append.mp mem with mem | mem
          · exact Or.inl (List.mem_singleton.mp mem)
          · obtain dot | ⟨u, inside, mem⟩ := ih mem
            · exact Or.inl dot
            · exact Or.inr ⟨u, List.mem_cons_of_mem t inside, mem⟩

/-- A character of the core is a dot or a digit. -/
theorem mem_coreText
    {v : Version} {c : Char} (mem : c ∈ v.coreText) :
  c = '.' ∨ c.isDigit = true
  := by
  obtain dot | ⟨t, inside, mem⟩ := mem_dotted mem
  · exact Or.inl dot
  · obtain ⟨n, -, rfl⟩ := List.mem_map.mp inside
    exact Or.inr (n.digits c mem)

/-- No plus is in front of the build. -/
theorem plus_not_mem
    (v : Version) :
  '+' ∉ v.coreText ++ marked '-' (v.prerelease.map PreRelease.text)
  := by
  intro mem
  rcases List.mem_append.mp mem with mem | mem
  · exact absurd (mem_coreText mem) (by decide)
  · unfold marked at mem
    split at mem
    · simp at mem
    · obtain dash | mem := List.mem_cons.mp mem
      · exact absurd dash (by decide)
      · obtain dot | ⟨t, inside, mem⟩ := mem_dotted mem
        · exact absurd dot (by decide)
        · obtain ⟨p, -, rfl⟩ := List.mem_map.mp inside
          have allowed := List.all_eq_true.mp (all_preRelease p) '+' mem
          exact absurd allowed (by decide)

/-- A version does not begin with `v`. -/
theorem trimV_text
    (v : Version) :
  trimV v.text = v.text
  := by
  obtain ⟨c, rest, text⟩ := List.exists_cons_of_ne_nil v.major.some_
  have digit : c.isDigit = true := v.major.digits c (by simp [text])
  have head : v.text.head? = some c := by
    simp [Version.text, Version.coreText, Version.core, dotted, text]
  have other : c ≠ 'v' := by
    rintro rfl
    exact absurd digit (by decide)
  rw [trimV, head, if_neg (by simpa using other)]

/-- The text of a version without the `v`. -/
theorem trimV_of_writes
    {text : String} {v : Version} (writes : Writes text v) :
  trimV text.toList = v.text
  := by
  rcases writes with plain | marked
  · rw [plain, trimV_text]
  · rw [trimV, marked, List.head?_cons, if_pos rfl, List.tail_cons]

/-- What writes a version whose numbers fit is read as this version. -/
theorem parse_of_writes
    {text : String} {v : Version} (writes : Writes text v) (fits : Fits v) :
  parseSemanticVersion text = some (reading v)
  := by
  have numbers : parseCore v.coreText = some (reading v).core :=
    parseCore_eq_some_iff.mpr ⟨v.major, v.minor, v.patch, rfl, rfl,
      fits v.major (by simp [Version.core]), fits v.minor (by simp [Version.core]),
      fits v.patch (by simp [Version.core])⟩
  have dashFree : '-' ∉ v.coreText := fun mem => absurd (mem_coreText mem) (by decide)
  rw [parseSemanticVersion, trimV_of_writes writes, Version.text, cutBuild_append (plus_not_mem v),
    Option.bind_some, cutPrerelease_append dashFree, Option.bind_some, numbers]
  rfl

/-- What is read is written by the text. -/
theorem exists_of_parse
    {text : String} {parsed : SemanticVersion} (read : parseSemanticVersion text = some parsed) :
  ∃ v : Version, Writes text v ∧ Fits v ∧ parsed = reading v
  := by
  obtain ⟨front, cut, later⟩ := Option.bind_eq_some_iff.mp read
  obtain ⟨⟨core, prerelease⟩, cut', last⟩ := Option.bind_eq_some_iff.mp later
  obtain ⟨numbers, three, rfl⟩ := Option.map_eq_some_iff.mp last
  have three : parseCore core = some numbers := three
  obtain ⟨bs, whole⟩ := exists_of_cutBuild cut
  obtain ⟨ps, rfl, front_eq⟩ := exists_of_cutPrerelease cut'
  obtain ⟨a, b, c, rfl, rfl, fitsA, fitsB, fitsC⟩ := parseCore_eq_some_iff.mp three
  have trimmed : trimV text.toList = (Version.mk a b c ps bs).text := by
    rw [whole, front_eq]
    rfl
  have fits : Fits ⟨a, b, c, ps, bs⟩ := by
    simp only [Fits, Version.core, List.forall_mem_cons]
    exact ⟨fitsA, fitsB, fitsC, by simp⟩
  refine ⟨⟨a, b, c, ps, bs⟩, ?_, fits, rfl⟩
  by_cases withV : text.toList.head? = some 'v'
  · right
    obtain ⟨rest, whole⟩ := List.head?_eq_some_iff.mp withV
    rw [trimV, if_pos withV, whole, List.tail_cons] at trimmed
    rw [whole, trimmed]
  · left
    rwa [trimV, if_neg withV] at trimmed

end Reading

section Comparison

theorem sign_then
    (o o' : Ordering) :
  sign (o.then o') = if sign o ≠ 0 then sign o else sign o'
  := by
  cases o <;> simp [sign]

theorem compareNumber_eq
    (a b : Nat) :
  compareNumber a b = sign (compare a b)
  := by
  rw [Nat.compare_eq_ite_lt, compareNumber]
  split
  · rfl
  · split <;> rfl

/-- The loop over both lists, and after it their lengths, compare lexicographically. -/
theorem sign_compareLex
    {α β : Type} {f : β → α} {cmp : β → β → Ordering} {comparison : α → α → Int}
    (agree : ∀ a b, comparison (f a) (f b) = sign (cmp a b)) (l r : List β) :
  sign (List.compareLex cmp l r) =
    if firstDifference comparison (l.map f) (r.map f) ≠ 0 then
      firstDifference comparison (l.map f) (r.map f)
    else compareNumber l.length r.length
  := by
  induction l generalizing r with
  | nil => cases r <;> simp [List.compareLex_nil_nil, List.compareLex_nil_cons, firstDifference,
      compareNumber, sign]
  | cons a rest ih =>
      cases r with
      | nil => simp [List.compareLex_cons_nil, firstDifference, compareNumber, sign]
      | cons b others =>
        have lengths : compareNumber (a :: rest).length (b :: others).length
            = compareNumber rest.length others.length := by
          simp [compareNumber]
        rw [List.compareLex_cons_cons, sign_then, ih, lengths, List.map_cons, List.map_cons,
          firstDifference, agree]
        by_cases differ : sign (cmp a b) = 0
        · simp [differ]
        · simp [differ]

/-- The comparison of identifiers is their precedence. -/
theorem comparePrereleaseIdentifier_eq
    (p q : PreRelease) :
  comparePrereleaseIdentifier p.text q.text = sign (p.precedence q)
  := by
  have digits : ∀ n : Numeric, numericIdentifier n.text = true :=
    fun n => numericIdentifier_iff.mpr n.digits
  have mixed : ∀ a : Alphanumeric, numericIdentifier a.text = false :=
    numericIdentifier_alphanumeric
  cases p with
  | numeric n =>
      cases q with
      | numeric m =>
        rw [PreRelease.precedence, n.compare_value m, sign_then, ← compareNumber_eq]
        simp only [comparePrereleaseIdentifier, PreRelease.text, digits, Bool.and_self, if_true,
          stringsCompare, compareNumber]
        rcases Nat.lt_trichotomy n.text.length m.text.length with shorter | same | longer
        · simp [shorter]
        · simp [same]
        · simp [longer, longer.not_gt]
      | alphanumeric b => simp [comparePrereleaseIdentifier, PreRelease.text, digits, mixed,
          PreRelease.precedence, sign]
  | alphanumeric a =>
      cases q with
      | numeric m => simp [comparePrereleaseIdentifier, PreRelease.text, digits, mixed,
          PreRelease.precedence, sign]
      | alphanumeric b => simp [comparePrereleaseIdentifier, PreRelease.text, mixed,
          PreRelease.precedence, stringsCompare]

/-- The comparison of what is read is the precedence of the versions. -/
theorem compareParsed_reading
    (v w : Version) :
  compareParsed (reading v) (reading w) = sign (v.precedence w)
  := by
  have core : sign (corePrecedence v.core w.core)
      = firstDifference compareNumber (reading v).core (reading w).core := by
    have agree : ∀ a b : Numeric, compareNumber (value a.text) (value b.text)
        = sign (compareOn (fun n : Numeric => value n.text) a b) :=
      fun a b => compareNumber_eq (value a.text) (value b.text)
    have lex := sign_compareLex (f := fun n : Numeric => value n.text) agree v.core w.core
    rw [corePrecedence, lex]
    simp only [reading, Version.core, List.length_cons, compareNumber, lt_irrefl, if_false,
      ite_not, ite_eq_right_iff]
    exact fun zero => zero.symm
  rw [Version.precedence, sign_then, core, compareParsed]
  split
  · rfl
  · have lex := sign_compareLex comparePrereleaseIdentifier_eq v.prerelease w.prerelease
    cases left : v.prerelease with
    | nil => cases right : w.prerelease <;> simp [reading, left, right, prereleasePrecedence, sign]
    | cons p ps =>
        cases right : w.prerelease with
        | nil => simp [reading, left, right, prereleasePrecedence, sign]
        | cons q qs =>
          rw [left, right] at lex
          rw [prereleasePrecedence, lex]
          simp [reading, left, right]

/-- The comparison of two texts that write versions is the precedence of these. -/
theorem compare_of_writes
    {left right : String} {v w : Version} (writes : Writes left v) (writes' : Writes right w)
    (fits : Fits v) (fits' : Fits w) :
  compareSemanticVersions left right = (sign (v.precedence w), true)
  := by
  rw [compareSemanticVersions, parse_of_writes writes fits, parse_of_writes writes' fits']
  simp only [compareParsed_reading]

end Comparison

section Laws

/-- The reader accepts exactly the texts of versions whose numbers fit into 64 bits, with a `v` in
front or without one. -/
theorem accepts_iff
    (text : String) :
  accepts text = true ↔ ∃ v : Version, Writes text v ∧ Fits v
  := by
  rw [accepts, Option.isSome_iff_exists]
  constructor
  · rintro ⟨parsed, read⟩
    obtain ⟨v, writes, fits, -⟩ := exists_of_parse read
    exact ⟨v, writes, fits⟩
  · rintro ⟨v, writes, fits⟩
    exact ⟨reading v, parse_of_writes writes fits⟩

/-- The comparison says whether both versions were accepted. -/
theorem compareSemanticVersions_accepts
    (left right : String) :
  (compareSemanticVersions left right).2 = (accepts left && accepts right)
  := by
  rw [compareSemanticVersions, accepts, accepts]
  cases parseSemanticVersion left with
  | none => rfl
  | some a => cases parseSemanticVersion right <;> rfl

theorem sign_swap
    (o : Ordering) :
  sign o.swap = -sign o
  := by
  cases o <;> rfl

theorem sign_nonpos_iff
    (o : Ordering) :
  sign o ≤ 0 ↔ o.isLE = true
  := by
  cases o <;> simp [sign]

/-- A version without its build. -/
def withoutBuild (v : Version) : Version :=
  { v with build := [] }

/-- The reader accepts the texts of versions whose numbers fit into 64 bits. On the accepted texts
the comparison is the precedence of the versions, whatever their builds, and so a total
preorder. -/
theorem semver_laws :
  (∀ text, accepts text = true ↔ ∃ v : Version, Writes text v ∧ Fits v) ∧
  (∀ left right, (compareSemanticVersions left right).2 = (accepts left && accepts right)) ∧
  (∀ left right v w, Writes left v → Writes right w → Fits v → Fits w →
    compareSemanticVersions left right = (sign (v.precedence w), true) ∧
    v.precedence w = (withoutBuild v).precedence (withoutBuild w)) ∧
  (∀ a, accepts a = true → compareSemanticVersions a a = (0, true)) ∧
  (∀ a b, accepts a = true → accepts b = true →
    (compareSemanticVersions b a).1 = -(compareSemanticVersions a b).1) ∧
  (∀ a b, accepts a = true → accepts b = true →
    (compareSemanticVersions a b).1 ≤ 0 ∨ (compareSemanticVersions b a).1 ≤ 0) ∧
  (∀ a b c, accepts a = true → accepts b = true → accepts c = true →
    (compareSemanticVersions a b).1 ≤ 0 → (compareSemanticVersions b c).1 ≤ 0 →
    (compareSemanticVersions a c).1 ≤ 0)
  := by
  refine ⟨accepts_iff, compareSemanticVersions_accepts, ?agrees, ?refl, ?swap, ?total, ?trans⟩
  case agrees =>
    intro left right v w writes writes' fits fits'
    exact ⟨compare_of_writes writes writes' fits fits', rfl⟩
  case refl =>
    intro a accepted
    obtain ⟨v, writes, fits⟩ := (accepts_iff a).mp accepted
    have same : v.precedence v = .eq := Std.ReflCmp.compare_self
    rw [compare_of_writes writes writes fits fits, same]
    rfl
  case swap =>
    intro a b accepted accepted'
    obtain ⟨v, writes, fits⟩ := (accepts_iff a).mp accepted
    obtain ⟨w, writes', fits'⟩ := (accepts_iff b).mp accepted'
    have swap : w.precedence v = (v.precedence w).swap := Std.OrientedCmp.eq_swap
    rw [compare_of_writes writes writes' fits fits', compare_of_writes writes' writes fits' fits,
      swap, sign_swap]
  case total =>
    intro a b accepted accepted'
    obtain ⟨v, writes, fits⟩ := (accepts_iff a).mp accepted
    obtain ⟨w, writes', fits'⟩ := (accepts_iff b).mp accepted'
    have swap : w.precedence v = (v.precedence w).swap := Std.OrientedCmp.eq_swap
    rw [compare_of_writes writes writes' fits fits', compare_of_writes writes' writes fits' fits,
      swap, sign_swap]
    rcases le_total (sign (v.precedence w)) 0 with below | above
    · exact Or.inl below
    · exact Or.inr (by simpa using above)
  case trans =>
    intro a b c accepted accepted' accepted'' first second
    obtain ⟨v, writes, fits⟩ := (accepts_iff a).mp accepted
    obtain ⟨w, writes', fits'⟩ := (accepts_iff b).mp accepted'
    obtain ⟨u, writes'', fits''⟩ := (accepts_iff c).mp accepted''
    rw [compare_of_writes writes writes' fits fits', sign_nonpos_iff] at first
    rw [compare_of_writes writes' writes'' fits' fits'', sign_nonpos_iff] at second
    rw [compare_of_writes writes writes'' fits fits'', sign_nonpos_iff]
    exact Std.TransCmp.isLE_trans first second

/-- No version has a text with a `v` in front, and the reader accepts one: it does not accept
exactly the semantic versions. -/
theorem prefixed_version_accepted :
  ¬ ∀ text, accepts text = true ↔ ∃ v : Version, text.toList = v.text
  := by
  intro exactly
  obtain ⟨v, text⟩ := (exactly "v1.2.3").mp (by decide +kernel)
  have trimmed := trimV_text v
  rw [← text] at trimmed
  exact absurd trimmed (by decide)

example : compareSemanticVersions "1.0.0-alpha.2" "v1.0.0-alpha.10+build" = (-1, true) := by
  decide +kernel

end Laws

end Dagrail.Controller
