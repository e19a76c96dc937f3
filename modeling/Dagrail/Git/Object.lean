import Mathlib.Data.List.Basic
import Mathlib.Tactic.IntervalCases
import Dagrail.Foundation.Outcome

/-!
# Git objects

A repository gives an object for an ID and an ID for the name of a ref. The text of a commit names
its tree and its parents, and the text of a tag names its target
(`internal/gitartifact/gitartifact.go`). Texts are bytes.
-/

namespace Dagrail

namespace Git

/-- Bytes. -/
abbrev Bytes := List UInt8

/-- Whether bytes are among others can be decided. -/
scoped instance decidableMemBytes (value : Bytes) (values : List Bytes) :
    Decidable (value ∈ values) :=
  List.instDecidableMemOfLawfulBEq value values

/-- The bytes of an ASCII text. -/
def ascii (text : String) : Bytes :=
  text.toList.map fun c => UInt8.ofNat c.toNat

/-- The end of a line. -/
def newline : UInt8 := 10

/-- The space. -/
def space : UInt8 := 32

/-- Is the byte a lowercase hexadecimal digit? -/
def hexDigit (byte : UInt8) : Bool :=
  (48 ≤ byte && byte ≤ 57) || (97 ≤ byte && byte ≤ 102)

/-- An object ID: 40 or 64 lowercase hexadecimal digits. -/
def validOID (value : Bytes) : Bool :=
  (value.length = 40 || value.length = 64) && value.all hexDigit

/-- The types of objects. -/
inductive ObjectType where
  | commit
  | tree
  | blob
  | tag
deriving DecidableEq

namespace ObjectType

/-- The word for a type. -/
def text : ObjectType → Bytes
  | .commit => ascii "commit"
  | .tree => ascii "tree"
  | .blob => ascii "blob"
  | .tag => ascii "tag"

/-- The type of a word. -/
def ofText (word : Bytes) : Option ObjectType :=
  if word = ascii "commit" then some .commit
  else if word = ascii "tree" then some .tree
  else if word = ascii "blob" then some .blob
  else if word = ascii "tag" then some .tag
  else none

@[simp]
theorem ofText_text
    (type : ObjectType) :
  ofText type.text = some type
  := by
  cases type <;> decide

end ObjectType

/-- An object: its type and its bytes. -/
structure Object where
  type : ObjectType
  data : Bytes
deriving DecidableEq

/-- What a commit names. -/
structure RawCommit where
  tree : Bytes
  parents : List Bytes
deriving DecidableEq

/-- A repository. -/
structure Repo where
  object : Bytes → Option Object
  ref : Bytes → Option Bytes

/-! ### Texts of objects -/

/-- What is before the first empty line. -/
def cutHeader : Bytes → Option Bytes
  | [] => none
  | [_] => none
  | a :: b :: rest =>
      if a = newline ∧ b = newline then some []
      else (cutHeader (b :: rest)).map (a :: ·)

/-- What is after a prefix. -/
def afterPrefix (start line : Bytes) : Option Bytes :=
  if start.isPrefixOf line then some (line.drop start.length) else none

/-- Read the lines of the header of a tag. -/
def tagLines : Bytes → List Bytes → Fallible Bytes
  | target, [] => .ok target
  | target, line :: lines =>
      match afterPrefix (ascii "object ") line with
      | some value => do
          check (target = []) "raw tag object repeats its target"
          tagLines value lines
      | none => tagLines target lines

/-- The target of a tag. -/
def parseRawTagTarget (data : Bytes) : Fallible Bytes := do
  let header ← need (cutHeader data) "raw tag object has no header boundary"
  let target ← tagLines [] (header.splitOn newline)
  check (validOID target) "raw tag object has an invalid target"
  .ok target

/-- Read the lines of the header of a commit. -/
def commitLines : RawCommit → List Bytes → Fallible RawCommit
  | commit, [] => .ok commit
  | commit, line :: lines =>
      match afterPrefix (ascii "tree ") line, afterPrefix (ascii "parent ") line with
      | some tree, _ => do
          check (commit.tree = []) "raw commit object repeats its tree"
          commitLines { commit with tree } lines
      | none, some parent => do
          check (validOID parent) "raw commit object has an invalid parent"
          commitLines { commit with parents := commit.parents ++ [parent] } lines
      | none, none => commitLines commit lines

/-- The tree and the parents of a commit. -/
def parseRawCommit (data : Bytes) : Fallible RawCommit := do
  let header ← need (cutHeader data) "raw commit object has no header boundary"
  let commit ← commitLines { tree := [], parents := [] } (header.splitOn newline)
  check (validOID commit.tree) "raw commit object has an invalid tree"
  .ok commit

/-! ### Words of a line -/

/-- Is the byte white space? -/
def blankByte (byte : UInt8) : Bool :=
  byte = 32 || (9 ≤ byte && byte ≤ 13)

/-- The number of bytes that a white space beyond ASCII has after its first one. -/
def wideSpace : Bytes → Nat
  | a :: b :: rest =>
      if a = 0xC2 ∧ (b = 0x85 ∨ b = 0xA0) then 1
      else
        match rest with
        | [] => 0
        | c :: _ =>
            if (a = 0xE1 ∧ b = 0x9A ∧ c = 0x80)
                ∨ (a = 0xE2 ∧ b = 0x80
                  ∧ ((0x80 ≤ c ∧ c ≤ 0x8A) ∨ c = 0xA8 ∨ c = 0xA9 ∨ c = 0xAF))
                ∨ (a = 0xE2 ∧ b = 0x81 ∧ c = 0x9F)
                ∨ (a = 0xE3 ∧ b = 0x80 ∧ c = 0x80) then 2
            else 0
  | _ => 0

/-- A text with spaces for white space beyond ASCII. Some of its first bytes may belong to one. -/
def plainSpaces : Nat → Bytes → Bytes
  | _, [] => []
  | more + 1, _ :: rest => space :: plainSpaces more rest
  | 0, byte :: rest =>
      match wideSpace (byte :: rest) with
      | 0 => byte :: plainSpaces 0 rest
      | more + 1 => space :: plainSpaces (more + 1) rest

/-- The words of a line. -/
def fields (line : Bytes) : List Bytes :=
  ((plainSpaces 0 line).splitOnP blankByte).filter fun word => word ≠ []

/-- A word: not empty, in ASCII and without white space. -/
def IsWord (word : Bytes) : Prop :=
  word ≠ [] ∧ ∀ byte ∈ word, byte < 128 ∧ blankByte byte = false

/-- A word is recognized byte by byte. -/
theorem isWord_of_all
    {word : Bytes} (some_ : word ≠ [])
    (all : (word.all fun byte => decide (byte < 128) && !blankByte byte) = true) :
  IsWord word
  := by
  refine ⟨some_, fun byte mem => ?_⟩
  have own := List.all_eq_true.mp all byte mem
  simpa using own

/-- Words with spaces between them. -/
def spaced : List Bytes → Bytes
  | [] => []
  | [word] => word
  | word :: words => word ++ space :: spaced words

/-- Digits and letters are in ASCII and are not white space. -/
theorem ascii_of_range
    {byte : UInt8} (high : 48 ≤ byte) (low : byte ≤ 102) :
  byte < 128 ∧ blankByte byte = false
  := by
  have high : 48 ≤ byte.toNat := UInt8.le_iff_toNat_le.mp high
  have low : byte.toNat ≤ 102 := UInt8.le_iff_toNat_le.mp low
  have isAscii : byte.toNat < (128 : UInt8).toNat := Nat.lt_of_le_of_lt low (by decide)
  have notSpace : byte ≠ 32 := by
    rintro rfl
    exact absurd high (by decide)
  have notControl : ¬ byte ≤ 13 := by
    intro control
    have control : byte.toNat ≤ 13 := UInt8.le_iff_toNat_le.mp control
    omega
  exact ⟨UInt8.lt_iff_toNat_lt.mpr isAscii, by simp [blankByte, notSpace, notControl]⟩

/-- No white space beyond ASCII begins with an ASCII byte. -/
theorem wideSpace_ascii
    {byte : UInt8} (isAscii : byte < 128) (rest : Bytes) :
  wideSpace (byte :: rest) = 0
  := by
  have other : ∀ first : UInt8, 128 ≤ first → byte ≠ first := by
    rintro first high rfl
    exact absurd isAscii (UInt8.not_lt.mpr high)
  rcases rest with _ | ⟨b, _ | ⟨c, rest⟩⟩
  · rfl
  · simp only [wideSpace, other 0xC2 (by decide), false_and, if_false]
  · simp only [wideSpace, other 0xC2 (by decide), other 0xE1 (by decide), other 0xE2 (by decide),
      other 0xE3 (by decide), false_and, or_self, if_false]

/-- An ASCII text has no white space beyond ASCII. -/
theorem plainSpaces_ascii
    {line : Bytes} (isAscii : ∀ byte ∈ line, byte < 128) :
  plainSpaces 0 line = line
  := by
  induction line with
  | nil => rfl
  | cons byte rest ih =>
      obtain ⟨first, others⟩ := List.forall_mem_cons.mp isAscii
      rw [plainSpaces, wideSpace_ascii first]
      simp only [ih others]

/-- Words with spaces between them are in ASCII. -/
theorem spaced_ascii
    {words : List Bytes} (plain : ∀ word ∈ words, IsWord word) :
  ∀ byte ∈ spaced words, byte < 128
  := by
  induction words with
  | nil => exact fun _ mem => absurd mem List.not_mem_nil
  | cons word words ih =>
      obtain ⟨isWord, plain⟩ := List.forall_mem_cons.mp plain
      cases words with
      | nil => exact fun byte mem => (isWord.2 byte mem).1
      | cons next words =>
          intro byte mem
          have two : spaced (word :: next :: words) = word ++ space :: spaced (next :: words) := rfl
          rw [two, List.mem_append, List.mem_cons] at mem
          rcases mem with mem | rfl | mem
          · exact (isWord.2 byte mem).1
          · decide
          · exact ih plain byte mem

/-- What is in no word and is not the space is not in a line of words. -/
theorem not_mem_spaced
    {words : List Bytes} {byte : UInt8} (apart : ∀ word ∈ words, byte ∉ word)
    (other : byte ≠ space) :
  byte ∉ spaced words
  := by
  induction words with
  | nil => exact List.not_mem_nil
  | cons word words ih =>
      obtain ⟨first, apart⟩ := List.forall_mem_cons.mp apart
      cases words with
      | nil => exact first
      | cons next words =>
          have two : spaced (word :: next :: words) = word ++ space :: spaced (next :: words) := rfl
          rw [two, List.mem_append, List.mem_cons, not_or, not_or]
          exact ⟨first, other, ih apart⟩

/-- White space other than the space is not in a line of words. -/
theorem blank_not_mem_spaced
    {words : List Bytes} (plain : ∀ word ∈ words, IsWord word) {blank : UInt8}
    (isBlank : blankByte blank = true) (other : blank ≠ space) :
  blank ∉ spaced words
  := by
  refine not_mem_spaced (fun word isIn mem => ?_) other
  have free := ((plain word isIn).2 blank mem).2
  rw [isBlank] at free
  exact Bool.noConfusion free

/-- Words are read from a line of them. -/
theorem fields_spaced
    {words : List Bytes} (plain : ∀ word ∈ words, IsWord word) :
  fields (spaced words) = words
  := by
  rw [fields, plainSpaces_ascii (spaced_ascii plain)]
  induction words with
  | nil => rfl
  | cons word words ih =>
      obtain ⟨⟨some_, free⟩, plain⟩ := List.forall_mem_cons.mp plain
      have free : ∀ byte ∈ word, blankByte byte = false := fun byte mem => (free byte mem).2
      cases words with
      | nil =>
          rw [spaced, List.splitOnP_eq_singleton free]
          simp [some_]
      | cons next words =>
          rw [spaced, List.splitOnP_append_cons_of_forall_mem free space (by decide),
            List.filter_cons, if_pos (by simpa using some_), ih plain]
          exact List.cons_ne_nil _ _

/-- NUL is not in an object ID. -/
theorem nul_not_mem_oid
    {oid : Bytes} (valid : validOID oid = true) :
  0 ∉ oid
  := by
  intro mem
  simp only [validOID, Bool.and_eq_true, List.all_eq_true] at valid
  exact absurd (valid.2 0 mem) (by decide)

/-- An object ID is a word. -/
theorem isWord_of_validOID
    {oid : Bytes} (valid : validOID oid = true) :
  IsWord oid
  := by
  simp only [validOID, Bool.and_eq_true, Bool.or_eq_true, decide_eq_true_eq, List.all_eq_true]
    at valid
  obtain ⟨length, digits⟩ := valid
  refine ⟨fun empty => by simp [empty] at length, fun byte mem => ?_⟩
  have digit := digits byte mem
  simp only [hexDigit, Bool.or_eq_true, Bool.and_eq_true, decide_eq_true_eq] at digit
  rcases digit with ⟨low, high⟩ | ⟨low, high⟩
  · exact ascii_of_range low (UInt8.le_trans high (by decide))
  · exact ascii_of_range (UInt8.le_trans (by decide) low) high

/-- The word for a type is a word. -/
theorem isWord_text
    (type : ObjectType) :
  IsWord type.text
  := by
  cases type <;> exact isWord_of_all (by decide) (by decide)

/-! ### Records -/

/-- NUL. -/
def nul : UInt8 := 0

/-- Records, each with its end. -/
def terminated (stop : UInt8) (records : List Bytes) : Bytes :=
  records.flatMap fun record => record ++ [stop]

/-- Records split apart, and what follows the last end. -/
theorem splitOn_terminated
    {stop : UInt8} {records : List Bytes} (free : ∀ record ∈ records, stop ∉ record) :
  (terminated stop records).splitOn stop = records ++ [[]]
  := by
  induction records with
  | nil => rfl
  | cons record records ih =>
      obtain ⟨first, free⟩ := List.forall_mem_cons.mp free
      have step :
          terminated stop (record :: records) = record ++ stop :: terminated stop records := by
        simp [terminated]
      rw [step, List.splitOn_append_cons_self_of_not_mem first, ih free, List.cons_append]

/-- Some records without their last end are split apart. -/
theorem splitOn_dropLast_terminated
    {stop : UInt8} {records : List Bytes} (free : ∀ record ∈ records, stop ∉ record)
    (some_ : records ≠ []) :
  (terminated stop records).dropLast.splitOn stop = records
  := by
  induction records with
  | nil => exact absurd rfl some_
  | cons record records ih =>
      obtain ⟨first, free⟩ := List.forall_mem_cons.mp free
      have step :
          terminated stop (record :: records) = record ++ stop :: terminated stop records := by
        simp [terminated]
      cases records with
      | nil =>
          rw [step]
          simpa [terminated] using List.splitOn_eq_singleton first
      | cons next records =>
          have more : terminated stop (next :: records) ≠ [] := by simp [terminated]
          rw [step, List.dropLast_append_of_ne_nil (List.cons_ne_nil _ _),
            List.dropLast_cons_of_ne_nil more, List.splitOn_append_cons_self_of_not_mem first,
            ih free (List.cons_ne_nil _ _)]

/-- Some records end with the end of a record. -/
theorem getLast?_terminated
    (stop : UInt8) {records : List Bytes} (some_ : records ≠ []) :
  (terminated stop records).getLast? = some stop
  := by
  obtain ⟨records, record, rfl⟩ := (List.eq_nil_or_concat records).resolve_left some_
  simp [terminated]

/-! ### Commands -/

/-- The most that is read from a command. -/
def maxGitOutputBytes : Nat := 4194304

/-- The output of a command. -/
def gitContext (command : String) (output : Bytes) : Fallible Bytes := do
  check (output.length ≤ maxGitOutputBytes) s!"git {command} output exceeds its bounded limit"
  .ok output

/-- The outcome of a command that is not too much. -/
@[simp]
theorem gitContext_eq_ok
    {command : String} {output value : Bytes} :
  gitContext command output = .ok value ↔ output.length ≤ maxGitOutputBytes ∧ output = value
  := by
  simp [gitContext]

/-! ### Numbers -/

/-- The byte of a digit. -/
def digitByte (d : Nat) : UInt8 :=
  UInt8.ofNat (48 + d)

/-- The digits of a number, with enough fuel. -/
def digitsOf : Nat → Nat → Bytes
  | 0, _ => []
  | fuel + 1, n => if n < 10 then [digitByte n] else digitsOf fuel (n / 10) ++ [digitByte (n % 10)]

/-- A number in decimal digits. -/
def decimal (n : Nat) : Bytes :=
  digitsOf (n + 1) n

/-- The value of digits after others. -/
def digitsValue : Nat → Bytes → Option Nat
  | value, [] => some value
  | value, byte :: bytes =>
      if 48 ≤ byte ∧ byte ≤ 57 then digitsValue (10 * value + (byte.toNat - 48)) bytes else none

/-- An integer in decimal digits, which may have a sign. -/
def parseInt (word : Bytes) : Option Int :=
  match word with
  | 43 :: digits => if digits = [] then none else (digitsValue 0 digits).map Int.ofNat
  | 45 :: digits => if digits = [] then none else (digitsValue 0 digits).map fun n => -Int.ofNat n
  | digits => if digits = [] then none else (digitsValue 0 digits).map Int.ofNat

theorem digitByte_range
    {d : Nat} (digit : d < 10) :
  48 ≤ digitByte d ∧ digitByte d ≤ 57 ∧ (digitByte d).toNat - 48 = d
  := by
  interval_cases d <;> decide

theorem digitsValue_append
    (value : Nat) (bytes : Bytes) {d : Nat} (digit : d < 10) :
  digitsValue value (bytes ++ [digitByte d])
    = (digitsValue value bytes).map fun n => 10 * n + d
  := by
  induction bytes generalizing value with
  | nil =>
      obtain ⟨low, high, same⟩ := digitByte_range digit
      simp [digitsValue, low, high, same]
  | cons byte bytes ih =>
      rw [List.cons_append, digitsValue, digitsValue]
      split_ifs
      · exact ih _
      · rfl

theorem digitsValue_digitsOf
    {fuel n : Nat} (enough : n < fuel) :
  digitsValue 0 (digitsOf fuel n) = some n
  := by
  induction fuel generalizing n with
  | zero => exact absurd enough (Nat.not_lt_zero n)
  | succ fuel ih =>
      rw [digitsOf]
      split_ifs with small
      · have last := digitsValue_append 0 [] small
        simpa [digitsValue] using last
      · rw [digitsValue_append 0 _ (Nat.mod_lt n (by decide)), ih (by omega), Option.map_some]
        congr 1
        omega

/-- Every byte of a number is a digit. -/
theorem digit_of_mem_digitsOf
    {fuel n : Nat} {byte : UInt8} (mem : byte ∈ digitsOf fuel n) :
  48 ≤ byte ∧ byte ≤ 57
  := by
  induction fuel generalizing n with
  | zero => cases mem
  | succ fuel ih =>
      rw [digitsOf] at mem
      split_ifs at mem with small
      · obtain rfl := List.mem_singleton.mp mem
        obtain ⟨low, high, -⟩ := digitByte_range small
        exact ⟨low, high⟩
      · rcases List.mem_append.mp mem with mem | mem
        · exact ih mem
        · obtain rfl := List.mem_singleton.mp mem
          obtain ⟨low, high, -⟩ := digitByte_range (Nat.mod_lt n (show 0 < 10 by decide))
          exact ⟨low, high⟩

theorem decimal_ne_nil
    (n : Nat) :
  decimal n ≠ []
  := by
  rw [decimal, digitsOf]
  split_ifs
  · exact List.cons_ne_nil _ _
  · simp

/-- A number is a word. -/
theorem isWord_decimal
    (n : Nat) :
  IsWord (decimal n)
  := by
  refine ⟨decimal_ne_nil n, fun byte mem => ?_⟩
  obtain ⟨low, high⟩ := digit_of_mem_digitsOf mem
  exact ascii_of_range low (UInt8.le_trans high (by decide))

/-- A number reads back. -/
theorem parseInt_decimal
    (n : Nat) :
  parseInt (decimal n) = some (n : Int)
  := by
  have value : digitsValue 0 (decimal n) = some n := digitsValue_digitsOf (Nat.lt_succ_self n)
  have some_ := decimal_ne_nil n
  have digit : ∀ byte ∈ decimal n, 48 ≤ byte ∧ byte ≤ 57 :=
    fun byte mem => digit_of_mem_digitsOf mem
  unfold parseInt
  split
  · rename_i digits same
    have first := digit 43 (by simp [same])
    exact absurd first (by decide)
  · rename_i digits same
    have first := digit 45 (by simp [same])
    exact absurd first (by decide)
  · rw [if_neg some_, value]
    rfl

end Git

end Dagrail
