import Mathlib.Logic.Function.Basic
import Dagrail.Git.Object

/-!
# The reader of objects

One `git cat-file --batch` answers all requests of a report on one stream
(`internal/gitartifact/gitartifact.go`): to each requested ID a header line, the bytes of the object
and a newline. What the reader leaves unread of an answer is in front of the next one. A reader that
is in step with the stream reads exactly the objects of the repository.
-/

namespace Dagrail

namespace Git

/-- The largest object that is read. -/
def maxRawObjectBytes : Nat := 4194304

/-! ### The stream -/

/-- What is written for a request. -/
def Repo.answer (repo : Repo) (oid : Bytes) : Bytes :=
  match repo.object oid with
  | none => spaced [oid, ascii "missing"] ++ [newline]
  | some object =>
      spaced [oid, object.type.text, decimal object.data.length] ++ [newline]
        ++ object.data ++ [newline]

/-- The reader: what was written and not read, and what it remembers. -/
structure Reader where
  pending : Bytes := []
  cache : Bytes → Option Object := fun _ => none
  commits : Bytes → Option RawCommit := fun _ => none

/-- The first line and what follows it, if the line has ended. -/
def readLine : Bytes → Option (Bytes × Bytes)
  | [] => none
  | byte :: bytes =>
      if byte = newline then some ([], bytes)
      else (readLine bytes).map fun line => (byte :: line.1, line.2)

/-- A line without its end is read from in front of it. -/
theorem readLine_append
    {line : Bytes} (free : newline ∉ line) (rest : Bytes) :
  readLine (line ++ newline :: rest) = some (line, rest)
  := by
  induction line with
  | nil => simp [readLine]
  | cons byte line ih =>
      rw [List.mem_cons, not_or] at free
      rw [List.cons_append, readLine, if_neg (Ne.symm free.1), ih free.2]
      rfl

/-- What a header says: the type and the size of the object, or why there is none. -/
def readHeader (oid header : Bytes) : Fallible (ObjectType × Nat) :=
  match fields header with
  | [name, word] =>
      if name = oid ∧ word = ascii "missing" then .error "Git object is missing"
      else .error "git cat-file returned a malformed raw object header"
  | [name, word, size] =>
      match ObjectType.ofText word with
      | none => .error "git cat-file returned a malformed raw object header"
      | some type =>
          if name ≠ oid then .error "git cat-file returned a malformed raw object header"
          else
            match parseInt size with
            | some size =>
                if size < 0 ∨ maxRawObjectBytes < size then
                  .error "raw Git object exceeds the evidence limit"
                else .ok (type, size.toNat)
            | none => .error "raw Git object exceeds the evidence limit"
  | _ => .error "git cat-file returned a malformed raw object header"

/-- Read an object. There is no outcome when the reader waits for bytes that do not come. -/
def Reader.read (repo : Repo) (reader : Reader) (oid : Bytes) : Option (Reader × Fallible Object) :=
  match reader.cache oid with
  | some object => some (reader, .ok object)
  | none =>
      if validOID oid = false then some (reader, .error "invalid raw Git object request")
      else do
        let (header, pending) ← readLine (reader.pending ++ repo.answer oid)
        match readHeader oid header with
        | .error message => some ({ reader with pending }, .error message)
        | .ok (type, size) =>
            if pending.length < size + 1 then none
            else
              let data := pending.take (size + 1)
              let reader := { reader with pending := pending.drop (size + 1) }
              if data.getLast? ≠ some newline then
                some (reader, .error "git cat-file raw object is not newline terminated")
              else
                let object : Object := { type, data := data.dropLast }
                some ({ reader with cache := Function.update reader.cache oid (some object) },
                  .ok object)

/-- Read a commit. Its text is forgotten. -/
def Reader.commit (repo : Repo) (reader : Reader) (oid : Bytes) :
    Option (Reader × Fallible RawCommit) :=
  match reader.commits oid with
  | some commit => some (reader, .ok commit)
  | none => do
      let (reader, result) ← reader.read repo oid
      match result with
      | .error message => some (reader, .error message)
      | .ok object =>
          if object.type ≠ .commit then some (reader, .error "Git object is not a commit")
          else
            match parseRawCommit object.data with
            | .error message => some (reader, .error message)
            | .ok commit =>
                some
                  ({ reader with
                      commits := Function.update reader.commits oid (some commit)
                      cache := Function.update reader.cache oid none },
                    .ok commit)

/-! ### In step -/

/-- The object that can be asked for. -/
def Repo.objectAt (repo : Repo) (oid : Bytes) : Option Object :=
  if validOID oid then repo.object oid else none

/-- The commit under an ID. -/
def Repo.commitAt (repo : Repo) (oid : Bytes) : Option RawCommit :=
  (repo.objectAt oid).bind fun object =>
    if object.type = .commit then (parseRawCommit object.data).toOption else none

/-- Is the object not too large to be read? -/
def Repo.Small (repo : Repo) (oid : Bytes) : Prop :=
  ∀ object, repo.objectAt oid = some object → object.data.length ≤ maxRawObjectBytes

/-- The reader has read all that was written, and remembers what the repository has. -/
structure Reader.InStep (repo : Repo) (reader : Reader) : Prop where
  pending : reader.pending = []
  cache : ∀ oid object, reader.cache oid = some object →
    repo.objectAt oid = some object ∧ repo.Small oid
  commits : ∀ oid commit, reader.commits oid = some commit →
    repo.commitAt oid = some commit ∧ repo.Small oid

/-- At the start nothing was written. -/
theorem Reader.inStep_start
    (repo : Repo) :
  Reader.InStep repo {}
  where
  pending := rfl
  cache _ _ same := absurd same (Option.some_ne_none _).symm
  commits _ _ same := absurd same (Option.some_ne_none _).symm

/-- The words of the header of an object. -/
theorem header_words
    {oid : Bytes} (valid : validOID oid = true) (object : Object) :
  ∀ word ∈ [oid, object.type.text, decimal object.data.length], IsWord word
  := by
  simp only [List.forall_mem_cons, List.not_mem_nil, IsEmpty.forall_iff, implies_true, and_true]
  exact ⟨isWord_of_validOID valid, isWord_text object.type, isWord_decimal _⟩

/-- The first line of the answer for an object is its header. -/
theorem readLine_object
    {repo : Repo} {oid : Bytes} {object : Object} (valid : validOID oid = true)
    (there : repo.object oid = some object) :
  readLine (repo.answer oid)
    = some (spaced [oid, object.type.text, decimal object.data.length], object.data ++ [newline])
  := by
  rw [Repo.answer, there]
  simp only [List.append_assoc, List.singleton_append]
  apply readLine_append
  exact blank_not_mem_spaced (header_words valid object) (by decide) (by decide)

/-- The header of an object says its type and its size. -/
theorem readHeader_object
    {oid : Bytes} (valid : validOID oid = true) (object : Object)
    (small : object.data.length ≤ maxRawObjectBytes) :
  readHeader oid (spaced [oid, object.type.text, decimal object.data.length])
    = .ok (object.type, object.data.length)
  := by
  have room : ¬ ((object.data.length : Int) < 0 ∨
      (maxRawObjectBytes : Int) < (object.data.length : Int)) := by omega
  simp only [readHeader, fields_spaced (header_words valid object), ObjectType.ofText_text, ne_eq,
    not_true_eq_false, if_false, parseInt_decimal, if_neg room, Int.toNat_natCast]

/-- The header of an object that is too large is refused. -/
theorem readHeader_large
    {oid : Bytes} (valid : validOID oid = true) (object : Object)
    (large : maxRawObjectBytes < object.data.length) :
  readHeader oid (spaced [oid, object.type.text, decimal object.data.length])
    = .error "raw Git object exceeds the evidence limit"
  := by
  have excess : (object.data.length : Int) < 0 ∨
      (maxRawObjectBytes : Int) < (object.data.length : Int) := by omega
  simp only [readHeader, fields_spaced (header_words valid object), ObjectType.ofText_text, ne_eq,
    not_true_eq_false, if_false, parseInt_decimal, if_pos excess]

/-- The header for a missing object says so. -/
theorem readHeader_missing
    {oid : Bytes} (valid : validOID oid = true) :
  readHeader oid (spaced [oid, ascii "missing"]) = .error "Git object is missing"
  := by
  have words : fields (spaced [oid, ascii "missing"]) = [oid, ascii "missing"] := by
    apply fields_spaced
    simp only [List.forall_mem_cons, List.not_mem_nil, IsEmpty.forall_iff, implies_true, and_true]
    exact ⟨isWord_of_validOID valid, isWord_of_all (by decide) (by decide)⟩
  simp only [readHeader, words, and_self, if_true]

/-- A reader in step reads what the repository has, and stays in step, unless the object is too
large. -/
theorem Reader.InStep.read_spec
    {repo : Repo} {reader : Reader} {oid : Bytes} (inStep : reader.InStep repo)
    (small : repo.Small oid) :
  ∃ reader' result, reader.read repo oid = some (reader', result) ∧ reader'.InStep repo ∧
    result.toOption = repo.objectAt oid
  := by
  unfold Reader.read
  cases known : reader.cache oid with
  | some object => exact ⟨reader, .ok object, rfl, inStep, (inStep.cache oid object known).1.symm⟩
  | none =>
      by_cases valid : validOID oid = true
      · simp only [valid, Bool.true_eq_false, if_false, inStep.pending, List.nil_append]
        have at_ : repo.objectAt oid = repo.object oid := if_pos valid
        cases there : repo.object oid with
        | none =>
            have line : readLine (repo.answer oid) = some (spaced [oid, ascii "missing"], []) := by
              rw [Repo.answer, there]
              apply readLine_append
              refine blank_not_mem_spaced ?_ (by decide) (by decide)
              simp only [List.forall_mem_cons, List.not_mem_nil, IsEmpty.forall_iff, implies_true,
                and_true]
              exact ⟨isWord_of_validOID valid, isWord_of_all (by decide) (by decide)⟩
            refine ⟨{ reader with pending := [] }, .error "Git object is missing", ?_, ?_, ?_⟩
            · rw [line, Option.bind_eq_bind, Option.bind_some]
              simp only [readHeader_missing valid]
            · exact { pending := rfl, cache := inStep.cache, commits := inStep.commits }
            · rw [at_, there]
              rfl
        | some object =>
            have short := small object (at_.trans there)
            have size : (object.data ++ [newline]).length = object.data.length + 1 := by simp
            have all : (object.data ++ [newline]).take (object.data.length + 1)
                = object.data ++ [newline] := by rw [← size, List.take_length]
            have none_ : (object.data ++ [newline]).drop (object.data.length + 1) = [] := by
              rw [← size, List.drop_length]
            refine ⟨{ reader with
                pending := []
                cache := Function.update reader.cache oid (some object) }, .ok object, ?_, ?_, ?_⟩
            · rw [readLine_object valid there, Option.bind_eq_bind, Option.bind_some]
              simp only [readHeader_object valid object short, size, lt_irrefl, if_false, all,
                none_, List.getLast?_concat, ne_eq, not_true_eq_false, List.dropLast_concat]
            · refine
                { pending := rfl
                  cache := fun oid' object' same => ?_
                  commits := inStep.commits }
              change Function.update reader.cache oid (some object) oid' = some object' at same
              by_cases own : oid' = oid
              · rw [own] at same ⊢
                rw [Function.update_self] at same
                exact ⟨by rw [at_, there, same], small⟩
              · rw [Function.update_of_ne own] at same
                exact inStep.cache oid' object' same
            · rw [at_, there]
              rfl
      · have invalid : validOID oid = false := by simpa using valid
        refine ⟨reader, .error "invalid raw Git object request", ?_, inStep, ?_⟩
        · simp only [invalid, if_true]
        · rw [Repo.objectAt, if_neg valid]
          rfl

/-- A reader in step reads the commits of the repository. -/
theorem Reader.InStep.commit_spec
    {repo : Repo} {reader : Reader} {oid : Bytes} (inStep : reader.InStep repo)
    (small : repo.Small oid) :
  ∃ reader' result, reader.commit repo oid = some (reader', result) ∧ reader'.InStep repo ∧
    result.toOption = repo.commitAt oid
  := by
  unfold Reader.commit
  cases known : reader.commits oid with
  | some commit =>
      exact ⟨reader, .ok commit, rfl, inStep, (inStep.commits oid commit known).1.symm⟩
  | none =>
      obtain ⟨reader', result, found, inStep', same⟩ := inStep.read_spec small
      simp only [found, Option.bind_eq_bind, Option.bind_some]
      cases result with
      | error message =>
          have nothing : repo.objectAt oid = none := same.symm
          exact ⟨reader', .error message, rfl, inStep', by rw [Repo.commitAt, nothing]; rfl⟩
      | ok object =>
          have there : repo.objectAt oid = some object := same.symm
          have at_ : repo.commitAt oid =
              if object.type = .commit then (parseRawCommit object.data).toOption else none := by
            rw [Repo.commitAt, there]
            rfl
          by_cases isCommit : object.type = .commit
          · simp only [isCommit, ne_eq, not_true_eq_false, if_false]
            rw [if_pos isCommit] at at_
            cases parsed : parseRawCommit object.data with
            | error message =>
                refine ⟨reader', .error message, rfl, inStep', ?_⟩
                simp only [at_, parsed, Except.toOption]
            | ok commit =>
                rw [parsed] at at_
                refine ⟨_, .ok commit, rfl, ?_, at_.symm⟩
                refine
                  { pending := inStep'.pending
                    cache := fun oid' object' same => ?_
                    commits := fun oid' commit' same => ?_ }
                · by_cases own : oid' = oid
                  · rw [own] at same
                    simp at same
                  · simp only [Function.update_of_ne own] at same
                    exact inStep'.cache oid' object' same
                · by_cases own : oid' = oid
                  · rw [own] at same ⊢
                    simp only [Function.update_self] at same
                    refine ⟨?_, small⟩
                    rw [at_, ← same]
                    rfl
                  · simp only [Function.update_of_ne own] at same
                    exact inStep'.commits oid' commit' same
          · rw [if_neg isCommit] at at_
            refine ⟨reader', .error "Git object is not a commit", ?_, inStep', at_.symm⟩
            simp only [isCommit, ne_eq, not_false_eq_true, if_true]

/-- An object that is too large is not read, and its bytes stay on the stream. -/
theorem Reader.InStep.read_large
    {repo : Repo} {reader : Reader} {oid : Bytes} {object : Object} (inStep : reader.InStep repo)
    (there : repo.objectAt oid = some object) (large : maxRawObjectBytes < object.data.length) :
  reader.read repo oid
    = some ({ reader with pending := object.data ++ [newline] },
      .error "raw Git object exceeds the evidence limit")
  := by
  have valid : validOID oid = true := by
    by_contra invalid
    rw [Repo.objectAt, if_neg invalid] at there
    cases there
  have unknown : reader.cache oid = none := by
    cases known : reader.cache oid with
    | none => rfl
    | some other =>
        have short := (inStep.cache oid other known).2 object there
        exact absurd short (Nat.not_le.mpr large)
  rw [Repo.objectAt, if_pos valid] at there
  unfold Reader.read
  simp only [unknown, valid, Bool.true_eq_false, if_false, inStep.pending, List.nil_append,
    readLine_object valid there, readHeader_large valid object large, Option.bind_eq_bind,
    Option.bind_some]

/-- After an object that is too large, the next object is read from its bytes. -/
theorem Reader.InStep.read_after_large
    {repo : Repo} {reader : Reader} {oid asked rest : Bytes} {object other : Object}
    (inStep : reader.InStep repo) (there : repo.objectAt oid = some object)
    (large : maxRawObjectBytes < object.data.length) (valid : validOID asked = true)
    (unknown : reader.cache asked = none) (short : other.data.length ≤ maxRawObjectBytes)
    (bytes : object.data = spaced [asked, other.type.text, decimal other.data.length]
      ++ newline :: (other.data ++ newline :: rest)) :
  ∃ reader₁ reader₂ message, reader.read repo oid = some (reader₁, .error message)
    ∧ reader₁.read repo asked = some (reader₂, .ok other)
  := by
  refine ⟨_, { reader with
    pending := rest ++ [newline] ++ repo.answer asked
    cache := Function.update reader.cache asked (some other) }, _,
    inStep.read_large there large, ?_⟩
  have line : readLine (object.data ++ [newline] ++ repo.answer asked)
      = some (spaced [asked, other.type.text, decimal other.data.length],
        other.data ++ [newline] ++ (rest ++ [newline] ++ repo.answer asked)) := by
    rw [bytes]
    simp only [List.append_assoc, List.cons_append, List.nil_append]
    apply readLine_append
    exact blank_not_mem_spaced (header_words valid other) (by decide) (by decide)
  have size : (other.data ++ [newline]).length = other.data.length + 1 := by simp
  have all : (other.data ++ [newline] ++ (rest ++ [newline] ++ repo.answer asked)).take
      (other.data.length + 1) = other.data ++ [newline] := List.take_left' size
  have more : (other.data ++ [newline] ++ (rest ++ [newline] ++ repo.answer asked)).drop
      (other.data.length + 1) = rest ++ [newline] ++ repo.answer asked := List.drop_left' size
  have enough : ¬ (other.data ++ [newline] ++ (rest ++ [newline] ++ repo.answer asked)).length
      < other.data.length + 1 := by
    rw [List.length_append, size]
    omega
  unfold Reader.read
  simp only [unknown, valid, Bool.true_eq_false, if_false, line, Option.bind_eq_bind,
    Option.bind_some, readHeader_object valid other short, enough, all, more,
    List.getLast?_concat, ne_eq, not_true_eq_false, List.dropLast_concat]

/-- A reader in step reads exactly the commits that are not too large, and stays in step. -/
theorem Reader.InStep.commit_ok
    {repo : Repo} {reader reader' : Reader} {oid : Bytes} {commit : RawCommit}
    (inStep : reader.InStep repo) (read : reader.commit repo oid = some (reader', .ok commit)) :
  reader'.InStep repo ∧ repo.commitAt oid = some commit ∧ repo.Small oid
  := by
  by_cases small : repo.Small oid
  · obtain ⟨other, result, found, inStep', same⟩ := inStep.commit_spec small
    rw [found] at read
    cases read
    exact ⟨inStep', same.symm, small⟩
  · rw [Repo.Small] at small
    push Not at small
    obtain ⟨object, there, large⟩ := small
    have refused := inStep.read_large there large
    unfold Reader.commit at read
    cases known : reader.commits oid with
    | some old =>
        have short := (inStep.commits oid old known).2 object there
        exact absurd short (Nat.not_le.mpr large)
    | none =>
        simp only [known, refused, Option.bind_eq_bind, Option.bind_some] at read
        cases read

end Git

end Dagrail
