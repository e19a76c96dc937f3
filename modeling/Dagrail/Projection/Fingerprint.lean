import Dagrail.Foundation.Framing
import Dagrail.Foundation.Outcome
import Dagrail.Foundation.Table
import Dagrail.Foundation.Text

/-!
# The fingerprint of a projection

What is hashed of a projection database (`internal/projection/store.go`, `fingerprintUnlocked`): the
schema, and for each table its name and its rows, each as the number of its values and the values.
Every value is a frame. What is hashed determines the schema, the tables and the rows.

A text or a blob in memory has fewer than 2^63 bytes, and a row fewer than 2^63 values.
-/

namespace Dagrail

namespace Projection

open Framing

/-! ### Values -/

/-- Bytes in memory. -/
@[ext]
structure Data where
  bytes : List Byte
  short : bytes.length < 2 ^ 63
deriving DecidableEq

/-- A value that a query yields. -/
inductive SQLValue where
  | null
  | int64 (value : BitVec 64)
  | text (data : Data)
  | blob (data : Data)
  /-- A value of another type. -/
  | other (typeName : String)
deriving DecidableEq

/-- The tag and the data of a value. -/
def SQLValue.tagged : SQLValue → Fallible (Byte × List Byte)
  | .null => .ok (0, [])
  | .int64 value => .ok (1, bigEndian 8 value.toNat)
  | .text data => .ok (2, data.bytes)
  | .blob data => .ok (3, data.bytes)
  | .other typeName => .error ("unsupported projection fingerprint value type " ++ typeName)

/-- What is hashed for a value. -/
def writeFingerprintValue (value : SQLValue) : Fallible (List Byte) := do
  let tagged ← value.tagged
  .ok (frame tagged.1 tagged.2)

/-- The data of a value has a length that eight bytes can carry. -/
theorem SQLValue.tagged_short
    {value : SQLValue} {tag : Byte} {data : List Byte} (tagged : value.tagged = .ok (tag, data)) :
  data.length < 2 ^ 64
  := by
  have small : (2 : Nat) ^ 63 < 2 ^ 64 := by norm_num
  cases value with
  | null =>
      obtain ⟨-, rfl⟩ := Prod.mk.inj (Except.ok.inj tagged)
      norm_num
  | int64 value =>
      obtain ⟨-, rfl⟩ := Prod.mk.inj (Except.ok.inj tagged)
      norm_num
  | text data' | blob data' =>
      obtain ⟨-, rfl⟩ := Prod.mk.inj (Except.ok.inj tagged)
      exact lt_trans data'.short small
  | other typeName => cases tagged

/-- A value is determined by its tag and its data. -/
theorem SQLValue.tagged_inj
    {value value' : SQLValue} {tagged : Byte × List Byte} (given : value.tagged = .ok tagged)
    (given' : value'.tagged = .ok tagged) :
  value = value'
  := by
  have same := given.trans given'.symm
  cases value with
  | other => cases given
  | null =>
      cases value' with
      | null => rfl
      | int64 | text | blob | other => simp [SQLValue.tagged] at same
  | int64 n =>
      cases value' with
      | int64 m =>
          have bytes := (Prod.mk.inj (Except.ok.inj same)).2
          have numbers := bigEndian_inj (lt_of_lt_of_le n.isLt (by norm_num))
            (lt_of_lt_of_le m.isLt (by norm_num)) bytes
          rw [BitVec.eq_of_toNat_eq numbers]
      | null | text | blob | other => simp [SQLValue.tagged] at same
  | text data =>
      cases value' with
      | text data' => rw [Data.ext (Prod.mk.inj (Except.ok.inj same)).2]
      | null | int64 | blob | other => simp [SQLValue.tagged] at same
  | blob data =>
      cases value' with
      | blob data' => rw [Data.ext (Prod.mk.inj (Except.ok.inj same)).2]
      | null | int64 | text | other => simp [SQLValue.tagged] at same

/-- Bytes begin with what is hashed for one value at most. -/
theorem writeFingerprintValue_inj
    {value value' : SQLValue} {bytes bytes' rest rest' : List Byte}
    (written : writeFingerprintValue value = .ok bytes)
    (written' : writeFingerprintValue value' = .ok bytes')
    (same : bytes ++ rest = bytes' ++ rest') :
  value = value' ∧ rest = rest'
  := by
  simp only [writeFingerprintValue, bind_eq_ok, Except.ok.injEq] at written written'
  obtain ⟨⟨tag, data⟩, tagged, rfl⟩ := written
  obtain ⟨⟨tag', data'⟩, tagged', rfl⟩ := written'
  obtain ⟨rfl, rfl, rests⟩ :=
    frame_append_inj (SQLValue.tagged_short tagged) (SQLValue.tagged_short tagged') same
  exact ⟨SQLValue.tagged_inj tagged tagged', rests⟩

/-- What is hashed for a value begins with its tag. -/
theorem head?_writeFingerprintValue
    {value : SQLValue} {tag : Byte} {data bytes : List Byte}
    (tagged : value.tagged = .ok (tag, data))
    (written : writeFingerprintValue value = .ok bytes) (rest : List Byte) :
  (bytes ++ rest).head? = some tag
  := by
  simp only [writeFingerprintValue, tagged, ok_bind, Except.ok.injEq] at written
  rw [← written]
  rfl

/-! ### Rows -/

/-- A row that a query yields. -/
structure Row where
  values : List SQLValue
  short : values.length < 2 ^ 63
deriving DecidableEq

/-- What is hashed for values, one after the other. -/
def writeValues : List SQLValue → Fallible (List Byte)
  | [] => .ok []
  | value :: values => do
      let bytes ← writeFingerprintValue value
      let rest ← writeValues values
      .ok (bytes ++ rest)

/-- What is hashed for a row. -/
def writeRow (row : Row) : Fallible (List Byte) := do
  let count ← writeFingerprintValue (.int64 (BitVec.ofNat 64 row.values.length))
  let bytes ← writeValues row.values
  .ok (count ++ bytes)

/-- What is hashed for rows, one after the other. -/
def writeRows : List Row → Fallible (List Byte)
  | [] => .ok []
  | row :: rows => do
      let bytes ← writeRow row
      let rest ← writeRows rows
      .ok (bytes ++ rest)

/-- Bytes begin with what is hashed for one list of values at most, of a given length. -/
theorem writeValues_inj
    {values values' : List SQLValue} {bytes bytes' rest rest' : List Byte}
    (count : values.length = values'.length) (written : writeValues values = .ok bytes)
    (written' : writeValues values' = .ok bytes') (same : bytes ++ rest = bytes' ++ rest') :
  values = values' ∧ rest = rest'
  := by
  induction values generalizing values' bytes bytes' with
  | nil =>
      obtain rfl := List.length_eq_zero_iff.mp count.symm
      obtain rfl := Except.ok.inj written
      obtain rfl := Except.ok.inj written'
      exact ⟨rfl, same⟩
  | cons value values ih =>
      cases values' with
      | nil => cases count
      | cons value' values' =>
          simp only [writeValues, bind_eq_ok, Except.ok.injEq] at written written'
          obtain ⟨first, written, more, others, rfl⟩ := written
          obtain ⟨first', written', more', others', rfl⟩ := written'
          rw [List.append_assoc, List.append_assoc] at same
          obtain ⟨rfl, same⟩ := writeFingerprintValue_inj written written' same
          obtain ⟨rfl, rests⟩ := ih (Nat.succ.inj count) others others' same
          exact ⟨rfl, rests⟩

/-- Bytes begin with what is hashed for one row at most. -/
theorem writeRow_inj
    {row row' : Row} {bytes bytes' rest rest' : List Byte} (written : writeRow row = .ok bytes)
    (written' : writeRow row' = .ok bytes') (same : bytes ++ rest = bytes' ++ rest') :
  row = row' ∧ rest = rest'
  := by
  simp only [writeRow, bind_eq_ok, Except.ok.injEq] at written written'
  obtain ⟨first, counted, more, written, rfl⟩ := written
  obtain ⟨first', counted', more', written', rfl⟩ := written'
  rw [List.append_assoc, List.append_assoc] at same
  obtain ⟨counts, same⟩ := writeFingerprintValue_inj counted counted' same
  -- both counts are below 2^63, so the numbers that were written are the counts
  have lengths := congrArg BitVec.toNat (SQLValue.int64.inj counts)
  rw [BitVec.toNat_ofNat, BitVec.toNat_ofNat,
    Nat.mod_eq_of_lt (lt_trans row.short (by norm_num)),
    Nat.mod_eq_of_lt (lt_trans row'.short (by norm_num))] at lengths
  obtain ⟨values, rests⟩ := writeValues_inj lengths written written' same
  cases row
  cases row'
  obtain rfl : _ = _ := values
  exact ⟨rfl, rests⟩

/-- What is hashed for a row begins with the tag of a number. -/
theorem head?_writeRow
    {row : Row} {bytes : List Byte} (written : writeRow row = .ok bytes) (rest : List Byte) :
  (bytes ++ rest).head? = some 1
  := by
  simp only [writeRow, bind_eq_ok, Except.ok.injEq] at written
  obtain ⟨first, counted, more, -, rfl⟩ := written
  rw [List.append_assoc]
  exact head?_writeFingerprintValue rfl counted _

/-- Bytes begin with what is hashed for one list of rows at most, if no row follows. -/
theorem writeRows_inj
    {rows rows' : List Row} {bytes bytes' rest rest' : List Byte}
    (ends : rest.head? ≠ some 1) (ends' : rest'.head? ≠ some 1)
    (written : writeRows rows = .ok bytes) (written' : writeRows rows' = .ok bytes')
    (same : bytes ++ rest = bytes' ++ rest') :
  rows = rows' ∧ rest = rest'
  := by
  induction rows generalizing rows' bytes bytes' with
  | nil =>
      obtain rfl := Except.ok.inj written
      cases rows' with
      | nil =>
          obtain rfl := Except.ok.inj written'
          exact ⟨rfl, same⟩
      | cons row' rows' =>
          simp only [writeRows, bind_eq_ok, Except.ok.injEq] at written'
          obtain ⟨first', row, more', -, rfl⟩ := written'
          rw [List.nil_append, List.append_assoc] at same
          exact absurd (same ▸ head?_writeRow row _) ends
  | cons row rows ih =>
      simp only [writeRows, bind_eq_ok, Except.ok.injEq] at written
      obtain ⟨first, wrote, more, others, rfl⟩ := written
      rw [List.append_assoc] at same
      cases rows' with
      | nil =>
          obtain rfl := Except.ok.inj written'
          rw [List.nil_append] at same
          exact absurd (same ▸ head?_writeRow wrote _) ends'
      | cons row' rows' =>
          simp only [writeRows, bind_eq_ok, Except.ok.injEq] at written'
          obtain ⟨first', wrote', more', others', rfl⟩ := written'
          rw [List.append_assoc] at same
          obtain ⟨rfl, same⟩ := writeRow_inj wrote wrote' same
          obtain ⟨rfl, rests⟩ := ih others others' same
          exact ⟨rfl, rests⟩

/-! ### Tables -/

/-- A table with the rows that its query yields, in the order of the query. -/
structure TableRows where
  name : Data
  rows : List Row
deriving DecidableEq

/-- What is hashed for a table. -/
def writeTable (table : TableRows) : Fallible (List Byte) := do
  let name ← writeFingerprintValue (.text table.name)
  let rows ← writeRows table.rows
  .ok (name ++ rows)

/-- What is hashed for tables, one after the other. -/
def writeTables : List TableRows → Fallible (List Byte)
  | [] => .ok []
  | table :: tables => do
      let bytes ← writeTable table
      let rest ← writeTables tables
      .ok (bytes ++ rest)

/-- What is hashed for tables does not begin with a row. -/
theorem head?_writeTables
    {tables : List TableRows} {bytes : List Byte} (written : writeTables tables = .ok bytes) :
  bytes.head? ≠ some 1
  := by
  cases tables with
  | nil =>
      obtain rfl := Except.ok.inj written
      exact (Option.some_ne_none _).symm
  | cons table tables =>
      simp only [writeTables, writeTable, bind_eq_ok, Except.ok.injEq] at written
      obtain ⟨_, ⟨name, named, rows, -, rfl⟩, more, -, rfl⟩ := written
      rw [List.append_assoc, head?_writeFingerprintValue rfl named]
      decide

/-- Tables are determined by what is hashed for them. -/
theorem writeTables_inj
    {tables tables' : List TableRows} {bytes : List Byte} (written : writeTables tables = .ok bytes)
    (written' : writeTables tables' = .ok bytes) :
  tables = tables'
  := by
  induction tables generalizing tables' bytes with
  | nil =>
      obtain rfl := Except.ok.inj written
      cases tables' with
      | nil => rfl
      | cons table' tables' =>
          simp only [writeTables, writeTable, bind_eq_ok, Except.ok.injEq] at written'
          obtain ⟨_, ⟨name, named, rows, -, rfl⟩, more, -, empty⟩ := written'
          rw [List.append_assoc] at empty
          have head := head?_writeFingerprintValue rfl named (rows ++ more)
          rw [empty] at head
          cases head
  | cons table tables ih =>
      simp only [writeTables, writeTable, bind_eq_ok, Except.ok.injEq] at written
      obtain ⟨_, ⟨name, named, rows, listed, rfl⟩, more, others, rfl⟩ := written
      cases tables' with
      | nil =>
          have empty := Except.ok.inj written'
          have head := head?_writeFingerprintValue rfl named (rows ++ more)
          rw [← List.append_assoc, ← empty] at head
          cases head
      | cons table' tables' =>
          simp only [writeTables, writeTable, bind_eq_ok, Except.ok.injEq] at written'
          obtain ⟨_, ⟨name', named', rows', listed', rfl⟩, more', others', same⟩ := written'
          rw [List.append_assoc, List.append_assoc] at same
          obtain ⟨names, same⟩ := writeFingerprintValue_inj named' named same
          obtain ⟨lists, same⟩ := writeRows_inj (head?_writeTables others')
            (head?_writeTables others) listed' listed same
          rw [same] at others'
          obtain rfl := ih others others'
          cases table
          cases table'
          obtain rfl := SQLValue.text.inj names
          obtain rfl : _ = _ := lists
          rfl

/-! ### The fingerprint -/

/-- What is hashed first. -/
def fingerprintPrefix : List Byte :=
  "dagrail-projection-logical-v1\x00".toUTF8.data.toList

/-- All that is hashed for a database. -/
def fingerprintStream (schema : BitVec 64) (tables : List TableRows) : Fallible (List Byte) := do
  let version ← writeFingerprintValue (.int64 schema)
  let bytes ← writeTables tables
  .ok (fingerprintPrefix ++ (version ++ bytes))

/-- What a fingerprint says. -/
structure LogicalFingerprint where
  schema : BitVec 64
  headSequence : BitVec 64 := 0
  headHash : List Byte := []
  digest : String
  rows : List (Data × Nat)

/-- The head that a row of the applied segments names. -/
def appliedHead (head : BitVec 64 × List Byte) (row : Row) : BitVec 64 × List Byte :=
  let sequence := match row.values with
    | .int64 value :: _ => value
    | _ => head.1
  let hash := match row.values with
    | _ :: .text data :: _ => data.bytes
    | _ => head.2
  (sequence, hash)

/-- The fingerprint of a database: the head that its last applied segment names, the number of rows
of each table that has any, and the hash of the stream. -/
def fingerprintUnlocked (hash : List Byte → Hex) (schema : BitVec 64) (tables : List TableRows) :
    Fallible LogicalFingerprint := do
  let stream ← fingerprintStream schema tables
  let applied := (tables.filter fun table =>
    table.name.bytes = "applied_segments".toUTF8.data.toList).flatMap TableRows.rows
  let head := applied.foldl appliedHead (0, [])
  .ok
    { schema
      headSequence := head.1
      headHash := head.2
      digest := (hash stream).digest
      rows := (tables.filter fun table => table.rows ≠ []).map fun table =>
        (table.name, table.rows.length) }

/-- Two databases for which the same is hashed have the same schema, the same tables in the same
order, and in each table the same rows of the same values. -/
theorem fingerprintStream_injective
    {schema schema' : BitVec 64} {tables tables' : List TableRows} {stream : List Byte}
    (hashed : fingerprintStream schema tables = .ok stream)
    (hashed' : fingerprintStream schema' tables' = .ok stream) :
  schema = schema' ∧ tables = tables'
  := by
  simp only [fingerprintStream, bind_eq_ok, Except.ok.injEq] at hashed hashed'
  obtain ⟨version, versioned, bytes, written, rfl⟩ := hashed
  obtain ⟨version', versioned', bytes', written', same⟩ := hashed'
  obtain ⟨schemas, rfl⟩ :=
    writeFingerprintValue_inj versioned' versioned (List.append_cancel_left same)
  exact ⟨(SQLValue.int64.inj schemas).symm, writeTables_inj written written'⟩

/-- Two databases with one row, of a text and a blob, for which the same is hashed. -/
theorem fingerprintStream_injective_sample :
  ∃ (table table' : TableRows) (stream : List Byte), table.rows ≠ [] ∧
    fingerprintStream 1 [table] = .ok stream ∧ fingerprintStream 1 [table'] = .ok stream ∧
    (1 : BitVec 64) = 1 ∧ [table] = [table']
  := by
  let a : Data := ⟨[97], by norm_num⟩
  let ab : Data := ⟨[97, 98], by norm_num⟩
  let table : TableRows := ⟨ab, [⟨[.text a, .blob ab, .null], by norm_num⟩]⟩
  obtain ⟨stream, hashed⟩ : ∃ stream, fingerprintStream 1 [table] = .ok stream := ⟨_, rfl⟩
  exact ⟨table, table, stream, List.cons_ne_nil _ _, hashed, hashed,
    fingerprintStream_injective hashed hashed⟩

end Projection

end Dagrail
