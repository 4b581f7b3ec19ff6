import FirebirdScan.Lib.Ieee
import FirebirdScan.Lib.Utf8

/-!
# `Types` — the data the extension passes between DuckDB and Firebird

`std::string` is a byte string throughout (`Bytes`): the SQL the extension builds may carry raw
Windows-1252 bytes, so it is not a string of characters. A DuckDB `VARCHAR` value is a Lean `String`,
whose characters are the Unicode scalar values, so it is valid UTF-8 by construction; `utf8` is the
`std::string` the C++ side sees for it, and for a literal in the source.
-/

namespace FirebirdScan

/-- A `std::string`. -/
abbrev Bytes := List UInt8

/-- The bytes of a `VARCHAR` value, or of a string literal of the source. -/
def utf8 (s : String) : Bytes := Utf8.ofString s

/-! ## Machine integers -/

/-- The result of an `int64_t` operation. Signed overflow has no meaning in the source. -/
def int64 (x : Int) : Option Int := if -2 ^ 63 ≤ x ∧ x < 2 ^ 63 then some x else none

theorem int64_eq_some {x y : Int} : int64 x = some y ↔ y = x ∧ -2 ^ 63 ≤ x ∧ x < 2 ^ 63 := by
  unfold int64
  split_ifs with h
  · simp only [Option.some.injEq]
    exact ⟨fun hxy => ⟨hxy.symm, h⟩, fun hxy => hxy.1.symm⟩
  · simp only [false_iff]
    exact fun hxy => h hxy.2

theorem int64_of_mem {x : Int} (hlo : -2 ^ 63 ≤ x) (hhi : x < 2 ^ 63) : int64 x = some x :=
  int64_eq_some.mpr ⟨rfl, hlo, hhi⟩

/-! ## DuckDB types and values -/

/-- `LogicalTypeId`, the column types a value can have. -/
inductive LogicalTypeId where
  | sqlNull | boolean | tinyint | smallint | integer | bigint | date | time
  | timestampSec | timestampMs | timestamp | timestampNs | decimal | float | double | varchar | blob
  | interval | utinyint | usmallint | uinteger | ubigint | timestampTz | timeTz | bit | uhugeint
  | hugeint | uuid | struct | list | map | enum | union | array
deriving DecidableEq, Repr

/-- `LogicalType`: the id, and the width and scale that only `DECIMAL` uses. -/
structure LogicalType where
  id : LogicalTypeId
  width : Nat := 0
  scale : Nat := 0
deriving DecidableEq, Repr

/-- The types whose values the extension only passes on; they share the constructor `Value.other`. -/
def LogicalTypeId.isOpaque : LogicalTypeId → Bool
  | .timestampSec | .timestampMs | .timestampNs | .blob | .interval | .utinyint | .usmallint | .uinteger
  | .ubigint | .timestampTz | .timeTz | .bit | .uuid | .struct | .list | .map | .enum | .union
  | .array => true
  | _ => false

/-- `dtime_t`: microseconds since midnight, up to and including the end of the day. -/
structure Dtime where
  micros : Int64
  nonneg : 0 ≤ micros.toInt
  le_day : micros.toInt ≤ 86400000000
deriving DecidableEq

/-- A DuckDB `Value`. -/
inductive Value where
  | null (type : LogicalType)
  | boolean (value : Bool)
  | tinyint (value : Int8)
  | smallint (value : Int16)
  | integer (value : Int32)
  | bigint (value : Int64)
  | hugeint (value : BitVec 128)
  | uhugeint (value : BitVec 128)
  | decimal (width scale : Nat) (value : Int)
  | float (value : Ieee.Datum Ieee.binary32)
  | double (value : Ieee.Datum Ieee.binary64)
  | varchar (value : String)
  | date (days : Int32)
  | time (t : Dtime)
  | timestamp (micros : Int64)
  | other (type : LogicalType) (h : type.id.isOpaque = true) (payload : Int)
deriving DecidableEq

/-- `Value::type()`. -/
def Value.type : Value → LogicalType
  | .null t => t
  | .boolean _ => ⟨.boolean, 0, 0⟩
  | .tinyint _ => ⟨.tinyint, 0, 0⟩
  | .smallint _ => ⟨.smallint, 0, 0⟩
  | .integer _ => ⟨.integer, 0, 0⟩
  | .bigint _ => ⟨.bigint, 0, 0⟩
  | .hugeint _ => ⟨.hugeint, 0, 0⟩
  | .uhugeint _ => ⟨.uhugeint, 0, 0⟩
  | .decimal w s _ => ⟨.decimal, w, s⟩
  | .float _ => ⟨.float, 0, 0⟩
  | .double _ => ⟨.double, 0, 0⟩
  | .varchar _ => ⟨.varchar, 0, 0⟩
  | .date _ => ⟨.date, 0, 0⟩
  | .time _ => ⟨.time, 0, 0⟩
  | .timestamp _ => ⟨.timestamp, 0, 0⟩
  | .other t _ _ => t

/-- `Value::IsNull()`. -/
def Value.isNull : Value → Bool
  | .null _ => true
  | _ => false

/-! ## Firebird columns -/

/-- The base SQL type of an `XSQLVAR` (`SQL_TEXT`, …); `other` is a code the headers do not name. -/
inductive SqlType where
  | text | varying | short | long | float | double | dFloat | timestamp | blob | array | quad
  | typeTime | typeDate | int64 | timestampTzEx | timeTzEx | int128 | timestampTz | timeTz
  | dec16 | dec34 | boolean | null
  | other (code : Int16)
deriving DecidableEq, Repr

/-- `FirebirdColumnDesc`. `characterSetId` is `0` for `CHARACTER SET NONE`, `-1` when unknown. -/
structure FirebirdColumnDesc where
  name : Bytes
  sqltype : SqlType
  sqlsubtype : Int16 := 0
  sqlscale : Int16 := 0
  sqllen : Int16 := 0
  characterSetId : Int16 := -1
  nullable : Bool := true
deriving DecidableEq

/-- How text columns of `CHARACTER SET NONE` are surfaced. -/
inductive NoneEncoding where
  | strict | win1252 | iso8859_1 | blob
deriving DecidableEq, Repr

/-- A column whose bytes have no declared encoding and that DuckDB sees as text: the test both
    `IsNoneTextColumnGated` and `FirebirdScanSupportsPushdownType` make after their `STRICT` exit. -/
def FirebirdColumnDesc.isNoneText (desc : FirebirdColumnDesc) : Bool :=
  desc.characterSetId = 0 &&
    (desc.sqltype = .text || desc.sqltype = .varying ||
      (desc.sqltype = .blob && desc.sqlsubtype = 1))

/-- `IsDecfloatType`. -/
def isDecfloatType (sqltype : SqlType) : Bool := sqltype = .dec16 || sqltype = .dec34

end FirebirdScan
