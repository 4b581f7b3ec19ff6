import FirebirdScan.Types

/-!
# `Client.ColumnType` — the DuckDB type of a Firebird column (`FirebirdToDuckDBType`, `MapFirebirdColumn`)

Firebird keeps `NUMERIC` and `DECIMAL` as integers with a decimal scale; DuckDB keeps them as integers under a
type that has a width and a scale. Where the scale does not fit the width, the column is declared `DOUBLE`.

What an element of a vector looks like follows from the declared type alone (`LogicalType.internalType`).
-/

namespace FirebirdScan

/-! ## Physical types -/

/-- `PhysicalType`, the layouts of an element that has one of its own. -/
inductive PhysicalType where
  | bool | int8 | int16 | int32 | int64 | uint8 | uint16 | uint32 | uint64 | int128 | uint128
  | float | double | varchar | interval
deriving DecidableEq, Repr

/-- `LogicalType::InternalType`, which is DuckDB's. `none` is a type of which an element is more than one
    layout: the nested types, and `ENUM`, which takes its size from its dictionary. -/
def LogicalType.internalType (type : LogicalType) : Option PhysicalType :=
  match type.id with
  | .boolean => some .bool
  | .tinyint => some .int8
  | .utinyint => some .uint8
  | .smallint => some .int16
  | .usmallint => some .uint16
  | .sqlNull | .date | .integer => some .int32
  | .uinteger => some .uint32
  | .bigint | .time | .timestamp | .timestampSec | .timestampMs | .timestampNs | .timeTz | .timestampTz =>
      some .int64
  | .ubigint => some .uint64
  | .uhugeint => some .uint128
  | .hugeint | .uuid => some .int128
  | .float => some .float
  | .double => some .double
  | .decimal =>
      if type.width ≤ 4 then some .int16
      else if type.width ≤ 9 then some .int32
      else if type.width ≤ 18 then some .int64
      else if type.width ≤ 38 then some .int128
      else none
  | .varchar | .blob | .bit => some .varchar
  | .interval => some .interval
  | .struct | .list | .map | .enum | .union | .array => none

/-! ## Scaled integers -/

/-- `LogicalType::DECIMAL`, whose arguments are `uint8_t`. -/
def decimal (width scale : Int) : LogicalType := ⟨.decimal, (width % 256).toNat, (scale % 256).toNat⟩

/-- The `width` of `ScaledIntegerToDecimal`. The hint is the number of bytes of the integer. -/
def scaledWidth (precisionHint : Nat) (widenInt64 : Bool) : Nat :=
  match precisionHint with
  | 2 => 4
  | 4 => 9
  | 8 => if widenInt64 then 38 else 18
  | _ => 18

/-- `ScaledIntegerToDecimal`. -/
def scaledIntegerToDecimal (precisionHint : Nat) (sqlscale : Int16) (widenInt64 : Bool) : LogicalType :=
  if sqlscale = 0 then
    match precisionHint with
    | 2 => ⟨.smallint, 0, 0⟩
    | 4 => ⟨.integer, 0, 0⟩
    | _ => ⟨.bigint, 0, 0⟩
  else if -sqlscale.toInt < 0 ∨ -sqlscale.toInt > scaledWidth precisionHint widenInt64 then ⟨.double, 0, 0⟩
  else decimal (scaledWidth precisionHint widenInt64) (-sqlscale.toInt)

theorem scaledIntegerToDecimal_zero (precisionHint : Nat) {sqlscale : Int16} (widenInt64 : Bool)
    (h : sqlscale = 0) :
    scaledIntegerToDecimal precisionHint sqlscale widenInt64 = scaledIntegerToDecimal precisionHint 0 false := by
  subst h
  rfl

theorem decimal_eq {width scale : Nat} (hwidth : width < 256) (hscale : scale < 256) :
    decimal width scale = ⟨.decimal, width, scale⟩ := by
  rw [decimal, Int.emod_eq_of_lt (by omega) (by omega), Int.emod_eq_of_lt (by omega) (by omega)]
  rfl

theorem scaledWidth_le (precisionHint : Nat) (widenInt64 : Bool) : scaledWidth precisionHint widenInt64 ≤ 38 := by
  unfold scaledWidth
  split
  · decide
  · decide
  · split_ifs <;> decide
  · decide

theorem sqlscale_eq_zero {sqlscale : Int16} : sqlscale = 0 ↔ sqlscale.toInt = 0 := by
  rw [← Int16.toInt_inj, Int16.toInt_zero]

/-- A scale within the width makes a `DECIMAL`. -/
theorem scaledIntegerToDecimal_carried {precisionHint : Nat} {sqlscale : Int16} {widenInt64 : Bool}
    (hlo : -(scaledWidth precisionHint widenInt64 : Int) ≤ sqlscale.toInt) (hhi : sqlscale.toInt < 0) :
    scaledIntegerToDecimal precisionHint sqlscale widenInt64 =
      ⟨.decimal, scaledWidth precisionHint widenInt64, (-sqlscale.toInt).toNat⟩ := by
  have hne : sqlscale ≠ 0 := fun h => by rw [sqlscale_eq_zero.mp h] at hhi; omega
  have hwidth := scaledWidth_le precisionHint widenInt64
  have hscale : -sqlscale.toInt = ((-sqlscale.toInt).toNat : Int) := by omega
  unfold scaledIntegerToDecimal
  rw [if_neg hne, if_neg (by omega), hscale]
  exact decimal_eq (by omega) (by omega)

/-- Any other scale makes a `DOUBLE`. -/
theorem scaledIntegerToDecimal_degrades {precisionHint : Nat} {sqlscale : Int16} {widenInt64 : Bool}
    (h : ¬(-(scaledWidth precisionHint widenInt64 : Int) ≤ sqlscale.toInt ∧ sqlscale.toInt ≤ 0)) :
    scaledIntegerToDecimal precisionHint sqlscale widenInt64 = ⟨.double, 0, 0⟩ := by
  have hne : sqlscale ≠ 0 := fun hs => h (by rw [sqlscale_eq_zero.mp hs]; omega)
  unfold scaledIntegerToDecimal
  rw [if_neg hne, if_pos (by omega)]

/-- `FirebirdToDuckDBType`. -/
def firebirdToDuckDBType (col : FirebirdColumnDesc) (numericWidenInt64 : Bool) : LogicalType :=
  match col.sqltype with
  | .text | .varying => ⟨.varchar, 0, 0⟩
  | .short => scaledIntegerToDecimal 2 col.sqlscale false
  | .long => scaledIntegerToDecimal 4 col.sqlscale false
  | .int64 => scaledIntegerToDecimal 8 col.sqlscale numericWidenInt64
  -- unlike the others, with no test for a positive scale
  | .int128 =>
      if col.sqlscale = 0 then ⟨.hugeint, 0, 0⟩
      else if -col.sqlscale.toInt > 38 then ⟨.double, 0, 0⟩
      else decimal 38 (-col.sqlscale.toInt)
  | .float => ⟨.float, 0, 0⟩
  | .dFloat | .double => ⟨.double, 0, 0⟩
  | .dec16 | .dec34 => ⟨.varchar, 0, 0⟩
  | .timestamp => ⟨.timestamp, 0, 0⟩
  | .timestampTz | .timestampTzEx => ⟨.timestampTz, 0, 0⟩
  | .typeDate => ⟨.date, 0, 0⟩
  | .typeTime => ⟨.time, 0, 0⟩
  | .timeTz | .timeTzEx => ⟨.timeTz, 0, 0⟩
  | .boolean => ⟨.boolean, 0, 0⟩
  | .blob => if col.sqlsubtype = 1 then ⟨.varchar, 0, 0⟩ else ⟨.blob, 0, 0⟩
  | _ => ⟨.varchar, 0, 0⟩

/-! ## Catalog rows -/

/-- The `SQL_…` constants. -/
def sqlTypeCodes : List (Int16 × SqlType) :=
  [(452, .text), (448, .varying), (500, .short), (496, .long), (482, .float), (480, .double), (530, .dFloat),
   (510, .timestamp), (520, .blob), (540, .array), (550, .quad), (560, .typeTime), (570, .typeDate),
   (580, .int64), (32748, .timestampTzEx), (32750, .timeTzEx), (32752, .int128), (32754, .timestampTz),
   (32756, .timeTz), (32760, .dec16), (32762, .dec34), (32764, .boolean), (32766, .null)]

/-- The codes of `RDB$FIELD_TYPE` that `MapFirebirdColumn` translates. -/
def fieldTypeCodes : List (Int16 × SqlType) :=
  [(7, .short), (8, .long), (9, .quad), (10, .float), (11, .dFloat), (12, .typeDate), (13, .typeTime),
   (14, .text), (16, .int64), (23, .boolean), (24, .dec16), (25, .dec34), (26, .int128), (27, .double),
   (28, .timeTz), (29, .timestampTz), (30, .timeTzEx), (31, .timestampTzEx), (35, .timestamp),
   (37, .varying), (261, .blob)]

/-- The switch of `MapFirebirdColumn`; a code it does not name is left as it is. -/
def sqltypeOfFieldType (fieldType : Int16) : SqlType :=
  match fieldTypeCodes.lookup fieldType with
  | some sqltype => sqltype
  | none => (sqlTypeCodes.lookup fieldType).getD (.other fieldType)

/-- A row of `RDB$RELATION_FIELDS` joined with `RDB$FIELDS`. -/
structure FieldRow where
  name : Bytes
  fieldType : Int16
  subType : Int16 := 0
  scale : Int16 := 0
  length : Int16 := 0
  charsetId : Int16 := -1
  nullFlag : Int16 := 0

/-- The descriptor that `MapFirebirdColumn` makes of a row. -/
def FieldRow.desc (row : FieldRow) : FirebirdColumnDesc where
  name := row.name
  sqltype := sqltypeOfFieldType row.fieldType
  sqlsubtype := row.subType
  sqlscale := row.scale
  sqllen := row.length
  characterSetId := row.charsetId
  nullable := row.nullFlag ≠ 1

/-- The type that `MapFirebirdColumn` gives a column: text without a character set is surfaced as raw bytes
    under `none_encoding = 'blob'`. -/
def columnType (desc : FirebirdColumnDesc) (noneEncoding : NoneEncoding) (numericWidenInt64 : Bool) :
    LogicalType :=
  if noneEncoding = .blob ∧ desc.isNoneText = true then ⟨.blob, 0, 0⟩
  else firebirdToDuckDBType desc numericWidenInt64

/-- `MapFirebirdColumn`. -/
def mapFirebirdColumn (row : FieldRow) (noneEncoding : NoneEncoding) (numericWidenInt64 : Bool) :
    FirebirdColumnDesc × LogicalType :=
  (row.desc, columnType row.desc noneEncoding numericWidenInt64)

end FirebirdScan
