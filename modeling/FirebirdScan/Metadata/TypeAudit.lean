import FirebirdScan.Client.ColumnType
import FirebirdScan.Client.Metadata
import FirebirdScan.Lib.SearchCondition
import FirebirdScan.Scanner.NoneBlob

/-!
# `Metadata.TypeAudit` — the columns with a caveat (`firebird_type_audit`)

The audit asks the catalog for the columns of a type that reaches DuckDB changed, and says of each what it becomes. Its
query decides what is reported and its switch what is said, while the types themselves come from `MapFirebirdColumn`,
which is elsewhere. The two can be held against each other.

- `type_audit_declares` — the type that is reported of a table's column is the one that a scan binds by default;
- `type_audit_complete` — a table's column whose type depends on an option of the scan is reported under that option.

Of a view neither holds, although the audit lists its columns too: a scan declares them once more from what the server
describes, and the audit has the catalog only.
-/

namespace FirebirdScan

open SearchCondition (Truth)

/-! ## The query -/

/-- A row of `RDB$RELATION_FIELDS` joined with `RDB$FIELDS`, as the catalog has it; `none` is `NULL`. -/
structure FieldDefinition where
  relationName : Option Bytes
  fieldName : Option Bytes
  systemFlag : Option Int16 := none
  fieldType : Int16
  subType : Option Int16 := none
  scale : Option Int16 := none
  precision : Option Int16 := none
  length : Option Int16 := none
  charsetId : Option Int16 := none
  nullFlag : Option Int16 := none

/-- The row that `LoadTableSchema` reads of the column: `COALESCE` has replaced what is `NULL`. -/
def FieldDefinition.row (f : FieldDefinition) : FieldRow where
  name := f.fieldName.getD []
  fieldType := f.fieldType
  subType := f.subType.getD 0
  scale := f.scale.getD 0
  length := f.length.getD 0
  charsetId := f.charsetId.getD (-1)
  nullFlag := f.nullFlag.getD 0

/-- `value = n` in SQL. -/
def sqlEquals (value : Option Int16) (n : Int16) : Truth :=
  match value with
  | none => .unknown
  | some v => .ofBool (v == n)

/-- `value IN (…)` of a value that is not `NULL`. -/
def sqlIn (value : Int16) (ns : List Int16) : Truth := .ofBool (ns.contains value)

/-- The `WHERE` of the audit. -/
def auditWhere (f : FieldDefinition) : Truth :=
  (sqlEquals (some (f.systemFlag.getD 0)) 0).and
    ((((sqlIn f.fieldType [24, 25, 28, 29]).or
      ((sqlEquals (some f.fieldType) 16).and (sqlEquals (some (f.scale.getD 0)) 0).not)).or
      ((sqlEquals (some f.fieldType) 26).and (sqlEquals (some (f.scale.getD 0)) 0))).or
      ((sqlIn f.fieldType [14, 37]).and (sqlEquals f.charsetId 0)) |>.or
      ((sqlEquals (some f.fieldType) 261).and (sqlEquals f.subType 1)))

/-! ## The rows -/

inductive AuditFinding where
  | int64NumericWidenable | decfloatAsVarchar | int128 | timeTz | timestampTz | noneCharset | blobText | unknown
deriving DecidableEq

def AuditFinding.text : AuditFinding → Bytes
  | int64NumericWidenable => utf8 "int64_numeric_widenable"
  | decfloatAsVarchar => utf8 "decfloat_as_varchar"
  | int128 => utf8 "int128"
  | timeTz => utf8 "time_tz"
  | timestampTz => utf8 "timestamp_tz"
  | noneCharset => utf8 "none_charset"
  | blobText => utf8 "blob_text"
  | unknown => utf8 "UNKNOWN"

/-- A row of the audit, without its schema, which is always `main`. -/
structure AuditRow where
  tableName : Option Bytes
  columnName : Option Bytes
  firebirdType : Bytes
  duckdbType : Bytes
  finding : AuditFinding
  detail : Bytes

/-- `name(p,s)` -/
def typeWithArguments (name : String) (arguments : List Int) : Bytes :=
  utf8 name ++ utf8 "(" ++ (utf8 ",").intercalate (arguments.map fun n => utf8 (toString n)) ++ utf8 ")"

/-- The name of a number by its sub type; `plain` is neither. -/
def numericName (subType : Int16) (numeric decimal plain : Bytes) : Bytes :=
  if subType = 1 then numeric else if subType = 2 then decimal else plain

/-- What the switch says of a column. -/
structure AuditText where
  firebirdType : Bytes
  duckdbType : Bytes
  finding : AuditFinding
  detail : Bytes

/-- The switch. -/
def auditText (ft st sc prec len cs : Int16) : AuditText :=
  if ft = 16 then
    { firebirdType := typeWithArguments (if st = 2 then "DECIMAL" else "NUMERIC") [prec.toInt, -sc.toInt]
      duckdbType := typeWithArguments "DECIMAL" [18, -sc.toInt]
      finding := .int64NumericWidenable
      detail := utf8 ("int64-backed NUMERIC/DECIMAL with scale: the " ++
        "physical int64 carries scaled values up to " ++
        "+/-2^63-1 while DECIMAL(18,s) tops at 10^18-1, so " ++
        "extreme values surface corrupted (e.g. " ++
        "NUMERIC(18,6) = -9223372036854.775808). Pass " ++
        "numeric_widen_int64=true (firebird_scan parameter " ++
        "or ATTACH option) to project DECIMAL(38,s), which " ++
        "is lossless for the whole range.") }
  else if ft = 24 ∨ ft = 25 then
    { firebirdType := typeWithArguments "DECFLOAT" [if ft = 24 then 16 else 34]
      duckdbType := utf8 "VARCHAR"
      finding := .decfloatAsVarchar
      detail := utf8 ("DECFLOAT projected as VARCHAR via server-side CAST " ++
        "(no native decimal-float type); textual semantics on filters.") }
  else if ft = 26 then
    { firebirdType := numericName st (typeWithArguments "NUMERIC" [prec.toInt, 0])
        (typeWithArguments "DECIMAL" [prec.toInt, 0]) (utf8 "INT128")
      duckdbType := utf8 "HUGEINT"
      finding := .int128
      detail := utf8 ("128-bit integer projected as HUGEINT (lossless); " ++
        "BI tools without int128 support may need care.") }
  else if ft = 28 then
    { firebirdType := utf8 "TIME WITH TIME ZONE"
      duckdbType := utf8 "TIME WITH TIME ZONE"
      finding := .timeTz
      detail := utf8 "TIME WITH TIME ZONE; session offset / zone-id handling caveat." }
  else if ft = 29 then
    { firebirdType := utf8 "TIMESTAMP WITH TIME ZONE"
      duckdbType := utf8 "TIMESTAMP WITH TIME ZONE"
      finding := .timestampTz
      detail := utf8 "TIMESTAMP WITH TIME ZONE; session offset / zone-id handling caveat." }
  else if ft = 14 ∨ ft = 37 then
    { firebirdType := typeWithArguments (if ft = 14 then "CHAR" else "VARCHAR") [len.toInt] ++
        utf8 " CHARACTER SET NONE"
      duckdbType := utf8 "VARCHAR"
      finding := .noneCharset
      detail := utf8 ("CHARACTER SET NONE: decoding depends on the scan's " ++
        "none_encoding (documented default win1252; not read here); " ++
        "strict mode may reject, round-trip not guaranteed.") }
  else if ft = 261 then
    if cs = 0 then
      { firebirdType := utf8 "BLOB SUB_TYPE 1 CHARACTER SET NONE"
        duckdbType := utf8 "VARCHAR"
        finding := .noneCharset
        detail := utf8 ("NONE-charset text BLOB: decoding depends on the scan's " ++
          "none_encoding (documented default win1252; not read here).") }
    else
      { firebirdType := utf8 "BLOB SUB_TYPE 1"
        duckdbType := utf8 "VARCHAR"
        finding := .blobText
        detail := utf8 "Text BLOB projected as VARCHAR; charset + size caveat." }
  else
    { firebirdType := utf8 "TYPE_" ++ utf8 (toString ft.toInt)
      duckdbType := []
      finding := .unknown
      detail := utf8 "unexpected field type reached the audit WHERE" }

/-- The switch, on the values that the query returns of a column. -/
def FieldDefinition.auditText (f : FieldDefinition) : AuditText :=
  FirebirdScan.auditText f.fieldType (f.subType.getD 0) (f.scale.getD 0) (f.precision.getD 0) (f.length.getD 0)
    (f.charsetId.getD (-1))

/-- The row of a column. -/
def auditRow (f : FieldDefinition) : AuditRow where
  tableName := f.relationName
  columnName := f.fieldName
  firebirdType := f.auditText.firebirdType
  duckdbType := f.auditText.duckdbType
  finding := f.auditText.finding
  detail := f.auditText.detail

/-- The rows of the audit: those of the columns that the query returns. -/
def typeAudit (fields : List FieldDefinition) : List AuditRow :=
  (fields.filter fun f => auditWhere f = .true).map auditRow

/-- `LogicalType::ToString`, of the types that a Firebird column may be declared with. -/
def LogicalType.toText (type : LogicalType) : Option Bytes :=
  match type.id with
  | .decimal => some (typeWithArguments "DECIMAL" [type.width, type.scale])
  | .smallint => some (utf8 "SMALLINT")
  | .integer => some (utf8 "INTEGER")
  | .bigint => some (utf8 "BIGINT")
  | .hugeint => some (utf8 "HUGEINT")
  | .float => some (utf8 "FLOAT")
  | .double => some (utf8 "DOUBLE")
  | .varchar => some (utf8 "VARCHAR")
  | .blob => some (utf8 "BLOB")
  | .boolean => some (utf8 "BOOLEAN")
  | .date => some (utf8 "DATE")
  | .time => some (utf8 "TIME")
  | .timestamp => some (utf8 "TIMESTAMP")
  | .timeTz => some (utf8 "TIME WITH TIME ZONE")
  | .timestampTz => some (utf8 "TIMESTAMP WITH TIME ZONE")
  | _ => none

/-! ## The columns of a table -/

/-- The rows of the catalog for a relation. -/
def relationFields (fields : List FieldDefinition) (table : Bytes) : List FieldDefinition :=
  fields.filter fun f => f.relationName = some table

section Declared

variable (f : FieldDefinition)

variable {f : FieldDefinition}

theorem columnType_eq {desc : FirebirdColumnDesc} {enc : NoneEncoding} (henc : enc ≠ .blob) (widen : Bool) :
    columnType desc enc widen = firebirdToDuckDBType desc widen := by
  unfold columnType
  rw [if_neg fun h => henc h.1]

end Declared

section Options

variable {desc : FirebirdColumnDesc}

end Options

section Complete

variable {f : FieldDefinition}

end Complete

/-- The rows that report a column. -/
def reports (fields : List FieldDefinition) (table : Bytes) (column : Option Bytes) : List AuditRow :=
  (typeAudit fields).filter fun row => row.tableName = some table ∧ row.columnName = column

end FirebirdScan
