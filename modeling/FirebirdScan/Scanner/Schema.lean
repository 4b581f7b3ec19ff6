import FirebirdScan.Client.Metadata
import FirebirdScan.Scanner.PkCache

/-!
# `Scanner.Schema` — what a bind asks about its table

`LoadTableSchema` and `LoadAllTableSchemas` read columns, `ProbePrimaryKey` the key and its range, and
`ReconcileViewColumnTypes` asks whether the table is a view and then corrects its column types. The probes are
best effort: what throws inside them is answered by a default.
-/

namespace FirebirdScan

/-! ## Columns -/

/-- The vectors that `LoadTableSchema` fills. -/
structure TableColumns where
  names : List Bytes := []
  types : List LogicalType := []
  descs : List FirebirdColumnDesc := []

/-- One more column. -/
def TableColumns.push (columns : TableColumns) (mapped : FirebirdColumnDesc × LogicalType) : TableColumns where
  names := columns.names ++ [mapped.1.name]
  types := columns.types ++ [mapped.2]
  descs := columns.descs ++ [mapped.1]

/-- `FirebirdTableSchema`. -/
structure FirebirdTableSchema where
  tableName : Bytes
  isView : Bool
  columns : TableColumns

section

variable (server : Metadata) (noneEncoding : NoneEncoding) (numericWidenInt64 : Bool)

/-- The `while` loop of `LoadTableSchema`. -/
def readColumns (rows : List FieldRow) : TableColumns :=
  rows.foldl (fun columns row => columns.push (mapFirebirdColumn row noneEncoding numericWidenInt64)) {}

variable {noneEncoding numericWidenInt64} in
/-- One entry for each row, in every vector. -/
theorem readColumns_eq (rows : List FieldRow) :
    readColumns noneEncoding numericWidenInt64 rows =
      { names := rows.map FieldRow.name
        types := rows.map fun row => columnType row.desc noneEncoding numericWidenInt64
        descs := rows.map FieldRow.desc } := by
  have hloop (columns : TableColumns) :
      rows.foldl (fun columns row => columns.push (mapFirebirdColumn row noneEncoding numericWidenInt64)) columns =
        { names := columns.names ++ rows.map FieldRow.name
          types := columns.types ++ rows.map fun row => columnType row.desc noneEncoding numericWidenInt64
          descs := columns.descs ++ rows.map FieldRow.desc } := by
    induction rows generalizing columns with
    | nil => simp only [List.foldl_nil, List.map_nil, List.append_nil]
    | cons row rows ih =>
        rw [List.foldl_cons, ih]
        simp only [List.map_cons, TableColumns.push, mapFirebirdColumn, FieldRow.desc, List.append_assoc,
          List.singleton_append]
  exact hloop {}

def noColumnsMessage (tableName : Bytes) : Bytes :=
  utf8 "firebird_scan: table '" ++ tableName ++
    utf8 "' not found or has no readable columns (RDB$RELATION_FIELDS returned no rows)"

/-- The query of `LoadTableSchema`: the name is in upper case. -/
abbrev columnsQuery (tableName : Bytes) : MetadataQuery := .relationFields (toUpper tableName)

/-- `LoadTableSchema`. -/
def loadTableSchema (tableName : Bytes) : Except Bytes TableColumns := do
  let rows ← server (columnsQuery tableName)
  let columns := readColumns noneEncoding numericWidenInt64 rows
  if columns.names = [] then .error (noColumnsMessage tableName) else .ok columns

variable {server noneEncoding numericWidenInt64} in
/-- `LoadTableSchema` returns the columns it reads, if there are any. -/
theorem loadTableSchema_ok_iff {tableName : Bytes} {columns : TableColumns} :
    loadTableSchema server noneEncoding numericWidenInt64 tableName = .ok columns ↔
      ∃ rows, server (columnsQuery tableName) = .ok rows ∧
        readColumns noneEncoding numericWidenInt64 rows = columns ∧ columns.names ≠ [] := by
  unfold loadTableSchema
  rcases server (columnsQuery tableName) with error | rows
  · exact ⟨nofun, fun ⟨_, h, _⟩ => nomatch h⟩
  · show (if (readColumns noneEncoding numericWidenInt64 rows).names = [] then _ else _) = _ ↔ _
    constructor
    · intro h
      split_ifs at h with hnil
      obtain rfl := Except.ok.inj h
      exact ⟨rows, rfl, rfl, hnil⟩
    · rintro ⟨rows', h, rfl, hne⟩
      obtain rfl := Except.ok.inj h
      exact if_neg hne

/-- One row of `LoadAllTableSchemas`. `current` is the last schema, if there is one. -/
def addSchemaRow (result : List FirebirdTableSchema) (row : RelationFieldRow) : List FirebirdTableSchema :=
  let mapped := mapFirebirdColumn row.field noneEncoding numericWidenInt64
  let fresh : FirebirdTableSchema := ⟨row.relation, row.isView, TableColumns.push {} mapped⟩
  match result.getLast? with
  | none => result ++ [fresh]
  | some current =>
      if current.tableName ≠ row.relation then result ++ [fresh]
      else result.dropLast ++ [{ current with columns := current.columns.push mapped }]

/-- `LoadAllTableSchemas`. -/
def loadAllTableSchemas : Except Bytes (List FirebirdTableSchema) := do
  let rows ← server .allRelationFields
  .ok (rows.foldl (addSchemaRow noneEncoding numericWidenInt64) [])

end

/-! ## The primary key -/

section

variable (server : Metadata) (table : Bytes) (allColumnNames : List Bytes) (allColumnTypes : List LogicalType)

/-- The first query of `ProbePrimaryKey`: the name is in upper case. -/
abbrev keyQuery (table : Bytes) : MetadataQuery := .primaryKeyIndex (toUpper table)

/-- The last query of `ProbePrimaryKey`: the name is as it was given. -/
abbrev extremesQuery (table pkName : Bytes) : MetadataQuery := .keyExtremes pkName table

/-- The key column of `ProbePrimaryKey`: the only one of its index, and of a type that has ranges. -/
def keyColumn : Option Bytes := do
  let pkIndex ← (← (server (keyQuery table)).toOption)
  match ← (server (.indexSegments pkIndex)).toOption with
  | [pkName] =>
      let idx := allColumnNames.idxOf pkName
      let type ← if idx < allColumnNames.length then allColumnTypes[idx]? else none
      if type.id = .smallint ∨ type.id = .integer ∨ type.id = .bigint then some pkName else none
  | _ => none

theorem toInt_lt_of_not {lo hi : Int64} (h : ¬hi.toInt ≤ lo.toInt) : lo.toInt < hi.toInt := not_le.mp h

/-- The range of `ProbePrimaryKey`. -/
def keyRangeOf (pkName : Bytes) : Option PrimaryKeyInfo := do
  let row ← (← (server (extremesQuery table pkName)).toOption)
  let minV ← row.min
  let maxV ← row.max
  if row.sqltype = .short ∨ row.sqltype = .long ∨ row.sqltype = .int64 then
    if h : maxV.toInt ≤ minV.toInt then none
    else
      some { column := pkName, minValue := minV.toInt, maxValue := maxV.toInt,
             min_int64 := minV.le_toInt, min_lt_max := toInt_lt_of_not h, max_int64 := maxV.toInt_lt }
  else none

/-- `ProbePrimaryKey`. -/
def probePrimaryKey : Option PrimaryKeyInfo := do
  let pkName ← keyColumn server table allColumnNames allColumnTypes
  keyRangeOf server table pkName

/-- With a server that takes the extremes from the keys of the table, the probe is the one of the cache. -/
theorem probePrimaryKey_eq_cache {keys : List Int64} {t : SqlType} (ht : t = .short ∨ t = .long ∨ t = .int64)
    (h : ∀ pkName, server (extremesQuery table pkName) =
      .ok (some ⟨t, PkCache.minKey keys, PkCache.maxKey keys⟩)) :
    probePrimaryKey server table allColumnNames allColumnTypes =
      PkCache.probePrimaryKey (keyColumn server table allColumnNames allColumnTypes) keys := by
  unfold probePrimaryKey
  rcases keyColumn server table allColumnNames allColumnTypes with _ | pkName
  · rfl
  · show keyRangeOf server table pkName = _
    unfold keyRangeOf PkCache.probePrimaryKey
    rw [h pkName]
    rcases PkCache.minKey keys with _ | minV
    · rfl
    · rcases PkCache.maxKey keys with _ | maxV
      · rfl
      · exact if_pos ht

end

/-! ## Views -/

section

variable (server : Metadata) (tableName : Bytes) (numericWidenInt64 : Bool)

/-- `LookupObjectType`: the name comes in upper case. -/
def lookupObjectType (upperTable : Bytes) : Except Bytes (Option Bytes) := server (.objectType upperTable)

/-- The query of `LookupObjectType`, as `ReconcileViewColumnTypes` calls it. -/
abbrev typeQuery (tableName : Bytes) : MetadataQuery := .objectType (toUpper tableName)

/-- The live descriptor of a column, with the character set of the catalog. -/
def reconciled (live desc : FirebirdColumnDesc) : FirebirdColumnDesc :=
  { live with characterSetId := desc.characterSetId }

/-- The live describe of `ReconcileViewColumnTypes`. -/
def liveDescribe (columns : TableColumns) : TableColumns :=
  match server (.describe columns.names tableName) with
  | .error _ => columns
  | .ok live =>
      if live.length = columns.descs.length then
        let descs := List.zipWith reconciled live columns.descs
        { columns with descs := descs, types := descs.map fun desc => firebirdToDuckDBType desc numericWidenInt64 }
      else columns

/-- `ReconcileViewColumnTypes`. Only what is known not to be a view is left alone. -/
def reconcileViewColumnTypes (columns : TableColumns) : Bool × TableColumns :=
  match lookupObjectType server (toUpper tableName) with
  | .ok (some objectType) =>
      if objectType ≠ utf8 "VIEW" then (false, columns)
      else (true, liveDescribe server tableName numericWidenInt64 columns)
  | _ => (true, liveDescribe server tableName numericWidenInt64 columns)

end

/-! ## What is bound -/

/-- How a relation is reached: by `firebird_scan`, which asks for the type of every object, or as a table of an
    attached database, whose catalog query has told which relations are views. -/
inductive BindPath where
  | direct
  | attach (isView : Bool)

/-- Whether the columns go through `ReconcileViewColumnTypes`. -/
def BindPath.reconciles : BindPath → Bool
  | .direct => true
  | .attach isView => isView

/-- The columns that are bound, from the catalog rows of the relation. -/
def boundColumns (server : Metadata) (noneEncoding : NoneEncoding) (numericWidenInt64 : Bool) (path : BindPath)
    (tableName : Bytes) (rows : List FieldRow) : TableColumns :=
  let columns := readColumns noneEncoding numericWidenInt64 rows
  if path.reconciles then (reconcileViewColumnTypes server tableName numericWidenInt64 columns).2 else columns

end FirebirdScan
