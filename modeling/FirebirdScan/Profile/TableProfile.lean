import FirebirdScan.Scanner.Partitions
import FirebirdScan.Scanner.Schema
import FirebirdScan.Scanner.ViewAnalysis

/-!
# `Profile.TableProfile` — what is said of a table (`BuildProfile`)

`firebird_profile_table` describes one relation: its keys, its indexes, the columns to filter on, and what a scan
of it costs. Three probes of the catalog are best effort, and so is the exact row count: what throws inside them is
swallowed, and the profile goes on with what there is.

`BuildProfile` is one function in the source; each of its numbered sections has a definition here.
-/

namespace FirebirdScan

/-! ## The profile -/

/-- The vocabulary of `severity` and of `full_scan_risk`. -/
inductive Severity where
  | low | medium | high
deriving DecidableEq, Repr

/-- The `code` of an alert. -/
inductive AlertCode where
  | viewNoScanLever | viewDefinitionNotInspected | viewContainsJoin | viewContainsAggregation | viewNoFilter
  | partitionAdvisory | serverParallelismCaveat | pkRangeSmallSerial
  | noPrimaryKey | compositePkSerial | numericPkNoRangeSerial | nonNumericPkSerial
  | filterBeforeScan | materializeBeforeScan | exactCountExecuted | noIndexedFilterColumns | noneCharsetTextColumns
deriving DecidableEq, Repr

/-- The text of a code. -/
def AlertCode.text : AlertCode → String
  | viewNoScanLever => "view_no_scan_lever"
  | viewDefinitionNotInspected => "view_definition_not_inspected"
  | viewContainsJoin => "view_contains_join"
  | viewContainsAggregation => "view_contains_aggregation"
  | viewNoFilter => "view_no_filter"
  | partitionAdvisory => "partition_advisory"
  | serverParallelismCaveat => "server_parallelism_caveat"
  | pkRangeSmallSerial => "pk_range_small_serial"
  | noPrimaryKey => "no_primary_key"
  | compositePkSerial => "composite_pk_serial"
  | numericPkNoRangeSerial => "numeric_pk_no_range_serial"
  | nonNumericPkSerial => "non_numeric_pk_serial"
  | filterBeforeScan => "filter_before_scan"
  | materializeBeforeScan => "materialize_before_scan"
  | exactCountExecuted => "exact_count_executed"
  | noIndexedFilterColumns => "no_indexed_filter_columns"
  | noneCharsetTextColumns => "none_charset_text_columns"

/-- `Alert`. -/
structure Alert where
  code : AlertCode
  severity : Severity
  message : Bytes
deriving DecidableEq

/-- `row_estimate_method`; `none` is the empty text. -/
inductive RowEstimateMethod where
  | none | pkRangeUpperBound | exactCount
deriving DecidableEq, Repr

/-- `TableProfile`. -/
structure TableProfile where
  tableName : Bytes
  objectType : Bytes
  hasPrimaryKey : Bool := false
  primaryKeyColumns : List Bytes := []
  indexes : List Bytes := []
  watermarkCandidates : List Bytes := []
  filterCandidates : List Bytes := []
  fullScanRisk : Severity := .medium
  recommendedPartitions : Int32 := 1
  estimatedRows : Int64 := -1
  rowEstimateMethod : RowEstimateMethod := .none
  alerts : List Alert := []
deriving DecidableEq

namespace TableProfile

variable (p : TableProfile)

/-- `AddAlert`. -/
def addAlert (code : AlertCode) (severity : Severity) (message : Bytes) : TableProfile :=
  { p with alerts := p.alerts ++ [⟨code, severity, message⟩] }

/-- The codes of the alerts. -/
def codes : List AlertCode := p.alerts.map Alert.code

/-- The column `estimated_rows`: `none` is `NULL`. -/
def emittedRows : Option Int64 := if p.estimatedRows < 0 then .none else some p.estimatedRows

end TableProfile

/-! ## The server -/

/-- The queries of `BuildProfile` that nothing else asks. -/
inductive ProfileQuery where
  /-- `LoadIndexes`, its two queries -/
  | indexes (relation : Bytes)
  | segments (index : Bytes)
  /-- `AnalyzeViewSource` -/
  | viewSource (relation : Bytes)
  /-- the exact row count -/
  | rowCount (relation : Bytes)
deriving DecidableEq

/-- The text that is sent. -/
def ProfileQuery.sql : ProfileQuery → Bytes
  | indexes relation =>
      utf8 ("SELECT TRIM(ri.RDB$INDEX_NAME), " ++
        "       COALESCE(ri.RDB$UNIQUE_FLAG, 0), " ++
        "       CASE WHEN rc.RDB$CONSTRAINT_TYPE = 'PRIMARY KEY' " ++
        "            THEN 1 ELSE 0 END " ++
        "  FROM RDB$INDICES ri " ++
        "  LEFT JOIN RDB$RELATION_CONSTRAINTS rc " ++
        "         ON rc.RDB$INDEX_NAME = ri.RDB$INDEX_NAME " ++
        "        AND rc.RDB$CONSTRAINT_TYPE = 'PRIMARY KEY' " ++
        " WHERE ri.RDB$RELATION_NAME = ") ++ sqlLiteral relation ++ utf8 " " ++ utf8 " ORDER BY ri.RDB$INDEX_NAME"
  | segments index => (MetadataQuery.indexSegments index).sql
  | viewSource relation =>
      utf8 ("SELECT RDB$VIEW_SOURCE FROM RDB$RELATIONS " ++ " WHERE RDB$RELATION_NAME = ") ++ sqlLiteral relation
  | rowCount relation => utf8 "SELECT COUNT(*) FROM " ++ quoteIdent relation

/-- A row of the index list. -/
structure IndexRow where
  name : Bytes
  uniqueFlag : Int16
  pkFlag : Int16

/-- What a cursor delivers, and what it throws if it does not reach the end. -/
structure FetchedRows (α : Type) where
  rows : List α
  error : Option Bytes := none

/-- What a query returns. The first row of a count is `none` where there is none, and its value is where it is
    `NULL`. -/
@[reducible] def ProfileQuery.Answer : ProfileQuery → Type
  | .indexes _ => FetchedRows IndexRow
  | .segments _ => FetchedRows Bytes
  | .viewSource _ => ViewSource
  | .rowCount _ => Except Bytes (Option (Option Int64))

/-- The server, as each part of `BuildProfile` finds it: `ProbePrimaryKey` may fail where the index list did not. -/
structure ProfileServer where
  schema : Metadata
  answer : (q : ProfileQuery) → q.Answer
  probe : Metadata

/-- How `BuildProfile` ends without a profile: it throws, or its next step has no defined result. -/
inductive ProfileFailure where
  | thrown (message : Bytes)
  | undefined
deriving DecidableEq

/-! ## Indexes -/

/-- `IndexMeta`. -/
structure IndexMeta where
  name : Bytes
  columns : List Bytes
  unique : Bool
  isPk : Bool

section Source

variable (server : ProfileServer) (upper : Bytes) (columns : TableColumns)

/-- `LoadIndexes`. A segment cursor that throws leaves the columns that it has delivered. -/
def loadIndexes : List IndexMeta :=
  let listed : FetchedRows IndexRow := server.answer (.indexes upper)
  match listed.error with
  | some _ => []
  | none =>
      listed.rows.map fun row =>
        { name := row.name
          columns := (server.answer (.segments row.name)).rows
          unique := decide (row.uniqueFlag = (1 : Int16))
          isPk := decide (row.pkFlag = (1 : Int16)) }

/-- `FormatIndex`. -/
def formatIndex (idx : IndexMeta) : Bytes :=
  idx.name ++ utf8 " (" ++
    (if idx.columns = [] then utf8 "expression" else (utf8 ", ").intercalate idx.columns) ++ utf8 ")" ++
    (if idx.unique then utf8 " UNIQUE" else []) ++ if idx.isPk then utf8 " PK" else []

/-- One round of the loop over the indexes: the last index of a primary key gives the key columns. -/
def addIndex (p : TableProfile) (idx : IndexMeta) : TableProfile :=
  let p := { p with indexes := p.indexes ++ [formatIndex idx] }
  if idx.isPk then { p with hasPrimaryKey := true, primaryKeyColumns := idx.columns } else p

/-! ## Candidates -/

/-- `IsWatermarkType`. -/
def isWatermarkType (t : LogicalType) : Bool :=
  t.id ∈ [.smallint, .integer, .bigint, .hugeint, .date, .timestamp, .timestampTz]

/-- `IsCheapFilterType`. -/
def isCheapFilterType (desc : FirebirdColumnDesc) (t : LogicalType) : Bool :=
  if t.id = .varchar ∧ desc.characterSetId = 0 then false
  else t.id ∈ [.smallint, .integer, .bigint, .hugeint, .date, .timestamp, .timestampTz, .decimal, .varchar]

/-- The columns, with their types. -/
def TableColumns.typed : List (Bytes × LogicalType) := columns.names.zip columns.types

/-- The candidates for a watermark, and for a filter: the columns of an index. -/
def addCandidates (isView : Bool) (indexes : List IndexMeta) (p : TableProfile) : TableProfile :=
  let indexedCols := indexes.flatMap IndexMeta.columns
  { p with
    watermarkCandidates := (columns.typed.filter fun c => isWatermarkType c.2).map Prod.fst
    filterCandidates := ((columns.typed.zip columns.descs).filter fun c =>
      !isView && indexedCols.contains c.1.1 && isCheapFilterType c.2 c.1.2).map fun c => c.1.1 }

/-! ## The risk of a full scan -/

/-- What the text of a view shows. -/
def addViewShape (va : ViewAnalysis) (p : TableProfile) : TableProfile :=
  let p :=
    if va.hasJoin then
      p.addAlert .viewContainsJoin .high (utf8 ("View contains a JOIN: a scan may materialize a join " ++
        "server-side on every read. Prefer materializing through " ++ "DuckDB/dbt/Parquet for repeated analytics."))
    else p
  let p :=
    if va.hasGroupBy || va.hasAggregate then
      p.addAlert .viewContainsAggregation .high (utf8 ("View contains aggregation (GROUP BY or aggregate " ++
        "functions): each scan recomputes the aggregate " ++ "server-side. Materialize the result if queried " ++
        "repeatedly."))
    else p
  if !va.hasWhere then
    p.addAlert .viewNoFilter .medium (utf8 ("View has no WHERE filter in its definition: a scan reads " ++
      "the full underlying data set. Push a selective filter or " ++ "materialize."))
  else p

/-- A view. -/
def profileView (p : TableProfile) : TableProfile :=
  let p := { p with fullScanRisk := .high, recommendedPartitions := 1 }
  let p := p.addAlert .viewNoScanLever .high (utf8 (
    "Object is a VIEW: no primary key, indexes, or partition lever. " ++
    "A scan reads the full view definition. Consider materializing " ++
    "through DuckDB/dbt/Parquet for repeated analytics."))
  let va := analyzeViewSource (server.answer (.viewSource upper))
  if !va.inspected then
    p.addAlert .viewDefinitionNotInspected .medium (utf8 (
      "View definition not inspected (RDB$VIEW_SOURCE unavailable " ++
      "or unreadable): join/aggregation/filter shape is unknown. " ++ "Treat as potentially heavy."))
  else addViewShape va p

/-- The row estimate of a key range: the number of its keys, computed in `int64_t`. -/
def rangeEstimate (minV maxV : Int) : Option Int := do
  let span ← int64 (maxV - minV)
  int64 (span + 1)

/-- A base table with a key range. -/
def profileRange (hw : UInt32) (pk : PrimaryKeyInfo) (p : TableProfile) : Except ProfileFailure TableProfile :=
  match pickPartitionCount hw pk.minValue pk.maxValue, rangeEstimate pk.minValue pk.maxValue with
  | some parts, some estimate =>
      let p :=
        { p with
          recommendedPartitions := Int32.ofNat parts
          fullScanRisk := if parts > 1 then .medium else .low
          estimatedRows := Int64.ofInt estimate
          rowEstimateMethod := .pkRangeUpperBound }
      if parts > 1 then
        let p := p.addAlert .partitionAdvisory .low (utf8 "Recommended partitions=" ++ utf8 (toString parts) ++
          utf8 (" is advisory and derived from the PK MIN/MAX range width, " ++
            "not the row count. The PK range may be sparse (gaps, " ++
            "deletes), so partitions can be uneven. Validate against the " ++
            "live server before scanning a production database in " ++ "parallel."))
        .ok (p.addAlert .serverParallelismCaveat .low (utf8 ("If Firebird server-side parallelism is already " ++
          "enabled/configured (e.g. Firebird 5 ParallelWorkers), prefer " ++
          "starting with partitions=1 or benchmark before combining " ++ "server-side and client-side parallelism.")))
      else
        .ok (p.addAlert .pkRangeSmallSerial .low (utf8 ("Primary key range is small relative to the scanner's " ++
          "partitioning threshold: serial scan recommended; " ++
          "partitioning would add overhead without meaningful " ++ "parallelism.")))
  | _, _ => .error .undefined

/-- The column has an integer type. -/
def pkNumeric (pkCol : Bytes) : Bool :=
  match columns.typed.find? fun c => c.1 = pkCol with
  | some c => c.2.id ∈ [.smallint, .integer, .bigint]
  | none => false

/-- A base table without a key range. -/
def profileSerial (p : TableProfile) : Except ProfileFailure TableProfile :=
  let p := { p with fullScanRisk := .high, recommendedPartitions := 1 }
  if !p.hasPrimaryKey then
    .ok (p.addAlert .noPrimaryKey .high (utf8 ("No primary key detected: a scan is a full table scan and " ++
      "cannot be range-partitioned. Add a selective WHERE on an " ++ "indexed column, or materialize the table.")))
  else if p.primaryKeyColumns.length > 1 then
    .ok (p.addAlert .compositePkSerial .low (utf8 ("Primary key is composite: the parallel-scan lever needs a " ++
      "single-column numeric PK. Scans run serially.")))
  else
    match p.primaryKeyColumns with
    -- `front()` of an empty vector
    | [] => .error .undefined
    | pkCol :: _ =>
        if pkNumeric columns pkCol then
          .ok (p.addAlert .numericPkNoRangeSerial .low (utf8 (
            "Primary key is single-column numeric but has no usable " ++
            "MIN/MAX range (empty or near-empty table): no partition " ++ "lever, scans run serially.")))
        else
          .ok (p.addAlert .nonNumericPkSerial .low (utf8 ("Primary key is single-column but non-numeric: the " ++
            "parallel-scan lever needs a numeric PK. Scans run " ++ "serially.")))

/-! ## Recommendations -/

/-- The candidates for a filter, then those for a watermark that are not among them. -/
def recommendedColumns (p : TableProfile) : List Bytes :=
  p.watermarkCandidates.foldl (fun recs w => if recs.contains w then recs else recs ++ [w]) p.filterCandidates

/-- What to do about a base table with a high risk. -/
def addRecommendation (isView : Bool) (p : TableProfile) : TableProfile :=
  if !isView && decide (p.fullScanRisk = .high) then
    let recs := recommendedColumns p
    if recs ≠ [] then
      p.addAlert .filterBeforeScan .medium (utf8 ("Full-scan risk is HIGH and this table has filterable " ++
        "columns: push a selective WHERE on one of [") ++ (utf8 ", ").intercalate recs ++
        utf8 ("] before scanning. A filter reduces rows read even when " ++
          "the column carries no index; without one every row " ++ "travels the wire."))
    else
      p.addAlert .materializeBeforeScan .high (utf8 ("Full-scan risk is HIGH and no cheap filter or watermark " ++
        "column exists: every scan reads every row. Repeated " ++
        "analytics should materialize this table through DuckDB " ++
        "(CREATE TABLE AS / COPY TO PARQUET) instead of scanning " ++ "it live."))
  else p

/-- The exact row count. A count that fails leaves the estimate. -/
def countRows (p : TableProfile) : TableProfile :=
  match server.answer (.rowCount upper) with
  | .ok (some (some n)) =>
      { p with estimatedRows := n, rowEstimateMethod := .exactCount }.addAlert .exactCountExecuted .low (utf8 (
        "Exact row count executed: COUNT(*) ran server-side on " ++
        "the source table because exact_row_count=true. This " ++
        "reads every row on the server; request it knowingly."))
  | _ => p

/-- The generic caveats. -/
def addCaveats (isView : Bool) (p : TableProfile) : TableProfile :=
  let p :=
    if decide (p.filterCandidates = []) && !isView then
      p.addAlert .noIndexedFilterColumns .medium (utf8 (
        "No cheap indexed filter columns detected: WHERE clauses may not " ++
        "use an index and could force a full scan."))
    else p
  if columns.descs.any fun d => d.characterSetId = 0 then
    p.addAlert .noneCharsetTextColumns .medium (utf8 ("Relation has CHARACTER SET NONE text columns: text-filter " ++
      "pushdown is disabled for those columns (UTF-8 literals may not " ++ "round-trip against raw NONE bytes)."))
  else p

end Source

/-! ## The whole -/

def relationNotFound (tableName : Bytes) : Bytes :=
  utf8 "firebird_profile_table: relation '" ++ tableName ++ utf8 ("' not found in the attached " ++
    "Firebird catalog (RDB$RELATIONS has no matching row).")

/-- What `BuildProfile` does not catch. -/
def thrown {α : Type} : Except Bytes α → Except ProfileFailure α
  | .ok a => .ok a
  | .error message => .error (.thrown message)

/-- The profile in front of the risk: names, indexes and candidates. -/
def describedProfile (server : ProfileServer) (upper objectType : Bytes) (columns : TableColumns) : TableProfile :=
  let isView := decide (objectType = utf8 "VIEW")
  let indexes := if isView then [] else loadIndexes server upper
  addCandidates columns isView indexes (indexes.foldl addIndex { tableName := upper, objectType })

/-- The risk of a full scan: a view, a table with a key range, or any other table. -/
def profileRisk (hw : UInt32) (server : ProfileServer) (upper : Bytes) (columns : TableColumns) (isView : Bool)
    (p : TableProfile) : Except ProfileFailure TableProfile :=
  if isView then .ok (profileView server upper p)
  else
    match probePrimaryKey server.probe upper columns.names columns.types with
    | some pk => profileRange hw pk p
    | none => profileSerial columns p

/-- The sections behind the risk. -/
def finishProfile (server : ProfileServer) (upper : Bytes) (columns : TableColumns) (isView exactRowCount : Bool)
    (p : TableProfile) : TableProfile :=
  let p := addRecommendation isView p
  let p := if exactRowCount then countRows server upper p else p
  addCaveats columns isView p

/-- `BuildProfile`. -/
def buildProfile (hw : UInt32) (server : ProfileServer) (tableName : Bytes) (noneEncoding : NoneEncoding)
    (exactRowCount : Bool) : Except ProfileFailure TableProfile := do
  let upper := toUpper tableName
  match ← thrown (lookupObjectType server.schema upper) with
  | none => .error (.thrown (relationNotFound tableName))
  | some objectType =>
      let isView := decide (objectType = utf8 "VIEW")
      let columns ← thrown (loadTableSchema server.schema noneEncoding false upper)
      let p ← profileRisk hw server upper columns isView (describedProfile server upper objectType columns)
      .ok (finishProfile server upper columns isView exactRowCount p)

/-- The profile of a relation that exists, with readable columns. -/
theorem buildProfile_ok_iff (hw : UInt32) (server : ProfileServer) {tableName objectType : Bytes}
    (noneEncoding : NoneEncoding) (exactRowCount : Bool) {columns : TableColumns}
    (hlookup : lookupObjectType server.schema (toUpper tableName) = .ok (some objectType))
    (hcolumns : loadTableSchema server.schema noneEncoding false (toUpper tableName) = .ok columns)
    {profile : TableProfile} :
    buildProfile hw server tableName noneEncoding exactRowCount = .ok profile ↔
      ∃ p, profileRisk hw server (toUpper tableName) columns (decide (objectType = utf8 "VIEW"))
          (describedProfile server (toUpper tableName) objectType columns) = .ok p ∧
        finishProfile server (toUpper tableName) columns (decide (objectType = utf8 "VIEW")) exactRowCount p =
          profile := by
  unfold buildProfile
  dsimp only
  rw [hlookup, hcolumns]
  show (profileRisk hw server (toUpper tableName) columns _ _).bind _ = _ ↔ _
  rcases profileRisk hw server (toUpper tableName) columns (decide (objectType = utf8 "VIEW"))
    (describedProfile server (toUpper tableName) objectType columns) with failure | p
  · exact iff_of_false nofun fun ⟨_, h, _⟩ => nomatch h
  · constructor
    · intro h
      exact ⟨p, rfl, Except.ok.inj h⟩
    · rintro ⟨q, hq, rfl⟩
      obtain rfl := Except.ok.inj hq
      rfl

end FirebirdScan
