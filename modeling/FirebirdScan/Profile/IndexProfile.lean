import FirebirdScan.Lib.Ieee
import FirebirdScan.Lib.Raising
import FirebirdScan.Profile.Alerts

/-!
# `Profile.IndexProfile` — what is said of the indexes of a table (`BuildIndexProfile`)

`firebird_index_profile` gives a row for each index, and for a table without any a row of its own. Unlike the profile of
the table it swallows nothing: a query that fails is not taken for a table without indexes (`index_profile_rows`).

Both profilers name columns to filter on, one those with an index and the other those without.
`filter_candidates_partition` says that between them they name every such column once.
-/

namespace FirebirdScan

open Raising

/-! ## The server -/

/-- The queries of `BuildIndexProfile` that nothing else asks. -/
inductive IndexProfileQuery where
  /-- `RelationExists` -/
  | relationExists (relation : Bytes)
  /-- `LoadIndexRows`, its two queries -/
  | indexes (relation : Bytes)
  | segments (index : Bytes)
deriving DecidableEq

/-- The text that is sent. -/
def IndexProfileQuery.sql : IndexProfileQuery → Bytes
  | relationExists relation =>
      utf8 "SELECT 1 FROM RDB$RELATIONS WHERE RDB$RELATION_NAME = " ++ sqlLiteral relation
  | indexes relation =>
      utf8 ("SELECT TRIM(ri.RDB$INDEX_NAME), " ++
        "       COALESCE(ri.RDB$UNIQUE_FLAG, 0), " ++
        "       CASE WHEN ri.RDB$INDEX_INACTIVE IS NULL " ++
        "                 OR ri.RDB$INDEX_INACTIVE = 0 THEN 1 ELSE 0 END, " ++
        "       CASE WHEN pk.RDB$CONSTRAINT_TYPE = 'PRIMARY KEY' " ++
        "            THEN 1 ELSE 0 END, " ++
        "       CASE WHEN fk.RDB$CONSTRAINT_TYPE = 'FOREIGN KEY' " ++
        "            THEN 1 ELSE 0 END, " ++
        "       ri.RDB$STATISTICS " ++
        "  FROM RDB$INDICES ri " ++
        "  LEFT JOIN RDB$RELATION_CONSTRAINTS pk " ++
        "         ON pk.RDB$INDEX_NAME = ri.RDB$INDEX_NAME " ++
        "        AND pk.RDB$CONSTRAINT_TYPE = 'PRIMARY KEY' " ++
        "  LEFT JOIN RDB$RELATION_CONSTRAINTS fk " ++
        "         ON fk.RDB$INDEX_NAME = ri.RDB$INDEX_NAME " ++
        "        AND fk.RDB$CONSTRAINT_TYPE = 'FOREIGN KEY' " ++
        " WHERE ri.RDB$RELATION_NAME = ") ++ sqlLiteral relation ++ utf8 " " ++ utf8 " ORDER BY ri.RDB$INDEX_NAME"
  | segments index => (MetadataQuery.indexSegments index).sql

/-- A row of the index list. -/
structure IndexListRow where
  name : Bytes
  uniqueFlag : Int16
  activeFlag : Int16
  pkFlag : Int16
  fkFlag : Int16
  /-- `RDB$STATISTICS`; `none` is `NULL` -/
  statistics : Option (Ieee.Datum Ieee.binary64)

/-- What a query returns; the first, whether there is a row. -/
@[reducible] def IndexProfileQuery.Answer : IndexProfileQuery → Type
  | .relationExists _ => Except Bytes Bool
  | .indexes _ => FetchedRows IndexListRow
  | .segments _ => FetchedRows Bytes

structure IndexProfileServer where
  schema : Metadata
  answer : (q : IndexProfileQuery) → q.Answer

/-- A cursor that is read to its end, and whose errors are not caught. -/
def FetchedRows.toEnd {α : Type} (fetched : FetchedRows α) : Except Bytes (List α) :=
  match fetched.error with
  | some e => .error e
  | none => .ok fetched.rows

theorem FetchedRows.toEnd_ok_iff {α : Type} {fetched : FetchedRows α} {rows : List α} :
    fetched.toEnd = .ok rows ↔ fetched.error = none ∧ fetched.rows = rows := by
  unfold toEnd
  cases fetched.error with
  | some e => exact iff_of_false nofun nofun
  | none => exact ⟨fun h => ⟨rfl, Except.ok.inj h⟩, fun h => congrArg Except.ok h.2⟩

/-! ## The profile -/

inductive IndexAlertCode where
  | noIndexesOnTable | indexInactive | missingStatistics
deriving DecidableEq

def IndexAlertCode.text : IndexAlertCode → Bytes
  | noIndexesOnTable => utf8 "no_indexes_on_table"
  | indexInactive => utf8 "index_inactive"
  | missingStatistics => utf8 "missing_statistics"

structure IndexAlert where
  code : IndexAlertCode
  severity : Severity
  message : Bytes
deriving DecidableEq

/-- `IndexProfileRow`; `selectivity` is `none` where there is none. -/
structure IndexProfileRow where
  isSynthetic : Bool := false
  indexName : Bytes := []
  columns : List Bytes := []
  isUnique : Bool := false
  isActive : Bool := false
  isPrimaryKey : Bool := false
  isForeignKey : Bool := false
  selectivity : Option (Ieee.Datum Ieee.binary64) := none
  alerts : List IndexAlert := []

/-- `IndexProfileResult`. -/
structure IndexProfileResult where
  rows : List IndexProfileRow
  unindexedFilterCandidates : List Bytes

def noIndexesAlert : IndexAlert where
  code := .noIndexesOnTable
  severity := .high
  message := utf8 ("Table has no indexes at all: every scan is a full table " ++
    "scan and no column has a covering index for filtering.")

def inactiveAlert (indexName : Bytes) : IndexAlert where
  code := .indexInactive
  severity := .medium
  message := utf8 "Index '" ++ indexName ++ utf8 ("' is inactive: the " ++ "optimizer will not use it.")

def statisticsAlert (indexName : Bytes) : IndexAlert where
  code := .missingStatistics
  severity := .low
  message := utf8 "Index '" ++ indexName ++ utf8 ("' has no computed " ++
    "selectivity statistic (RDB$STATISTICS is NULL): " ++ "it was never analyzed (SET STATISTICS).")

/-- The alerts of an index. -/
def indexAlerts (row : IndexProfileRow) : List IndexAlert :=
  (if row.isActive then [] else [inactiveAlert row.indexName]) ++
    if row.selectivity.isSome then [] else [statisticsAlert row.indexName]

def indexRelationNotFound (tableName : Bytes) : Bytes :=
  utf8 "firebird_index_profile: relation '" ++ tableName ++ utf8 ("' not found in the " ++
    "attached Firebird catalog (RDB$RELATIONS has no matching " ++ "row).")

section Source

variable (server : IndexProfileServer)

/-- An index, with its columns. -/
def loadIndexRow (row : IndexListRow) : Except Bytes IndexProfileRow := do
  let segments : FetchedRows Bytes := server.answer (.segments row.name)
  let columns ← segments.toEnd
  .ok {
    indexName := row.name
    columns
    isUnique := decide (row.uniqueFlag = (1 : Int16))
    isActive := decide (row.activeFlag = (1 : Int16))
    isPrimaryKey := decide (row.pkFlag = (1 : Int16))
    isForeignKey := decide (row.fkFlag = (1 : Int16))
    selectivity := row.statistics }

/-- `LoadIndexRows`. -/
def loadIndexRows (upper : Bytes) : Except Bytes (List IndexProfileRow) := do
  let indexes : FetchedRows IndexListRow := server.answer (.indexes upper)
  (← indexes.toEnd).mapM (loadIndexRow server)

/-- The columns to filter on that no index has. -/
def unindexedCandidates (covered : List Bytes) (columns : TableColumns) : List Bytes :=
  ((columns.typed.zip columns.descs).filter fun c => !covered.contains c.1.1 && isCheapFilterType c.2 c.1.2).map
    fun c => c.1.1

/-- `BuildIndexProfile`. -/
def buildIndexProfile (tableName : Bytes) (noneEncoding : NoneEncoding) : Except Bytes IndexProfileResult := do
  let upper := toUpper tableName
  let found : Except Bytes Bool := server.answer (.relationExists upper)
  if !(← found) then .error (indexRelationNotFound tableName)
  else
    let rows ← loadIndexRows server upper
    let columns ← loadTableSchema server.schema noneEncoding false upper
    .ok {
      rows :=
        if rows = [] then [{ isSynthetic := true, alerts := [noIndexesAlert] }]
        else rows.map fun row => { row with alerts := indexAlerts row }
      unindexedFilterCandidates := unindexedCandidates (rows.flatMap IndexProfileRow.columns) columns }

/-- A row of the table function; `none` is `NULL`. -/
structure IndexProfileOutput where
  indexName : Option Bytes
  columns : List Bytes
  isUnique : Option Bool
  isActive : Option Bool
  isPrimaryKey : Option Bool
  isForeignKey : Option Bool
  selectivity : Option (Ieee.Datum Ieee.binary64)
  alerts : List IndexAlert
  unindexedFilterCandidates : List Bytes

/-- A value of an index, which the synthetic row has not. -/
def IndexProfileRow.shown {α : Type} (row : IndexProfileRow) (a : α) : Option α := if row.isSynthetic then none else some a

/-- The values that `IndexProfileInitGlobal` makes of a row. -/
def IndexProfileRow.output (candidates : List Bytes) (row : IndexProfileRow) : IndexProfileOutput where
  indexName := row.shown row.indexName
  columns := row.columns
  isUnique := row.shown row.isUnique
  isActive := row.shown row.isActive
  isPrimaryKey := row.shown row.isPrimaryKey
  isForeignKey := row.shown row.isForeignKey
  selectivity := if row.isSynthetic || row.selectivity.isNone then none else row.selectivity
  alerts := row.alerts
  unindexedFilterCandidates := candidates

/-- `IndexProfileInitGlobal`, with its lease. -/
def indexProfileRows (tableName : Bytes) (noneEncoding : NoneEncoding) : Except Bytes (List IndexProfileOutput) := do
  let result ← buildIndexProfile server tableName noneEncoding
  .ok (result.rows.map (IndexProfileRow.output result.unindexedFilterCandidates))

end Source

/-! ## The rows -/

/-- The segments of an index. -/
def IndexProfileServer.segments (server : IndexProfileServer) (index : Bytes) : FetchedRows Bytes :=
  server.answer (.segments index)

/-- The indexes of a relation. -/
def IndexProfileServer.indexes (server : IndexProfileServer) (relation : Bytes) : FetchedRows IndexListRow :=
  server.answer (.indexes relation)

/-- The columns of a type that is cheap to filter on. -/
def cheapColumns (columns : TableColumns) : List Bytes :=
  ((columns.typed.zip columns.descs).filter fun c => isCheapFilterType c.2 c.1.2).map fun c => c.1.1

/-- Those of them that none of the indexes has. -/
def columnsWithoutIndex (server : IndexProfileServer) (indexes : List IndexListRow) (columns : TableColumns) :
    List Bytes :=
  (cheapColumns columns).filter fun c => indexes.all fun row => !(server.segments row.name).rows.contains c

/-- `out` shows the index `row`: its values are those that the server has, and it has an alert exactly where there is
    something to say, which names it. -/
structure ShowsIndex (server : IndexProfileServer) (candidates : List Bytes) (row : IndexListRow)
    (out : IndexProfileOutput) : Prop where
  name : out.indexName = some row.name
  columns : out.columns = (server.segments row.name).rows
  unique : out.isUnique = some (decide (row.uniqueFlag = 1))
  active : out.isActive = some (decide (row.activeFlag = 1))
  primaryKey : out.isPrimaryKey = some (decide (row.pkFlag = 1))
  foreignKey : out.isForeignKey = some (decide (row.fkFlag = 1))
  selectivity : out.selectivity = row.statistics
  alerts : out.alerts.Sublist [inactiveAlert row.name, statisticsAlert row.name]
  inactive : inactiveAlert row.name ∈ out.alerts ↔ row.activeFlag ≠ 1
  statistics : statisticsAlert row.name ∈ out.alerts ↔ row.statistics = none
  candidates : out.unindexedFilterCandidates = candidates

/-- The row of a table without indexes: every value of an index is `NULL`. -/
def noIndexRow (candidates : List Bytes) : IndexProfileOutput where
  indexName := none
  columns := []
  isUnique := none
  isActive := none
  isPrimaryKey := none
  isForeignKey := none
  selectivity := none
  alerts := [noIndexesAlert]
  unindexedFilterCandidates := candidates

section Rows

variable (server : IndexProfileServer)

/-- What `loadIndexRow` makes of an index whose segments can be read. -/
def loadedIndex (row : IndexListRow) : IndexProfileRow where
  indexName := row.name
  columns := (server.segments row.name).rows
  isUnique := decide (row.uniqueFlag = 1)
  isActive := decide (row.activeFlag = 1)
  isPrimaryKey := decide (row.pkFlag = 1)
  isForeignKey := decide (row.fkFlag = 1)
  selectivity := row.statistics

/-- The same index with its alerts, as the profile has it. -/
def profiledIndex (row : IndexListRow) : IndexProfileRow :=
  { loadedIndex server row with alerts := indexAlerts (loadedIndex server row) }

/-- The two alerts of an index differ in their codes. -/
theorem inactiveAlert_ne (index : Bytes) : inactiveAlert index ≠ statisticsAlert index := by
  intro h
  exact IndexAlertCode.noConfusion (congrArg IndexAlert.code h)

theorem loadIndexRow_ok_iff {row : IndexListRow} {loaded : IndexProfileRow} :
    loadIndexRow server row = .ok loaded ↔
      (server.segments row.name).error = none ∧ loadedIndex server row = loaded := by
  unfold loadIndexRow
  rw [bind_ok_iff]
  constructor
  · rintro ⟨columns, hcolumns, hloaded⟩
    obtain ⟨herror, rfl⟩ := FetchedRows.toEnd_ok_iff.mp hcolumns
    exact ⟨herror, Except.ok.inj hloaded⟩
  · rintro ⟨herror, rfl⟩
    exact ⟨_, FetchedRows.toEnd_ok_iff.mpr ⟨herror, rfl⟩, rfl⟩

/-- The indexes are read if each of the queries is answered to its end. -/
theorem loadIndexRows_ok_iff {upper : Bytes} {rows : List IndexProfileRow} :
    loadIndexRows server upper = .ok rows ↔
      (server.indexes upper).error = none ∧
        (∀ row ∈ (server.indexes upper).rows, (server.segments row.name).error = none) ∧
        (server.indexes upper).rows.map (loadedIndex server) = rows := by
  unfold loadIndexRows
  simp only [bind_ok_iff, mapM_ok_iff, loadIndexRow_ok_iff, FetchedRows.toEnd_ok_iff, List.forall₂_and_left]
  constructor
  · rintro ⟨_, ⟨herror, rfl⟩, hsegments, hrows⟩
    refine ⟨herror, hsegments, ?_⟩
    rwa [← List.forall₂_eq_eq_eq, List.forall₂_map_left_iff]
  · rintro ⟨herror, hsegments, rfl⟩
    refine ⟨_, ⟨herror, rfl⟩, hsegments, ?_⟩
    rw [← @List.forall₂_map_left_iff _ _ _ Eq (loadedIndex server), List.forall₂_eq_eq_eq]
    rfl

/-- Two filters are one. -/
theorem unindexedCandidates_eq (indexes : List IndexListRow) (columns : TableColumns) :
    unindexedCandidates ((indexes.map (loadedIndex server)).flatMap IndexProfileRow.columns) columns =
      columnsWithoutIndex server indexes columns := by
  have hcovered : ∀ c, (!((indexes.map (loadedIndex server)).flatMap IndexProfileRow.columns).contains c) =
      indexes.all fun row => !(server.segments row.name).rows.contains c := by
    intro c
    rw [Bool.eq_iff_iff, Bool.not_eq_true', ← Bool.not_eq_true, List.contains_iff_mem]
    simp [loadedIndex]
  unfold unindexedCandidates columnsWithoutIndex cheapColumns
  rw [List.filter_map, List.filter_filter]
  refine congrArg _ (List.filter_congr ?_)
  intro c _
  rw [hcovered]
  rfl

/-- The alerts of an index, in one list. -/
theorem mem_indexAlerts (row : IndexListRow) :
    (indexAlerts (loadedIndex server row)).Sublist [inactiveAlert row.name, statisticsAlert row.name] ∧
      (inactiveAlert row.name ∈ indexAlerts (loadedIndex server row) ↔ row.activeFlag ≠ 1) ∧
      (statisticsAlert row.name ∈ indexAlerts (loadedIndex server row) ↔ row.statistics = none) := by
  have hne := inactiveAlert_ne row.name
  unfold indexAlerts loadedIndex
  by_cases hactive : row.activeFlag = 1 <;> cases hstatistics : row.statistics <;> simp [hactive, hne, hne.symm]

/-- Which alerts there are decides the list. -/
theorem eq_indexAlerts {alerts : List IndexAlert} {row : IndexListRow}
    (hsub : alerts.Sublist [inactiveAlert row.name, statisticsAlert row.name])
    (hinactive : inactiveAlert row.name ∈ alerts ↔ row.activeFlag ≠ 1)
    (hstatistics : statisticsAlert row.name ∈ alerts ↔ row.statistics = none) :
    indexAlerts (loadedIndex server row) = alerts := by
  obtain ⟨hsub', hinactive', hstatistics'⟩ := mem_indexAlerts server row
  have hne := inactiveAlert_ne row.name
  generalize indexAlerts (loadedIndex server row) = alerts' at hsub' hinactive' hstatistics'
  have hsame := hinactive'.trans hinactive.symm
  have hsame' := hstatistics'.trans hstatistics.symm
  -- each is one of the four parts of the pair
  simp only [List.sublist_cons_iff, List.sublist_nil] at hsub hsub'
  grind

/-- A row of the table function is shown from an index exactly if it is made of it. -/
theorem showsIndex_iff {candidates : List Bytes} {row : IndexListRow} {out : IndexProfileOutput} :
    ShowsIndex server candidates row out ↔
      (profiledIndex server row).output candidates = out := by
  constructor
  · intro h
    obtain ⟨indexName, columns, isUnique, isActive, isPrimaryKey, isForeignKey, selectivity, alerts, rest⟩ := out
    obtain ⟨rfl, rfl, rfl, rfl, rfl, rfl, rfl, hsub, hinactive, hstatistics, rfl⟩ := h
    obtain rfl := eq_indexAlerts server hsub hinactive hstatistics
    unfold IndexProfileRow.output profiledIndex loadedIndex
    cases hstatistics : row.statistics <;> rfl
  · rintro rfl
    obtain ⟨hsub, hinactive, hstatistics⟩ := mem_indexAlerts server row
    refine ⟨rfl, rfl, rfl, rfl, rfl, rfl, ?_, hsub, hinactive, hstatistics, rfl⟩
    unfold IndexProfileRow.output profiledIndex loadedIndex
    cases hstatistics : row.statistics <;> rfl

/-- The rows of a list of indexes. -/
theorem forall₂_showsIndex {candidates : List Bytes} {rows : List IndexListRow} {out : List IndexProfileOutput} :
    List.Forall₂ (ShowsIndex server candidates) rows out ↔
      (rows.map (profiledIndex server)).map (IndexProfileRow.output candidates) = out := by
  have hshows : ShowsIndex server candidates = fun row o => (profiledIndex server row).output candidates = o :=
    funext₂ fun row o => propext (showsIndex_iff server)
  rw [hshows, List.map_map, ← List.forall₂_eq_eq_eq, List.forall₂_map_left_iff]
  rfl

/-- `BuildIndexProfile` succeeds exactly if the relation exists and each of its queries is answered to its end. -/
theorem buildIndexProfile_ok_iff {tableName : Bytes} {noneEncoding : NoneEncoding} {result : IndexProfileResult} :
    buildIndexProfile server tableName noneEncoding = .ok result ↔
      server.answer (.relationExists (toUpper tableName)) = .ok true ∧
      (server.indexes (toUpper tableName)).error = none ∧
      (∀ row ∈ (server.indexes (toUpper tableName)).rows, (server.segments row.name).error = none) ∧
      ∃ columns, loadTableSchema server.schema noneEncoding false (toUpper tableName) = .ok columns ∧
        result.unindexedFilterCandidates =
          columnsWithoutIndex server (server.indexes (toUpper tableName)).rows columns ∧
        result.rows =
          if (server.indexes (toUpper tableName)).rows = [] then [{ isSynthetic := true, alerts := [noIndexesAlert] }]
          else (server.indexes (toUpper tableName)).rows.map (profiledIndex server) := by
  unfold buildIndexProfile
  dsimp only
  rw [bind_ok_iff]
  constructor
  · rintro ⟨found, hfound, h⟩
    cases found with
    | false => cases h
    | true =>
        obtain ⟨rows, hrows, h⟩ := bind_ok_iff.mp h
        obtain ⟨columns, hcolumns, h⟩ := bind_ok_iff.mp h
        obtain ⟨herror, hsegments, rfl⟩ := (loadIndexRows_ok_iff server).mp hrows
        obtain rfl := Except.ok.inj h
        refine ⟨hfound, herror, hsegments, columns, hcolumns, unindexedCandidates_eq server _ columns, ?_⟩
        simp only [List.map_eq_nil_iff, List.map_map]
        rfl
  · rintro ⟨hfound, herror, hsegments, columns, hcolumns, hcandidates, hresult⟩
    refine ⟨true, hfound, bind_ok_iff.mpr ⟨_, (loadIndexRows_ok_iff server).mpr ⟨herror, hsegments, rfl⟩, ?_⟩⟩
    refine bind_ok_iff.mpr ⟨columns, hcolumns, ?_⟩
    obtain ⟨rows, candidates⟩ := result
    subst hcandidates hresult
    rw [unindexedCandidates_eq]
    simp only [List.map_eq_nil_iff, List.map_map]
    rfl

/-- **The rows of `firebird_index_profile`.** There are any exactly if the relation exists and each query was answered
    to its end: a query that fails is never taken for a table without indexes. Then either the server listed indexes
    and there is one row for each, in their order, or it listed none and there is one row that says so. -/
theorem index_profile_rows {tableName : Bytes} {noneEncoding : NoneEncoding} {out : List IndexProfileOutput} :
    indexProfileRows server tableName noneEncoding = .ok out ↔
      server.answer (.relationExists (toUpper tableName)) = .ok true ∧
      (server.indexes (toUpper tableName)).error = none ∧
      (∀ row ∈ (server.indexes (toUpper tableName)).rows, (server.segments row.name).error = none) ∧
      ∃ columns candidates, loadTableSchema server.schema noneEncoding false (toUpper tableName) = .ok columns ∧
        candidates = columnsWithoutIndex server (server.indexes (toUpper tableName)).rows columns ∧
        ((server.indexes (toUpper tableName)).rows = [] ∧ out = [noIndexRow candidates] ∨
          (server.indexes (toUpper tableName)).rows ≠ [] ∧
            List.Forall₂ (ShowsIndex server candidates) (server.indexes (toUpper tableName)).rows out) := by
  unfold indexProfileRows
  simp only [bind_ok_iff, buildIndexProfile_ok_iff]
  constructor
  · rintro ⟨result, ⟨hfound, herror, hsegments, columns, hcolumns, hcandidates, hresult⟩, hout⟩
    obtain rfl := Except.ok.inj hout
    refine ⟨hfound, herror, hsegments, columns, _, hcolumns, hcandidates, ?_⟩
    by_cases hempty : (server.indexes (toUpper tableName)).rows = []
    · rw [if_pos hempty] at hresult
      rw [hresult]
      exact .inl ⟨hempty, rfl⟩
    · rw [if_neg hempty] at hresult
      refine .inr ⟨hempty, ?_⟩
      rw [forall₂_showsIndex, hresult]
  · rintro ⟨hfound, herror, hsegments, columns, _, hcolumns, rfl, hrows⟩
    rcases hrows with ⟨hempty, rfl⟩ | ⟨hindexes, hrows⟩
    · exact ⟨⟨_, _⟩, ⟨hfound, herror, hsegments, columns, hcolumns, rfl, (if_pos hempty).symm⟩, rfl⟩
    · obtain rfl := (forall₂_showsIndex server).mp hrows
      exact ⟨⟨_, _⟩, ⟨hfound, herror, hsegments, columns, hcolumns, rfl, (if_neg hindexes).symm⟩, rfl⟩

end Rows

/-! ## The two profiles of a table -/

section TwoProfiles

variable {hw : UInt32} {server : ProfileServer} {upper : Bytes} {columns : TableColumns} {p p' : TableProfile}

/-- The candidates for a filter are settled before the risk is. -/
theorem filterCandidates_profileRisk {isView : Bool} (h : profileRisk hw server upper columns isView p = .ok p') :
    p'.filterCandidates = p.filterCandidates := by
  unfold profileRisk at h
  split_ifs at h
  · obtain rfl := Except.ok.inj h
    unfold profileView addViewShape
    dsimp only
    split_ifs <;> rfl
  · split at h
    · unfold profileRange at h
      split at h
      · dsimp only at h
        split_ifs at h <;> obtain rfl := Except.ok.inj h <;> rfl
      · cases h
    · unfold profileSerial at h
      dsimp only at h
      split_ifs at h
      · obtain rfl := Except.ok.inj h
        rfl
      · obtain rfl := Except.ok.inj h
        rfl
      · split at h
        · cases h
        · split_ifs at h <;> obtain rfl := Except.ok.inj h <;> rfl

theorem filterCandidates_countRows : (countRows server upper p).filterCandidates = p.filterCandidates := by
  unfold countRows
  split <;> rfl

theorem filterCandidates_addRecommendation (isView : Bool) :
    (addRecommendation isView p).filterCandidates = p.filterCandidates := by
  unfold addRecommendation
  dsimp only
  split_ifs <;> rfl

theorem filterCandidates_addCaveats (isView : Bool) :
    (addCaveats columns isView p).filterCandidates = p.filterCandidates := by
  unfold addCaveats
  dsimp only
  split_ifs <;> rfl

/-- Nor does any later section touch them. -/
theorem filterCandidates_finishProfile (isView exactRowCount : Bool) :
    (finishProfile server upper columns isView exactRowCount p).filterCandidates = p.filterCandidates := by
  unfold finishProfile
  dsimp only
  rw [filterCandidates_addCaveats]
  split_ifs
  · rw [filterCandidates_countRows, filterCandidates_addRecommendation]
  · exact filterCandidates_addRecommendation isView

/-- The candidates of `firebird_profile_table` for a base table: the cheap columns that an index has. -/
theorem filterCandidates_buildProfile {tableName objectType : Bytes} {noneEncoding : NoneEncoding} {exactRowCount : Bool}
    (hlookup : lookupObjectType server.schema (toUpper tableName) = .ok (some objectType))
    (hcolumns : loadTableSchema server.schema noneEncoding false (toUpper tableName) = .ok columns)
    (htable : objectType ≠ utf8 "VIEW")
    (hprofile : buildProfile hw server tableName noneEncoding exactRowCount = .ok p) :
    p.filterCandidates = (cheapColumns columns).filter fun c =>
      decide (∃ idx ∈ loadIndexes server (toUpper tableName), c ∈ idx.columns) := by
  obtain ⟨q, hrisk, rfl⟩ := (buildProfile_ok_iff hw server noneEncoding exactRowCount hlookup hcolumns).mp hprofile
  rw [filterCandidates_finishProfile, filterCandidates_profileRisk hrisk]
  unfold describedProfile addCandidates cheapColumns
  rw [decide_eq_false htable, List.filter_map, List.filter_filter]
  refine congrArg _ (List.filter_congr ?_)
  intro c _
  rw [Bool.eq_iff_iff]
  simp

/-- **Two profiles of one base table.** Where both read the same indexes, each column that is cheap to filter on is a
    candidate in exactly one of them: of `firebird_profile_table` if some index has it, and otherwise of
    `firebird_index_profile`. -/
theorem filter_candidates_partition {indexServer : IndexProfileServer} {tableName objectType : Bytes}
    {noneEncoding : NoneEncoding} {exactRowCount : Bool} {result : IndexProfileResult}
    (hschema : indexServer.schema = server.schema)
    (hlisted : (server.answer (.indexes (toUpper tableName))).error = none)
    (hsame : ∀ name, name ∈ (server.answer (.indexes (toUpper tableName))).rows.map IndexRow.name ↔
      name ∈ (indexServer.indexes (toUpper tableName)).rows.map IndexListRow.name)
    (hsegments : ∀ name, server.answer (.segments name) = indexServer.segments name)
    (hlookup : lookupObjectType server.schema (toUpper tableName) = .ok (some objectType))
    (htable : objectType ≠ utf8 "VIEW")
    (hprofile : buildProfile hw server tableName noneEncoding exactRowCount = .ok p)
    (hresult : buildIndexProfile indexServer tableName noneEncoding = .ok result) :
    ∃ columns, loadTableSchema server.schema noneEncoding false (toUpper tableName) = .ok columns ∧
      (p.filterCandidates ++ result.unindexedFilterCandidates).Perm (cheapColumns columns) ∧
      p.filterCandidates.Disjoint result.unindexedFilterCandidates := by
  obtain ⟨-, -, -, columns, hcolumns, hcandidates, -⟩ := (buildIndexProfile_ok_iff indexServer).mp hresult
  rw [hschema] at hcolumns
  -- an index of the one list has the column exactly if one of the other has
  have hcovered : ∀ c, (∃ idx ∈ loadIndexes server (toUpper tableName), c ∈ idx.columns) ↔
      ¬∀ row ∈ (indexServer.indexes (toUpper tableName)).rows, c ∉ (indexServer.segments row.name).rows := by
    intro c
    unfold loadIndexes
    dsimp only
    rw [hlisted]
    push Not
    constructor
    · rintro ⟨_, hidx, hc⟩
      obtain ⟨row, hrow, rfl⟩ := List.mem_map.mp hidx
      obtain ⟨row', hrow', hname⟩ := List.mem_map.mp ((hsame row.name).mp (List.mem_map_of_mem hrow))
      refine ⟨row', hrow', ?_⟩
      rw [hname, ← hsegments]
      exact hc
    · rintro ⟨row', hrow', hc⟩
      obtain ⟨row, hrow, hname⟩ := List.mem_map.mp ((hsame row'.name).mpr (List.mem_map_of_mem hrow'))
      refine ⟨_, List.mem_map_of_mem hrow, ?_⟩
      rw [← hname, ← hsegments] at hc
      exact hc
  rw [filterCandidates_buildProfile hlookup hcolumns htable hprofile, hcandidates]
  unfold columnsWithoutIndex
  refine ⟨columns, hcolumns, ?_, ?_⟩
  · -- the second test is the negation of the first
    have hnot : ∀ c, ((indexServer.indexes (toUpper tableName)).rows.all fun row =>
        !(indexServer.segments row.name).rows.contains c) =
        !decide (∃ idx ∈ loadIndexes server (toUpper tableName), c ∈ idx.columns) := by
      intro c
      rw [← decide_not, Bool.eq_iff_iff, decide_eq_true_eq, hcovered, not_not]
      simp
    simp only [hnot]
    exact List.filter_append_perm _ _
  · intro c hc hc'
    rw [List.mem_filter, decide_eq_true_eq] at hc
    refine (hcovered c).mp hc.2 ?_
    simpa using (List.mem_filter.mp hc').2

end TwoProfiles

/-- A table of two columns, one of which is its primary key. -/
def cityPlaces : Metadata
  | .relationFields _ =>
      .ok [{ name := utf8 "ID", fieldType := 8 }, { name := utf8 "CITY", fieldType := 37, charsetId := 4 }]
  | .objectType _ => .ok (some (utf8 "TABLE"))
  | _ => .error (utf8 "no permission for SELECT access")

def cityProfile : ProfileServer where
  schema := cityPlaces
  probe := cityPlaces
  answer
    | .indexes _ => ⟨[⟨utf8 "PK_T", 1, 1⟩], none⟩
    | .segments _ => ⟨[utf8 "ID"], none⟩
    | .viewSource _ => .noRow
    | .rowCount _ => .ok none

def cityIndexes : IndexProfileServer where
  schema := cityPlaces
  answer
    | .relationExists _ => .ok true
    | .indexes _ => ⟨[⟨utf8 "PK_T", 1, 1, 1, 0, none⟩], none⟩
    | .segments _ => ⟨[utf8 "ID"], none⟩

/-- The key is a candidate of the one, and the other column of the other. -/
theorem filter_candidates_partition_city :
    ∃ p result, buildProfile 8 cityProfile (utf8 "T") .strict false = .ok p ∧
      buildIndexProfile cityIndexes (utf8 "T") .strict = .ok result ∧
      p.filterCandidates = [utf8 "ID"] ∧ result.unindexedFilterCandidates = [utf8 "CITY"] ∧
      ∃ columns, loadTableSchema cityPlaces .strict false (utf8 "T") = .ok columns ∧
        (p.filterCandidates ++ result.unindexedFilterCandidates).Perm (cheapColumns columns) ∧
        p.filterCandidates.Disjoint result.unindexedFilterCandidates := by
  have htable : utf8 "TABLE" ≠ utf8 "VIEW" := by decide
  have hprofile : buildProfile 8 cityProfile (utf8 "T") .strict false = .ok _ := rfl
  have hresult : buildIndexProfile cityIndexes (utf8 "T") .strict = .ok _ := rfl
  refine ⟨_, _, hprofile, hresult, rfl, by decide +kernel, ?_⟩
  exact filter_candidates_partition rfl rfl (fun _ => Iff.rfl) (fun _ => rfl) rfl htable hprofile hresult

end FirebirdScan
