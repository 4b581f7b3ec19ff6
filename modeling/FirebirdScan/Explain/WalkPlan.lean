import FirebirdScan.Explain.DirectScan
import FirebirdScan.Lib.OrderedMap
import FirebirdScan.Lib.TreeWalk
import FirebirdScan.Scanner.Paging
import FirebirdScan.Scanner.Telemetry
import FirebirdScan.Scanner.ViewAnalysis
import FirebirdScan.Storage.CatalogLoad

/-!
# `Explain.WalkPlan` — the rows of `firebird_explain_pushdown` (`WalkPlan`)

The explainer walks the optimized plan of a query. For each scan of a Firebird table it builds the statement that the
scanner would send, without sending it, and reports what was pushed, what was left to DuckDB, and how the scan would
be cut. The only query that it sends asks whether the table is a view.

`explainPushdown_ok_iff` takes the walk apart: the rows are those of the scans in preorder, numbered from one.
-/

namespace FirebirdScan

open TreeWalk

/-! ## The key -/

inductive PkRangeStrategy where
  | serial | pkRangePartitionable
deriving DecidableEq

structure PkRangeClassification where
  eligible : Bool
  column : Bytes
  reason : String
  strategy : PkRangeStrategy

/-- `ClassifyPkRange`. A primary key has a column. -/
def classifyPkRange (d : PrimaryKeyDescriptor) : PkRangeClassification :=
  if !d.hasPk then ⟨false, [], "no primary key", .serial⟩
  else if d.columns.length > 1 then ⟨false, [], "composite PK", .serial⟩
  else if !d.singleNumeric then ⟨false, d.columns.headD [], "non-numeric PK", .serial⟩
  else ⟨true, d.columns.headD [], "single numeric PK", .pkRangePartitionable⟩

/-! ## Plans -/

/-- The server that the `conn_info` of a scan leads to: the connection, and the two queries about a view. -/
structure ExplainServer where
  connect : Except Bytes Unit := .ok ()
  metadata : Metadata
  viewSource : Bytes → ViewSource

/-- `FirebirdBindData`, with the fields that `FirebirdScanInitGlobal` and the explainer read besides. -/
structure PlannedBindData extends ScanBindData where
  pkDescriptor : PrimaryKeyDescriptor := {}
  partitionsOverride : PartitionsOverride := .auto
  server : ExplainServer

/-- `LogicalGet`. Its filters are a map; v1.5 keys it by column ids, v2.0 by positions in the list of these. DuckDB
    binds every function of the name. -/
structure LogicalGet where
  functionName : Bytes
  bindData : Option PlannedBindData
  columnIds : List Nat
  tableFilters : List (Nat × TableFilter)
  distinct_keys : (tableFilters.map Prod.fst).Nodup
  bound : functionName = firebirdScan → bindData.isSome = true

/-- `LogicalOperator`: a `LogicalGet`, or an operator of another kind. -/
abbrev LogicalOperator := RoseTree (Option LogicalGet)

/-- The scans that `WalkPlan` reports, with their bind data. -/
def reportedScan (op : Option LogicalGet) : Option (LogicalGet × PlannedBindData) := do
  let get ← op
  if get.functionName = firebirdScan then
    let bd ← get.bindData
    some (get, bd)
  else none

/-- A filter of a column id, put under the first position of that id. -/
def rekeyStep (columnIds : List Nat) (filters : List (Nat × TableFilter)) (entry : Nat × TableFilter) :
    List (Nat × TableFilter) :=
  if columnIds.idxOf entry.1 < columnIds.length then
    OrderedMap.assign (columnIds.idxOf entry.1) entry.2 filters
  else filters

/-- `scan_filters`: the filters by positions in the list of column ids. -/
def scanFilters (api : DuckdbApi) (get : LogicalGet) : List (Nat × TableFilter) :=
  match api with
  | .v2_0 => get.tableFilters
  | .v1_5 => get.tableFilters.foldl (rekeyStep get.columnIds) []

/-! ## Rows -/

structure ExplainRow where
  scanOrdinal : Nat
  tableName : Bytes
  remoteSql : Bytes
  projectedColumns : List Bytes
  pushedFilters : List Bytes
  residualFilters : List Bytes
  notPushedReasons : List String
  limitPushed : Option Int64
  offsetPushed : Option Int64
  rowsClause : Option Bytes
  pkRangeEligible : Bool
  pkRangeColumn : Bytes
  pkRangeReason : String
  scanStrategy : String
  viewHeavy : Option Bool
  viewHeavyReasons : List String
  charsetPushdownBlocked : Bool
  plannedPartitionsValid : Bool
  /-- `none` where the computation of the number overflows -/
  plannedPartitions : Option Nat

/-- `pk_range_column` of the output: an empty name is `NULL`. -/
def ExplainRow.pkRangeColumnValue (r : ExplainRow) : Option Bytes :=
  if r.pkRangeColumn = [] then none else some r.pkRangeColumn

/-- The notes about a view that was inspected. -/
def viewShapeNotes (va : ViewAnalysis) : List String :=
  (if va.hasJoin then ["view contains a JOIN"] else []) ++
    (if va.hasGroupBy || va.hasAggregate then
      ["view contains aggregation (GROUP BY or aggregate functions)"] else []) ++
    if !va.hasWhere then ["view has no WHERE filter in its definition"] else []

/-- `view_heavy` and `view_heavy_reasons`. -/
def viewHeaviness (server : ExplainServer) (tableName : Bytes) : Except Bytes (Option Bool × List String) := do
  server.connect
  let upper := toUpper tableName
  if (← lookupObjectType server.metadata upper) = some (utf8 "VIEW") then
    let va := analyzeViewSource (server.viewSource upper)
    if !va.inspected then
      .ok (some true, ["view definition not inspected (RDB$VIEW_SOURCE unavailable or unreadable)"])
    else .ok (some (va.hasJoin || va.hasGroupBy || va.hasAggregate), viewShapeNotes va)
  else .ok (none, [])

namespace PlannedBindData

variable (bd : PlannedBindData)

/-- The arguments of the explainer's `Build`: no key range, no extra predicate, and paging as it was asked for. -/
def explainArgs (columnIds : List Nat) : BuildArgs where
  tableName := bd.tableName
  allColumnNames := bd.columnNames
  columnIds := columnIds
  limit := bd.limitOverride
  extraPredicate := []
  columnDescs := some bd.columnDescs
  noneEncoding := bd.noneEncoding
  offset := bd.offsetOverride
  paginationOrderBy := utf8 "RDB$DB_KEY"

/-- `rows_clause`. -/
def rowsText : Option Bytes :=
  bd.limitOverride.map fun limit =>
    match bd.offsetOverride with
    | some offset => utf8 "ROWS " ++ idxText (offset + 1) ++ utf8 " TO " ++ idxText (offset + limit)
    | none => utf8 "ROWS " ++ idxText limit

/-- `planned_partitions`, if there is a key range. -/
def plannedPartitions (hw : UInt32) : Option Nat :=
  match bd.pk with
  | some pk => pickPartitionCount hw pk.minValue pk.maxValue
  | none => some 0

/-- The row of a scan, in front of what is asked about views. -/
def reportedRow (api : DuckdbApi) (hw : UInt32) (scanOrdinal : Nat) (get : LogicalGet) : ExplainRow :=
  let result := build api (bd.explainArgs get.columnIds) (scanFilters api get)
  let c := classifyPkRange bd.pkDescriptor
  let reasons := bd.notPushedReasons result
  { scanOrdinal := scanOrdinal
    tableName := bd.tableName
    remoteSql := makeTelemetrySafeUtf8 result.sql
    projectedColumns := get.columnIds.filterMap bd.projectedColumn
    pushedFilters := result.pushedFilterSql ++ bd.extraPredicates.map fun ep => makeTelemetrySafeUtf8 ep.sql
    residualFilters := bd.residualFilters result
    notPushedReasons := reasons
    limitPushed := bd.limitOverride.map UInt64.toInt64
    offsetPushed := bd.offsetOverride.map UInt64.toInt64
    rowsClause := bd.rowsText
    pkRangeEligible := c.eligible
    pkRangeColumn := c.column
    pkRangeReason := c.reason
    scanStrategy := if c.strategy = .pkRangePartitionable then "pk-range-partitionable" else "serial"
    viewHeavy := none
    viewHeavyReasons := []
    charsetPushdownBlocked := reasons.contains "NONE_CHARSET"
    plannedPartitionsValid := bd.pk.isSome
    plannedPartitions := bd.plannedPartitions hw }

/-- The row of a scan. -/
def explainRow (api : DuckdbApi) (hw : UInt32) (scanOrdinal : Nat) (get : LogicalGet) : Except Bytes ExplainRow := do
  let (viewHeavy, viewHeavyReasons) ← viewHeaviness bd.server bd.tableName
  .ok { bd.reportedRow api hw scanOrdinal get with viewHeavy, viewHeavyReasons }

end PlannedBindData

/-! ## The walk -/

variable (api : DuckdbApi) (hw : UInt32)

/-- `WalkPlan`, with the rows that are there and the next number. -/
def walkPlan (state : List ExplainRow × Nat) (op : LogicalOperator) : Except Bytes (List ExplainRow × Nat) :=
  op.walk (emit reportedScan fun nextOrdinal scan => scan.2.explainRow api hw nextOrdinal scan.1) state

/-- The rows for a plan: `ExplainPushdownInitGlobal`. -/
def explainPushdown (plan : LogicalOperator) : Except Bytes (List ExplainRow) :=
  (walkPlan api hw ([], 1) plan).map Prod.fst

/-- The scans of a plan in preorder: the gets of `firebird_scan`. -/
def firebirdScans (plan : LogicalOperator) : List LogicalGet :=
  plan.labels.filterMap fun op => op.filter fun get => get.functionName = firebirdScan

variable {api hw}

theorem reportedScan_eq_some {op : Option LogicalGet} {scan : LogicalGet × PlannedBindData} :
    reportedScan op = some scan ↔
      op = some scan.1 ∧ scan.1.functionName = firebirdScan ∧ scan.1.bindData = some scan.2 := by
  obtain ⟨get, bd⟩ := scan
  rcases op with _ | get'
  · exact ⟨nofun, fun h => nomatch h.1⟩
  · show (if get'.functionName = firebirdScan then get'.bindData.bind fun bd => some (get', bd) else none) = _ ↔ _
    split_ifs with hname
    · constructor
      · intro h
        obtain ⟨bd', hbd, heq⟩ := Option.bind_eq_some_iff.mp h
        obtain ⟨rfl, rfl⟩ := Prod.mk.inj (Option.some.inj heq)
        exact ⟨rfl, hname, hbd⟩
      · rintro ⟨hget, -, hbd⟩
        obtain rfl := Option.some.inj hget
        exact Option.bind_eq_some_iff.mpr ⟨bd, hbd, rfl⟩
    · refine iff_of_false nofun ?_
      rintro ⟨hget, h, -⟩
      obtain rfl := Option.some.inj hget
      exact hname h

/-- The scans that are reported are the gets of `firebird_scan`. -/
theorem reportedScan_fst (op : Option LogicalGet) :
    (reportedScan op).map Prod.fst = op.filter fun get => get.functionName = firebirdScan := by
  rcases op with _ | get
  · rfl
  · rcases hbd : get.bindData with _ | bd
    · have hname : get.functionName ≠ firebirdScan := by
        intro hname
        have hbound := get.bound hname
        rw [hbd] at hbound
        cases hbound
      have hnone : reportedScan (some get) = none := if_neg hname
      rw [hnone, Option.filter_some, if_neg (by simpa using hname)]
      rfl
    · by_cases hname : get.functionName = firebirdScan
      · have hsome : reportedScan (some get) = some (get, bd) := reportedScan_eq_some.mpr ⟨rfl, hname, hbd⟩
        rw [hsome, Option.filter_some, if_pos (by simpa using hname)]
        rfl
      · have hnone : reportedScan (some get) = none := if_neg hname
        rw [hnone, Option.filter_some, if_neg (by simpa using hname)]
        rfl

theorem filterMap_reportedScan_fst (plan : LogicalOperator) :
    (plan.labels.filterMap reportedScan).map Prod.fst = firebirdScans plan := by
  rw [List.map_filterMap]
  exact List.filterMap_congr fun op _ => reportedScan_fst op

/-- **The rows for a plan** are those of its scans, in preorder and numbered from one. -/
theorem explainPushdown_ok_iff {plan : LogicalOperator} {rows : List ExplainRow} :
    explainPushdown api hw plan = .ok rows ↔
      Numbered (fun n scan => scan.2.explainRow api hw n scan.1) 1 (plan.labels.filterMap reportedScan) rows := by
  unfold explainPushdown walkPlan
  rw [RoseTree.walk_eq]
  constructor
  · intro h
    rcases hloop : plan.labels.foldlM
      (emit reportedScan fun nextOrdinal scan => scan.2.explainRow api hw nextOrdinal scan.1) ([], 1) with error | state
    · rw [hloop] at h
      cases h
    · rw [hloop] at h
      obtain ⟨rs, hrs, rfl⟩ := foldlM_emit.mp hloop
      obtain rfl := Except.ok.inj h
      exact hrs
  · intro h
    rw [foldlM_emit.mpr ⟨rows, h, rfl⟩]
    rfl

/-- A get of `firebird_scan` is reported with its bind data. -/
theorem firebirdScans_getElem? {plan : LogicalOperator} {i : Nat} {get : LogicalGet}
    (h : (firebirdScans plan)[i]? = some get) :
    ∃ bd, get.bindData = some bd ∧ (plan.labels.filterMap reportedScan)[i]? = some (get, bd) := by
  rw [← filterMap_reportedScan_fst, List.getElem?_map] at h
  obtain ⟨⟨get, bd⟩, hscan, rfl⟩ := Option.map_eq_some_iff.mp h
  obtain ⟨op, -, hop⟩ := List.mem_filterMap.mp (List.mem_of_getElem? hscan)
  exact ⟨bd, (reportedScan_eq_some.mp hop).2.2, hscan⟩

/-- What the server says about a view. -/
theorem explainRow_eq_ok {bd : PlannedBindData} {n : Nat} {get : LogicalGet} {row : ExplainRow} :
    bd.explainRow api hw n get = .ok row ↔
      ∃ view, viewHeaviness bd.server bd.tableName = .ok view ∧
        row = { bd.reportedRow api hw n get with viewHeavy := view.1, viewHeavyReasons := view.2 } := by
  unfold PlannedBindData.explainRow
  rcases viewHeaviness bd.server bd.tableName with error | view
  · constructor
    · intro h
      cases h
    · rintro ⟨view, h, -⟩
      cases h
  · constructor
    · intro h
      exact ⟨view, rfl, (Except.ok.inj h).symm⟩
    · rintro ⟨view', h, rfl⟩
      obtain rfl := Except.ok.inj h
      rfl

/-- **One row for each scan**, in preorder and numbered from one. -/
theorem explainPushdown_row {plan : LogicalOperator} {rows : List ExplainRow}
    (h : explainPushdown api hw plan = .ok rows) :
    rows.length = (firebirdScans plan).length ∧
      ∀ (i : Nat) (get : LogicalGet), (firebirdScans plan)[i]? = some get →
        ∃ (bd : PlannedBindData) (view : Option Bool × List String), get.bindData = some bd ∧
          rows[i]? = some { bd.reportedRow api hw (1 + i) get with
            viewHeavy := view.1, viewHeavyReasons := view.2 } := by
  have hrows := explainPushdown_ok_iff.mp h
  refine ⟨?_, ?_⟩
  · rw [hrows.length, ← filterMap_reportedScan_fst, List.length_map]
  · intro i get hget
    obtain ⟨bd, hbd, hscan⟩ := firebirdScans_getElem? hget
    obtain ⟨row, hrow, heq⟩ := hrows.get hscan
    obtain ⟨view, -, rfl⟩ := explainRow_eq_ok.mp heq
    exact ⟨bd, view, hbd, hrow⟩

/-- The walk ends with rows exactly when the server answers about every table. -/
theorem explainPushdown_isOk {plan : LogicalOperator} :
    (∃ rows, explainPushdown api hw plan = .ok rows) ↔
      ∀ get ∈ firebirdScans plan, ∀ bd ∈ get.bindData,
        ∃ view, viewHeaviness bd.server bd.tableName = .ok view := by
  constructor
  · rintro ⟨rows, h⟩ get hget bd hbd
    obtain ⟨i, hi⟩ := List.getElem?_of_mem hget
    obtain ⟨bd', hbd', hscan⟩ := firebirdScans_getElem? hi
    obtain rfl := Option.some.inj (hbd'.symm.trans hbd)
    obtain ⟨row, -, heq⟩ := (explainPushdown_ok_iff.mp h).get hscan
    obtain ⟨view, hview, -⟩ := explainRow_eq_ok.mp heq
    exact ⟨view, hview⟩
  · intro h
    have hall : ∀ scan ∈ plan.labels.filterMap reportedScan, ∀ n, ∃ row,
        scan.2.explainRow api hw n scan.1 = .ok row := by
      intro scan hscan n
      obtain ⟨op, -, hop⟩ := List.mem_filterMap.mp hscan
      have hget : scan.1 ∈ firebirdScans plan := by
        rw [← filterMap_reportedScan_fst]
        exact List.mem_map_of_mem hscan
      obtain ⟨view, hview⟩ := h scan.1 hget scan.2 (reportedScan_eq_some.mp hop).2.2
      exact ⟨_, explainRow_eq_ok.mpr ⟨view, hview, rfl⟩⟩
    obtain ⟨rows, hrows⟩ := exists_numbered hall 1
    exact ⟨rows, explainPushdown_ok_iff.mpr hrows⟩

end FirebirdScan
