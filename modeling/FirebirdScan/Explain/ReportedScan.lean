import FirebirdScan.Explain.WalkPlan
import FirebirdScan.Scanner.TelemetrySafe

/-!
# `Explain.ReportedScan` — the explainer says what the scanner records

The explainer and the worker call the same builder. The worker has a key range and the predicates of the hook for
it, and gets the filters by positions from DuckDB's physical planner; the explainer has neither, and finds the
positions itself. None of this shows in what is reported of the filters (`explainPushdown_reports`).
-/

namespace FirebirdScan

open OrderedMap

/-! ## The filters of a run -/

/-- The filters of column ids, under positions in a list of column ids: each is where its column comes first. -/
structure Rekeyed (columnIds : List Nat) (tableFilters filters : List (Nat × TableFilter)) : Prop where
  ascending : Ascending filters
  mem_iff : ∀ i f, (i, f) ∈ filters ↔
    ∃ key, (key, f) ∈ tableFilters ∧ columnIds[i]? = some key ∧ key ∉ columnIds.take i

/-- The filters that a scan of a get is given when it runs. -/
def RunFilters (api : DuckdbApi) (get : LogicalGet) (filters : List (Nat × TableFilter)) : Prop :=
  match api with
  | .v1_5 => Rekeyed get.columnIds get.tableFilters filters
  | .v2_0 => filters = get.tableFilters

/-- `idxOf` finds where a column comes first. -/
theorem idxOf_eq_iff {l : List Nat} {key i : Nat} :
    l.idxOf key = i ∧ i < l.length ↔ l[i]? = some key ∧ key ∉ l.take i := by
  constructor
  · rintro ⟨rfl, hlt⟩
    have hmem : key ∈ l := List.idxOf_lt_length_iff.mp hlt
    refine ⟨List.getElem?_idxOf hmem, ?_⟩
    intro htake
    exact lt_irrefl _ ((List.mem_take_iff_idxOf_lt hmem).mp htake)
  · rintro ⟨hget, hnot⟩
    obtain ⟨hlt, hkey⟩ := List.getElem?_eq_some_iff.mp hget
    have hmem : key ∈ l := List.mem_of_getElem? hget
    refine ⟨?_, hlt⟩
    apply le_antisymm
    · have htake : key ∈ l.take (i + 1) := by
        rw [List.take_add_one, hget]
        exact List.mem_append_right _ List.mem_cons_self
      exact Nat.lt_succ_iff.mp ((List.mem_take_iff_idxOf_lt hmem).mp htake)
    · exact not_lt.mp fun hlt => hnot ((List.mem_take_iff_idxOf_lt hmem).mpr hlt)

section Rekey

variable {columnIds : List Nat}

/-- A round keeps what is there, and adds the filter where its column comes first. -/
theorem rekeyStep_rekeyed {done filters : List (Nat × TableFilter)} {entry : Nat × TableFilter}
    (h : Rekeyed columnIds done filters) (hnew : entry.1 ∉ done.map Prod.fst) :
    Rekeyed columnIds (done ++ [entry]) (rekeyStep columnIds filters entry) := by
  obtain ⟨column, filter⟩ := entry
  unfold rekeyStep
  split_ifs with hlt
  · have hfirst : columnIds[columnIds.idxOf column]? = some column ∧
        column ∉ columnIds.take (columnIds.idxOf column) := idxOf_eq_iff.mp ⟨rfl, hlt⟩
    -- the position is free: the filter there would be one of the same column
    have hfree : columnIds.idxOf column ∉ filters.map Prod.fst := by
      intro hmem
      obtain ⟨⟨i, f⟩, hentry, rfl⟩ := List.mem_map.mp hmem
      obtain ⟨key, hdone, hkey, -⟩ := (h.mem_iff _ f).mp hentry
      obtain rfl := Option.some.inj (hkey.symm.trans hfirst.1)
      exact hnew (List.mem_map.mpr ⟨_, hdone, rfl⟩)
    refine ⟨h.ascending.assign, ?_⟩
    intro i f
    rw [mem_assign hfree, h.mem_iff]
    constructor
    · rintro (heq | ⟨key, hdone, hkey⟩)
      · obtain ⟨rfl, rfl⟩ := Prod.mk.inj heq
        exact ⟨column, List.mem_append_right _ List.mem_cons_self, hfirst⟩
      · exact ⟨key, List.mem_append_left _ hdone, hkey⟩
    · rintro ⟨key, hmem, hkey⟩
      rcases List.mem_append.mp hmem with hdone | hlast
      · exact .inr ⟨key, hdone, hkey⟩
      · obtain ⟨rfl, rfl⟩ := Prod.mk.inj (List.mem_singleton.mp hlast)
        exact .inl (by rw [(idxOf_eq_iff.mpr hkey).1])
  · refine ⟨h.ascending, ?_⟩
    intro i f
    rw [h.mem_iff]
    constructor
    · rintro ⟨key, hdone, hkey⟩
      exact ⟨key, List.mem_append_left _ hdone, hkey⟩
    · rintro ⟨key, hmem, hkey⟩
      rcases List.mem_append.mp hmem with hdone | hlast
      · exact ⟨key, hdone, hkey⟩
      · obtain ⟨rfl, rfl⟩ := Prod.mk.inj (List.mem_singleton.mp hlast)
        obtain ⟨hidx, hi⟩ := idxOf_eq_iff.mpr hkey
        exact absurd (hidx.symm ▸ hi) hlt

/-- The loop, from some filter on. -/
theorem foldl_rekeyStep {rest done filters : List (Nat × TableFilter)} (h : Rekeyed columnIds done filters)
    (hdistinct : ((done ++ rest).map Prod.fst).Nodup) :
    Rekeyed columnIds (done ++ rest) (rest.foldl (rekeyStep columnIds) filters) := by
  induction rest generalizing done filters with
  | nil =>
      rw [List.append_nil]
      exact h
  | cons entry rest ih =>
      have hnew : entry.1 ∉ done.map Prod.fst := by
        rw [List.map_append, List.nodup_append] at hdistinct
        intro hmem
        exact hdistinct.2.2 _ hmem _ (List.mem_map_of_mem List.mem_cons_self) rfl
      rw [List.append_cons] at hdistinct ⊢
      exact ih (rekeyStep_rekeyed h hnew) hdistinct

end Rekey

/-- There is one map of the filters by positions. -/
theorem Rekeyed.unique {columnIds : List Nat} {tableFilters filters filters' : List (Nat × TableFilter)}
    (h : Rekeyed columnIds tableFilters filters) (h' : Rekeyed columnIds tableFilters filters') :
    filters = filters' :=
  h.ascending.eq_of_mem_iff h'.ascending fun (i, f) => (h.mem_iff i f).trans (h'.mem_iff i f).symm

/-- The explainer finds it. -/
theorem rekeyed_scanFilters (get : LogicalGet) :
    Rekeyed get.columnIds get.tableFilters (scanFilters .v1_5 get) := by
  have hnone : Rekeyed get.columnIds [] [] :=
    ⟨.nil, fun i f => iff_of_false List.not_mem_nil fun ⟨_, hmem, _⟩ => List.not_mem_nil hmem⟩
  exact foldl_rekeyStep hnone get.distinct_keys

/-- **The filters of the explainer are those of the run.** -/
theorem runFilters_iff {api : DuckdbApi} {get : LogicalGet} {filters : List (Nat × TableFilter)} :
    RunFilters api get filters ↔ filters = scanFilters api get := by
  cases api with
  | v2_0 => exact Iff.rfl
  | v1_5 =>
      constructor
      · intro h
        exact h.unique (rekeyed_scanFilters get)
      · rintro rfl
        exact rekeyed_scanFilters get

/-! ## The report -/

/-- A row says of the filters what a record does, up to the display escape of `RecordQuery`. -/
structure ReportsAs (row : ExplainRow) (rec : FirebirdQueryTelemetry) : Prop where
  projectedColumns : row.projectedColumns = rec.projectedColumns
  pushedFilters : row.pushedFilters.map makeTelemetrySafeUtf8 = rec.pushedFilters
  residualFilters : row.residualFilters = rec.residualFilters
  notPushedReasons : row.notPushedReasons = rec.notPushedReasons

/-- What becomes of the filters does not depend on the key range, the predicates of the hook and the paging. -/
theorem build_explainArgs (bd : PlannedBindData) (api : DuckdbApi) (columnIds : List Nat)
    (filters : List (Nat × TableFilter)) (spec : PartitionSpec) :
    (build api (bd.explainArgs columnIds) filters).pushedFilterSql =
        (bd.partitionQuery api columnIds filters spec).pushedFilterSql ∧
      (build api (bd.explainArgs columnIds) filters).residualFilterIndices =
        (bd.partitionQuery api columnIds filters spec).residualFilterIndices ∧
      (build api (bd.explainArgs columnIds) filters).residualFilterReasons =
        (bd.partitionQuery api columnIds filters spec).residualFilterReasons := ⟨rfl, rfl, rfl⟩

/-- The row of a scan, beside the record of any of its partitions. -/
theorem reportedRow_reports (bd : PlannedBindData) (toText : Value → Bytes) {api : DuckdbApi} (hw : UInt32)
    (n : Nat) {get : LogicalGet} {filters : List (Nat × TableFilter)} (hrun : RunFilters api get filters)
    (partitions : Nat) (spec : PartitionSpec) (view : Option Bool × List String) :
    ReportsAs { bd.reportedRow api hw n get with viewHeavy := view.1, viewHeavyReasons := view.2 }
      (bd.telemetry toText api get.columnIds filters partitions spec).recorded := by
  obtain rfl := runFilters_iff.mp hrun
  obtain ⟨hpushed, hindices, hreasons⟩ := build_explainArgs bd api get.columnIds (scanFilters api get) spec
  refine ⟨rfl, ?_, ?_, ?_⟩
  · show (_ ++ bd.extraPredicates.map fun ep => makeTelemetrySafeUtf8 ep.sql).map makeTelemetrySafeUtf8 =
      (_ ++ bd.extraPredicates.map ExtraPredicate.sql).map makeTelemetrySafeUtf8
    -- the predicates of the hook are escaped already, and are escaped once more
    have hextra : (bd.extraPredicates.map fun ep => makeTelemetrySafeUtf8 ep.sql).map makeTelemetrySafeUtf8 =
        (bd.extraPredicates.map ExtraPredicate.sql).map makeTelemetrySafeUtf8 := by
      rw [List.map_map, List.map_map]
      apply List.map_congr_left
      intro ep _
      exact makeTelemetrySafeUtf8_idempotent ep.sql
    rw [List.map_append, List.map_append, hextra, hpushed]
  · show bd.residualFilters _ = bd.residualFilters _
    unfold ScanBindData.residualFilters
    rw [hindices]
  · show bd.notPushedReasons _ = bd.notPushedReasons _
    unfold ScanBindData.notPushedReasons
    rw [hreasons]

/-- **The explainer reports what the scanner records.** It reports if the server answers about each table; then there
    is one row for each scan of the plan, numbered in preorder, and it says of the filters what every partition of
    the scan records when that runs. -/
theorem explainPushdown_reports (toText : Value → Bytes) (api : DuckdbApi) (hw : UInt32) (plan : LogicalOperator) :
    ((∃ rows, explainPushdown api hw plan = .ok rows) ↔
        ∀ get ∈ firebirdScans plan, ∀ bd ∈ get.bindData,
          ∃ view, viewHeaviness bd.server bd.tableName = .ok view) ∧
      ∀ rows, explainPushdown api hw plan = .ok rows →
        rows.length = (firebirdScans plan).length ∧
          ∀ i get, (firebirdScans plan)[i]? = some get →
            ∃ bd row, get.bindData = some bd ∧ rows[i]? = some row ∧ row.scanOrdinal = i + 1 ∧
              ∀ filters, RunFilters api get filters → ∀ partitions spec,
                ReportsAs row (bd.telemetry toText api get.columnIds filters partitions spec).recorded := by
  refine ⟨explainPushdown_isOk, ?_⟩
  intro rows h
  obtain ⟨hlength, hrow⟩ := explainPushdown_row h
  refine ⟨hlength, ?_⟩
  intro i get hget
  obtain ⟨bd, view, hbd, hi⟩ := hrow i get hget
  refine ⟨bd, _, hbd, hi, Nat.add_comm 1 i, ?_⟩
  intro filters hrun partitions spec
  exact reportedRow_reports bd toText hw (1 + i) hrun partitions spec view

/-- Every relation is a table. -/
def tablesOnly : ExplainServer where
  metadata
    | .objectType _ => .ok (some (utf8 "TABLE"))
    | _ => .error (utf8 "no permission for SELECT access")
  viewSource _ := .noRow

/-- `SELECT LABEL FROM DEPT WHERE LABEL IS NOT NULL`: the label is the second column of the table, and the first of the
    scan. -/
def labelled : LogicalGet where
  functionName := firebirdScan
  bindData := some
    { columnNames := [utf8 "ID", utf8 "LABEL"]
      columnDescs := [⟨utf8 "ID", .long, 0, 0, 4, -1, true⟩, ⟨utf8 "LABEL", .varying, 0, 0, 10, 4, true⟩]
      tableName := utf8 "DEPT"
      server := tablesOnly }
  columnIds := [1]
  tableFilters := [(1, .isNotNull)]
  distinct_keys := by decide
  bound _ := rfl

theorem explainPushdown_reports_labelled :
    ∃ rows, explainPushdown .v1_5 8 (.node none [.node (some labelled) [], .node (some labelled) []]) = .ok rows ∧
      rows.length = 2 ∧ rows.map ExplainRow.scanOrdinal = [1, 2] ∧
      ∃ bd row, labelled.bindData = some bd ∧ rows[1]? = some row ∧
        ReportsAs row (bd.telemetry (fun _ => []) .v1_5 [1] [(0, .isNotNull)] 1 {}).recorded := by
  refine ⟨_, rfl, rfl, rfl, ?_⟩
  obtain ⟨bd, row, hbd, hrow, -, hreports⟩ :=
    ((explainPushdown_reports (fun _ => []) .v1_5 8
      (.node none [.node (some labelled) [], .node (some labelled) []])).2 _ rfl).2 1 labelled rfl
  exact ⟨bd, row, hbd, hrow, hreports [(0, .isNotNull)] (rekeyed_scanFilters labelled) 1 {}⟩

end FirebirdScan
