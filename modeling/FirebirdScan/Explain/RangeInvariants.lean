import FirebirdScan.Explain.WalkPlan
import FirebirdScan.Profile.PartitionSizing
import FirebirdScan.Query.Statement
import FirebirdScan.Storage.AttachedCatalog

/-!
# `Explain.RangeInvariants` — what is promised of the explainer's rows

Whether a table can be cut into key ranges is decided twice. `ClassifyPkRange` looks at the constraints that the
catalog load has read, and takes every integer type; `ProbePrimaryKey` looks for an index with one segment, takes
three of these types, and finds a range only where there are two keys. The explainer shows the first answer as
`pk_range_eligible` and the second as `planned_partitions`.

`explainPushdown_documented_iff` says for which tables the two agree.
-/

namespace FirebirdScan

/-! ## The invariants -/

/-- What is promised of a row. `FirebirdScanInitGlobal` would cut the scan by the same bind data. -/
structure Documented (hw : UInt32) (bd : PlannedBindData) (row : ExplainRow) : Prop where
  parallel : row.residualFilters.length = row.notPushedReasons.length
  column : row.pkRangeEligible = false → row.pkRangeColumnValue = none
  planned : row.plannedPartitionsValid = true ↔ row.pkRangeEligible = true
  partitions : row.plannedPartitionsValid = true → ∃ n specs, row.plannedPartitions = some n ∧
    initPartitions hw bd.partitionsOverride bd.pk = some specs ∧ specs.length = n
  strategy : row.scanStrategy = "pk-range-partitionable" ↔ row.pkRangeEligible = true
  charset : row.charsetPushdownBlocked = true ↔ "NONE_CHARSET" ∈ row.notPushedReasons

/-! ## Tables -/

/-- How a table gets into a plan: as one of an attached database, with the entry that the catalog load made of it and
    with the answers to the probe of its first scan; or, where a view of DuckDB's calls it, by `firebird_scan`. -/
inductive TableSource where
  | attached (load : CatalogLoad) (tableName : Bytes) (columns : TableColumns) (isView : Bool) (probe : Metadata)
  | called (tableName : Bytes) (columns : TableColumns) (paging : PagingArguments) (probe : Metadata)

/-- What the constraints say of the primary key. -/
inductive KeyShape where
  | noKey
  | composite
  | other (column : Bytes)
  | integer (column : Bytes)

/-- The shape of the first primary key. -/
def keyShape (uniqueKeys : List UniqueKey) (columns : TableColumns) : KeyShape :=
  match uniqueKeys.find? UniqueKey.isPrimary with
  | none => .noKey
  | some key =>
      match key.columns with
      | [] => .other []
      | [column] =>
          if (columns.types[columns.names.idxOf column]?).any isKeyType then .integer column
          else .other column
      | _ :: _ :: _ => .composite

namespace TableSource

/-- The entry of an attached table. -/
def entry (load : CatalogLoad) (tableName : Bytes) (columns : TableColumns) (isView : Bool) : FirebirdTableEntry :=
  load.tableEntry load.uniqueKeys load.foreignKeys tableName columns isView

/-- The descriptor: `FirebirdScanBind` leaves it as it was made. -/
def pkDescriptor : TableSource → PrimaryKeyDescriptor
  | attached load tableName columns isView _ => (entry load tableName columns isView).pkDescriptor
  | called _ _ _ _ => {}

/-- The probed range. `FirebirdScanBind` asks for one if the scan may be parallel, or is paged. -/
def pk : TableSource → Option PrimaryKeyInfo
  | attached load tableName columns isView probe =>
      let entry := entry load tableName columns isView
      probePrimaryKey probe entry.name entry.columns.names entry.columns.types
  | called tableName columns paging probe =>
      if paging.partitionsOverride.value ≠ 1 ∨ paging.limitOverride.isSome ∨ paging.offsetOverride.isSome then
        probePrimaryKey probe tableName columns.names columns.types
      else none

def partitionsOverride : TableSource → PartitionsOverride
  | attached _ _ _ _ _ => .auto
  | called _ _ paging _ => paging.partitionsOverride

/-- What the descriptor is made of. -/
def shape : TableSource → KeyShape
  | attached load tableName columns isView _ =>
      let entry := entry load tableName columns isView
      keyShape entry.uniqueKeys entry.columns
  | called _ _ _ _ => .noKey

/-- The bind data of a scan of the table. The hook adds its predicates to it. -/
structure Binds (source : TableSource) (bd : PlannedBindData) : Prop where
  pkDescriptor : bd.pkDescriptor = source.pkDescriptor
  pk : bd.pk = source.pk
  partitionsOverride : bd.partitionsOverride = source.partitionsOverride

/-- The two answers agree: a key that the constraints call an integer has a range, of less than `2^63` keys, and no
    other table has one. A key of another type that is alone is called by its name, so it has none. -/
def KeyAgrees (source : TableSource) : Prop :=
  match source.shape with
  | .noKey => source.pk = none
  | .composite => source.pk = none
  | .other column => column = [] ∧ source.pk = none
  | .integer _ => ∃ pk, source.pk = some pk ∧ pk.maxValue - pk.minValue + 1 < 2 ^ 63

end TableSource

/-! ## The classification -/

/-- What `ClassifyPkRange` says of each shape. -/
def KeyShape.classification : KeyShape → PkRangeClassification
  | noKey => ⟨false, [], "no primary key", .serial⟩
  | composite => ⟨false, [], "composite PK", .serial⟩
  | other column => ⟨false, column, "non-numeric PK", .serial⟩
  | integer column => ⟨true, column, "single numeric PK", .pkRangePartitionable⟩

theorem classifyPkRange_pkDescriptor (uniqueKeys : List UniqueKey) (columns : TableColumns) :
    classifyPkRange (pkDescriptor uniqueKeys columns) = (keyShape uniqueKeys columns).classification := by
  unfold keyShape pkDescriptor
  rcases uniqueKeys.find? UniqueKey.isPrimary with _ | ⟨name, isPrimary, keyColumns⟩
  · rfl
  · rcases keyColumns with _ | ⟨column, _ | ⟨second, rest⟩⟩
    · rfl
    · show classifyPkRange ⟨true, [column], (columns.types[columns.names.idxOf column]?).any isKeyType⟩ =
        KeyShape.classification (if (columns.types[columns.names.idxOf column]?).any isKeyType then _ else _)
      rcases (columns.types[columns.names.idxOf column]?).any isKeyType with _ | _
      · rfl
      · rfl
    · show classifyPkRange ⟨true, column :: second :: rest, false⟩ = _
      have hlong : (column :: second :: rest).length > 1 := Nat.succ_lt_succ (Nat.succ_pos _)
      exact (if_neg Bool.false_ne_true).trans (if_pos hlong)

theorem TableSource.classifyPkRange_eq (source : TableSource) :
    classifyPkRange source.pkDescriptor = source.shape.classification := by
  cases source with
  | attached load tableName columns isView probe =>
      exact classifyPkRange_pkDescriptor _ (entry load tableName columns isView).columns
  | called tableName columns paging probe => rfl

/-! ## The partitions -/

theorem keyRangesFrom_length {lo hi : Int} {n : Nat} {width : ℚ} {rounds i : Nat} {ranges : List (Int × Int)}
    (h : keyRangesFrom lo hi n width rounds i = some ranges) : ranges.length = rounds := by
  induction rounds generalizing i ranges with
  | zero =>
      obtain rfl := Option.some.inj h
      rfl
  | succ rounds ih =>
      unfold keyRangesFrom at h
      obtain ⟨range, -, h⟩ := Option.bind_eq_some_iff.mp h
      obtain ⟨rest, hrest, h⟩ := Option.bind_eq_some_iff.mp h
      obtain rfl := Option.some.inj h
      exact congrArg (· + 1) (ih hrest)

/-- Without an override there are as many partitions as `PickPartitionCount` says: that is never more than keys. -/
theorem partitionCount_auto (hw : UInt32) {pk : PrimaryKeyInfo} (hwidth : pk.maxValue - pk.minValue + 1 < 2 ^ 63) :
    partitionCount hw .auto pk.minValue pk.maxValue = pickPartitionCount hw pk.minValue pk.maxValue := by
  have hlt := pk.min_lt_max
  have hspan : int64 (pk.maxValue - pk.minValue) = some (pk.maxValue - pk.minValue) :=
    int64_of_mem (by omega) (by omega)
  have hcapacity : int64 (pk.maxValue - pk.minValue + 1) = some (pk.maxValue - pk.minValue + 1) :=
    int64_of_mem (by omega) hwidth
  have hcount : (partitionsFor (concurrency hw) (pk.maxValue - pk.minValue + 1) : Int) ≤
      pk.maxValue - pk.minValue + 1 := by
    unfold partitionsFor
    split_ifs with hsmall <;> omega
  have hrequested : requestedCount hw .auto pk.minValue pk.maxValue =
      pickPartitionCount hw pk.minValue pk.maxValue := if_neg (lt_irrefl 0)
  unfold partitionCount
  rw [hrequested, pickPartitionCount_eq hlt hwidth]
  simp only [Option.bind_eq_bind, Option.bind_some, hspan, hcapacity]
  rw [if_neg (fun h => absurd h.2 (not_lt.mpr hcount))]

/-- The number that is shown is that of the partitions, for a range whose keys can be counted. -/
theorem initPartitions_auto (hw : UInt32) {pk : PrimaryKeyInfo} (hwidth : pk.maxValue - pk.minValue + 1 < 2 ^ 63) :
    ∃ n specs, pickPartitionCount hw pk.minValue pk.maxValue = some n ∧
      initPartitions hw .auto (some pk) = some specs ∧ specs.length = n := by
  obtain ⟨ranges, hranges, -⟩ := keyRanges_tiles hw .auto hwidth
  obtain ⟨n, hn, hloop⟩ := Option.bind_eq_some_iff.mp hranges
  rw [partitionCount_auto hw hwidth] at hn
  refine ⟨n, ranges.map fun r => ⟨some r⟩, hn, ?_, ?_⟩
  · show (keyRanges hw .auto pk).map _ = _
    rw [hranges]
    rfl
  · rw [List.length_map]
    exact keyRangesFrom_length hloop

/-- No number is shown for the other ranges. -/
theorem pickPartitionCount_width {hw : UInt32} {lo hi : Int} {n : Nat} (h : pickPartitionCount hw lo hi = some n) :
    hi - lo + 1 < 2 ^ 63 := by
  obtain ⟨span, hspan, h⟩ := Option.bind_eq_some_iff.mp h
  obtain ⟨rfl, -⟩ := int64_eq_some.mp hspan
  obtain ⟨range, hrange, -⟩ := Option.bind_eq_some_iff.mp h
  exact (int64_eq_some.mp hrange).2.2

/-! ## The rows -/

theorem residuals_parallel (bd : PlannedBindData) (api : DuckdbApi) (hw : UInt32) (n : Nat) (get : LogicalGet) :
    (bd.reportedRow api hw n get).residualFilters.length = (bd.reportedRow api hw n get).notPushedReasons.length := by
  obtain ⟨frags, reasons, -, hreasons, hbuild⟩ :=
    build_sql api (bd.explainArgs get.columnIds) (scanFilters api get)
  show (bd.residualFilters (build _ _ _)).length = (bd.notPushedReasons (build _ _ _)).length
  rw [hbuild]
  unfold ScanBindData.residualFilters ScanBindData.notPushedReasons
  rw [List.length_append, List.length_append, List.length_map, List.length_map, ← hreasons]

theorem ExplainRow.pkRangeColumnValue_eq_none {row : ExplainRow} :
    row.pkRangeColumnValue = none ↔ row.pkRangeColumn = [] := by
  unfold pkRangeColumnValue
  split_ifs with hempty
  · exact iff_of_true rfl hempty
  · exact iff_of_false not_false hempty

/-- The strategy that is shown says whether the key is eligible. -/
theorem KeyShape.strategy_iff (shape : KeyShape) :
    (if shape.classification.strategy = .pkRangePartitionable then "pk-range-partitionable" else "serial") =
      "pk-range-partitionable" ↔ shape.classification.eligible = true := by
  cases shape with
  | noKey => exact iff_of_false (by decide) Bool.false_ne_true
  | composite => exact iff_of_false (by decide) Bool.false_ne_true
  | other column => exact iff_of_false (by simp [KeyShape.classification]) Bool.false_ne_true
  | integer column => exact iff_of_true rfl rfl

/-- The number is shown if there is a range, and it is the one of that range. -/
theorem PlannedBindData.partitions_iff (bd : PlannedBindData) (hw : UInt32) :
    (bd.pk.isSome = true → ∃ n specs, bd.plannedPartitions hw = some n ∧
        initPartitions hw bd.partitionsOverride bd.pk = some specs ∧ specs.length = n) ↔
      ∀ pk ∈ bd.pk, ∃ n specs, pickPartitionCount hw pk.minValue pk.maxValue = some n ∧
        initPartitions hw bd.partitionsOverride (some pk) = some specs ∧ specs.length = n := by
  unfold plannedPartitions
  cases bd.pk with
  | none => exact iff_of_true (fun h => nomatch h) fun pk hpk => nomatch hpk
  | some pk =>
      constructor
      · rintro h pk' hpk
        obtain rfl := Option.some.inj hpk
        exact h rfl
      · intro h _
        exact h pk rfl

/-- What is left of the invariants for a shape of the key. -/
theorem documented_iff {bd : PlannedBindData} {shape : KeyShape}
    (hclass : classifyPkRange bd.pkDescriptor = shape.classification) (api : DuckdbApi) (hw : UInt32) (n : Nat)
    (get : LogicalGet) (view : Option Bool × List String) :
    Documented hw bd { bd.reportedRow api hw n get with viewHeavy := view.1, viewHeavyReasons := view.2 } ↔
      (shape.classification.eligible = false → shape.classification.column = []) ∧
        (bd.pk.isSome = true ↔ shape.classification.eligible = true) ∧
        ∀ pk ∈ bd.pk, ∃ n specs, pickPartitionCount hw pk.minValue pk.maxValue = some n ∧
          initPartitions hw bd.partitionsOverride (some pk) = some specs ∧ specs.length = n := by
  rw [← bd.partitions_iff, ← hclass]
  constructor
  · intro h
    exact ⟨fun heligible => ExplainRow.pkRangeColumnValue_eq_none.mp (h.column heligible), h.planned, h.partitions⟩
  · rintro ⟨hcolumn, hplanned, hpartitions⟩
    refine ⟨residuals_parallel bd api hw n get, ?_, hplanned, hpartitions, ?_, List.contains_iff_mem⟩
    · intro heligible
      exact ExplainRow.pkRangeColumnValue_eq_none.mpr (hcolumn heligible)
    · have hstrategy := shape.strategy_iff
      rw [← hclass] at hstrategy
      exact hstrategy

/-- Where the key is not eligible, nothing may be shown of one. -/
theorem serial_iff {column : Bytes} {pk : Option PrimaryKeyInfo} {Counted : PrimaryKeyInfo → Prop} :
    ((false = false → column = []) ∧ (pk.isSome = true ↔ false = true) ∧ ∀ k ∈ pk, Counted k) ↔
      column = [] ∧ pk = none := by
  constructor
  · rintro ⟨hcolumn, hpk, -⟩
    refine ⟨hcolumn rfl, ?_⟩
    rcases pk with _ | k
    · rfl
    · exact absurd (hpk.mp rfl) Bool.false_ne_true
  · rintro ⟨hcolumn, rfl⟩
    exact ⟨fun _ => hcolumn, Iff.rfl, fun k hk => nomatch hk⟩

/-- The constraints of a table that is called are not known. -/
theorem TableSource.partitionsOverride_integer {source : TableSource} {column : Bytes}
    (h : source.shape = .integer column) : source.partitionsOverride = .auto := by
  cases source with
  | attached load tableName columns isView probe => rfl
  | called tableName columns paging probe => cases h

/-- The invariants of a row for a table. -/
theorem TableSource.Binds.documented_iff {source : TableSource} {bd : PlannedBindData} (h : source.Binds bd)
    (api : DuckdbApi) (hw : UInt32) (n : Nat) (get : LogicalGet) (view : Option Bool × List String) :
    Documented hw bd { bd.reportedRow api hw n get with viewHeavy := view.1, viewHeavyReasons := view.2 } ↔
      source.KeyAgrees := by
  have hclass : classifyPkRange bd.pkDescriptor = source.shape.classification := by
    rw [h.pkDescriptor, source.classifyPkRange_eq]
  rw [FirebirdScan.documented_iff hclass api hw n get view, h.pk, h.partitionsOverride]
  unfold KeyAgrees
  rcases hshape : source.shape with _ | _ | column | column
  · exact serial_iff.trans (and_iff_right rfl)
  · exact serial_iff.trans (and_iff_right rfl)
  · exact serial_iff
  · rw [partitionsOverride_integer hshape]
    constructor
    · rintro ⟨-, hplanned, hcount⟩
      obtain ⟨pk, hpk⟩ := Option.isSome_iff_exists.mp (hplanned.mpr rfl)
      obtain ⟨k, -, hk, -⟩ := hcount pk hpk
      exact ⟨pk, hpk, pickPartitionCount_width hk⟩
    · rintro ⟨pk, hpk, hwidth⟩
      rw [hpk]
      refine ⟨?_, iff_of_true rfl rfl, ?_⟩
      · intro heligible
        cases heligible
      intro pk' hpk'
      obtain rfl := Option.some.inj hpk'
      exact initPartitions_auto hw hwidth

/-- A key that the constraints call an integer has a range exactly where the table has two keys, and few enough: an
    empty table disagrees, and so does one with a single row. -/
theorem TableSource.keyAgrees_integer_iff {source : TableSource} {column pkName : Bytes} {keys : List Int64}
    (hshape : source.shape = .integer column) (hprobe : source.pk = PkCache.probePrimaryKey (some pkName) keys) :
    source.KeyAgrees ↔ (∃ a ∈ keys, ∃ b ∈ keys, a.toInt < b.toInt) ∧ PkCache.Countable keys := by
  unfold KeyAgrees
  rw [hshape, hprobe]
  constructor
  · rintro ⟨pk, hpk, hwidth⟩
    obtain ⟨-, -, a, ha, b, hb, hmin, hmax⟩ := PkCache.probePrimaryKey_eq_some hpk
    refine ⟨⟨a, ha, b, hb, ?_⟩, (PkCache.probePrimaryKey_span hpk).mp hwidth⟩
    rw [hmin, hmax]
    exact pk.min_lt_max
  · rintro ⟨⟨a, ha, b, hb, hlt⟩, hcountable⟩
    have hname : (some pkName).isSome = true := rfl
    obtain ⟨pk, hpk⟩ := PkCache.probePrimaryKey_isSome hname ha hb hlt
    exact ⟨pk, hpk, (PkCache.probePrimaryKey_span hpk).mpr hcountable⟩

/-- **The explainer's rows are as promised** exactly for the tables on which the constraints and the probe agree. -/
theorem explainPushdown_documented_iff {api : DuckdbApi} {hw : UInt32} {plan : LogicalOperator}
    {rows : List ExplainRow} {source : LogicalGet → TableSource}
    (hsource : ∀ get ∈ firebirdScans plan, ∀ bd ∈ get.bindData, (source get).Binds bd)
    (h : explainPushdown api hw plan = .ok rows) :
    (∀ (i : Nat) (get : LogicalGet), (firebirdScans plan)[i]? = some get → ∀ bd ∈ get.bindData, ∀ row ∈ rows[i]?,
        Documented hw bd row) ↔
      ∀ get ∈ firebirdScans plan, (source get).KeyAgrees := by
  obtain ⟨-, hrows⟩ := explainPushdown_row h
  constructor
  · intro hdocumented get hget
    obtain ⟨i, hi⟩ := List.getElem?_of_mem hget
    obtain ⟨bd, view, hbd, hrow⟩ := hrows i get hi
    exact ((hsource get hget bd hbd).documented_iff api hw (1 + i) get view).mp (hdocumented i get hi bd hbd _ hrow)
  · intro hagrees i get hi bd hbd row hrow
    have hget := List.mem_of_getElem? hi
    obtain ⟨bd', view, hbd', hrow'⟩ := hrows i get hi
    obtain rfl := Option.some.inj (hbd'.symm.trans hbd)
    obtain rfl := Option.some.inj (hrow'.symm.trans hrow)
    exact ((hsource get hget bd' hbd).documented_iff api hw (1 + i) get view).mpr (hagrees get hget)

/-! ## A table with one key column -/

/-- A table `T` with the primary key `ID`, and the keys `1` and `2` if these are numbers. -/
def oneKey : Metadata
  | .uniqueConstraints => .ok [⟨utf8 "T", utf8 "PK_T", utf8 "PRIMARY KEY", utf8 "ID"⟩]
  | .primaryKeyIndex _ => .ok (some (utf8 "PK_T"))
  | .indexSegments _ => .ok [utf8 "ID"]
  | .keyExtremes _ _ => .ok (some ⟨.long, some 1, some 2⟩)
  | .objectType _ => .ok (some (utf8 "TABLE"))
  | _ => .error (utf8 "no permission for SELECT access")

/-- The column `ID`, of some type. -/
def oneKeyColumn : LogicalTypeId → FirebirdColumnDesc
  | .varchar => ⟨utf8 "ID", .varying, 0, 0, 3, 4, false⟩
  | _ => ⟨utf8 "ID", .long, 0, 0, 4, -1, false⟩

/-- The table is attached, with a key column of some type. -/
def oneKeySource (id : LogicalTypeId) : TableSource :=
  .attached { server := oneKey, createEntry := fun _ _ => .ok () } (utf8 "T")
    { names := [utf8 "ID"], types := [⟨id, 0, 0⟩], descs := [oneKeyColumn id] } false oneKey

/-- `SELECT ID FROM T`. -/
def oneKeyScan (id : LogicalTypeId) : LogicalGet where
  functionName := firebirdScan
  bindData := some
    { columnNames := [utf8 "ID"]
      columnDescs := [oneKeyColumn id]
      tableName := utf8 "T"
      pk := (oneKeySource id).pk
      pkDescriptor := (oneKeySource id).pkDescriptor
      server := { metadata := oneKey, viewSource := fun _ => .noRow } }
  columnIds := [0]
  tableFilters := []
  distinct_keys := .nil
  bound _ := rfl

theorem oneKeyScan_binds {id : LogicalTypeId} {bd : PlannedBindData} (h : bd ∈ (oneKeyScan id).bindData) :
    (oneKeySource id).Binds bd := by
  obtain rfl := Option.some.inj h
  exact ⟨rfl, rfl, rfl⟩

theorem explainPushdown_documented_integer :
    ∃ rows, explainPushdown .v1_5 8 (.node (some (oneKeyScan .integer)) []) = .ok rows ∧
      ∀ bd ∈ (oneKeyScan .integer).bindData, ∀ row ∈ rows[0]?, Documented 8 bd row := by
  refine ⟨_, rfl, ?_⟩
  refine (@explainPushdown_documented_iff .v1_5 8 (.node (some (oneKeyScan .integer)) []) _
    (fun _ => oneKeySource .integer) ?_ rfl).mpr ?_ 0 (oneKeyScan .integer) rfl
  · intro get hget bd hbd
    obtain rfl := List.mem_singleton.mp hget
    exact oneKeyScan_binds hbd
  · intro get hget
    exact ⟨_, rfl, by decide⟩

/-- **A key of text is shown although it is not eligible**: `pk_range_column` is its name. -/
theorem explainPushdown_names_varchar_key :
    ∃ row, explainPushdown .v1_5 8 (.node (some (oneKeyScan .varchar)) []) = .ok [row] ∧
      row.pkRangeEligible = false ∧ row.pkRangeColumnValue = some (utf8 "ID") ∧
      ∀ bd, ¬Documented 8 bd row := by
  refine ⟨_, rfl, rfl, rfl, ?_⟩
  intro bd h
  exact nomatch h.column rfl

end FirebirdScan
