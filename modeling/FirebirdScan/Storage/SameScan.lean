import FirebirdScan.Lib.Once
import FirebirdScan.Scanner.OneRelation
import FirebirdScan.Scanner.Paging
import FirebirdScan.Scanner.ViewAnalysis
import FirebirdScan.Storage.AttachOptions
import FirebirdScan.Storage.AttachedCatalog

/-!
# `Storage.SameScan` — a table that is attached, and the same table in a call of `firebird_scan`

A scan is bound in two places. `FirebirdScanBind` asks the server for everything when it is called; `GetScanFunction`
copies what was asked when the tables were loaded, and probes the primary key once for all scans of its entry.

`attached_scan_agrees` says when the two bind one scan: the columns agree but for a view that was described otherwise
when it was loaded, and a table whose kind the server does not tell, which the direct call describes live; and the key
range is the one of the first probe. A relation whose name is not in upper case is scanned only where it is attached.
-/

namespace FirebirdScan

/-! ## The source -/

/-- `FirebirdBindData`, as far as a scan reads it. -/
structure ScanTarget extends ScanBindData where
  connInfo : FirebirdConnectionInfo
  columnTypes : List LogicalType
  numericWidenInt64 : Bool
  partitionsOverride : PartitionsOverride

/-- The bind of a call without paging arguments. -/
def PagingArguments.none : PagingArguments := ⟨.auto, .none, .none⟩

/-- `FirebirdScanBind`, from the connection on. `viewSource` answers `AnalyzeViewSource`. -/
def bindTable (viewSource : Bytes → ViewSource) (server : Metadata) (bound : BoundScan) (paging : PagingArguments) :
    Except Bytes ScanTarget := do
  let columns ← loadTableSchema server bound.noneEncoding bound.numericWidenInt64 bound.tableName
  let pages := paging.limitOverride.isSome || paging.offsetOverride.isSome
  let pk :=
    if paging.partitionsOverride.value ≠ 1 ∨ pages = true then
      probePrimaryKey server bound.tableName columns.names columns.types
    else none
  let reconciled := reconcileViewColumnTypes server bound.tableName bound.numericWidenInt64 columns
  .ok {
    columnNames := reconciled.2.names
    columnDescs := reconciled.2.descs
    columnTypes := reconciled.2.types
    noneEncoding := bound.noneEncoding
    nonePushdown := bound.nonePushdown
    numericWidenInt64 := bound.numericWidenInt64
    tableName := bound.tableName
    connInfo := bound.connInfo
    pk
    isView := reconciled.1
    isViewSimpleForPagination :=
      reconciled.1 && pk.isNone && pages &&
        isViewSimpleForPagination (analyzeViewSource (viewSource (toUpper bound.tableName)))
    limitOverride := paging.limitOverride
    offsetOverride := paging.offsetOverride
    partitionsOverride := paging.partitionsOverride }

/-- What a call of `GetScanFunction` meets: whether there is a connection to have, and the server on the other end. -/
structure ScanCall where
  acquire : Except Bytes Unit := .ok ()
  server : Metadata

namespace FirebirdTableEntry

variable (entry : FirebirdTableEntry)

/-- What is done under `pk_lock_` while nothing is cached. -/
def probe : Once.Attempt (Option PrimaryKeyInfo) ScanCall Bytes := fun call cache =>
  match call.acquire with
  | .error e => (.error e, cache)
  | .ok () => (.ok (), probePrimaryKey call.server entry.name entry.columns.names entry.columns.types)

/-- What `GetScanFunction` copies. -/
def scanTarget (catalog : FirebirdCatalog) (pk : Option PrimaryKeyInfo) : ScanTarget where
  columnNames := entry.columns.names
  columnDescs := entry.columns.descs
  columnTypes := entry.columns.types
  noneEncoding := catalog.noneEncoding
  nonePushdown := catalog.nonePushdown
  numericWidenInt64 := catalog.numericWidenInt64
  tableName := entry.name
  connInfo := catalog.connInfo
  pk
  partitionsOverride := .auto

/-- `pk_cache_` and `pk_loaded_` of an entry, after some calls. -/
def cacheAfter (calls : List ScanCall) : Once.Cell (Option PrimaryKeyInfo) :=
  Once.Cell.after entry.probe ⟨none, false⟩ calls

/-- `GetScanFunction`, behind some calls for the same entry. -/
def getScanFunction (catalog : FirebirdCatalog) (before : List ScanCall) (call : ScanCall) : Except Bytes ScanTarget :=
  ((entry.cacheAfter before).call entry.probe call).1.map (entry.scanTarget catalog)

end FirebirdTableEntry

/-! ## One scan -/

/-- Two binds that differ at most in what only paging reads. -/
def ScanTarget.SameScan (a b : ScanTarget) : Prop :=
  a = { b with isView := a.isView, isViewSimpleForPagination := a.isViewSimpleForPagination }

/-- Without paging they have the same partitions and send the same queries. -/
theorem ScanTarget.SameScan.queries {a b : ScanTarget} (h : a.SameScan b) (hlimit : b.limitOverride = none) :
    (∀ hw, initPartitions hw a.partitionsOverride a.pk = initPartitions hw b.partitionsOverride b.pk) ∧
    ∀ api columnIds filters spec, a.partitionQuery api columnIds filters spec =
      b.partitionQuery api columnIds filters spec := by
  have hpages (isView simple : Bool) :
      ({ b.toScanBindData with isView := isView, isViewSimpleForPagination := simple } : ScanBindData).pagination =
        b.pagination := by
    unfold ScanBindData.pagination
    simp only [hlimit]
  unfold SameScan at h
  rw [h]
  refine ⟨fun hw => rfl, fun api columnIds filters spec => ?_⟩
  unfold ScanBindData.partitionQuery ScanBindData.buildArgs
  simp only [hpages]
  rfl

/-! ## What is asked of a relation -/

/-- What a server says of a relation's kind is right: whether it is a view, and that a view has no primary key. -/
structure UserRelation.KindReported (r : UserRelation) (server : Metadata) : Prop where
  type : ∀ t, server (typeQuery r.name) = .ok (some t) → (t = utf8 "VIEW" ↔ r.isView = true)
  keyless : r.isView = true → ∀ index, server (keyQuery r.name) = .ok index → index = none

/-- The columns of a relation, as the catalog has them. -/
def FirebirdCatalog.columnsOf (catalog : FirebirdCatalog) (r : UserRelation) : TableColumns :=
  readColumns catalog.noneEncoding catalog.numericWidenInt64 r.fields

/-- The kind of the relation is told. -/
def KindTold (server : Metadata) (table : Bytes) : Prop := ∃ t, server (typeQuery table) = .ok (some t)

section Relation

variable {db : Database} {r : UserRelation} {server : Metadata} {columns : TableColumns} {numericWidenInt64 : Bool}

/-- A view goes through the live describe. -/
theorem reconcile_view (hkind : r.KindReported server) (hview : r.isView = true) :
    (reconcileViewColumnTypes server r.name numericWidenInt64 columns).2 =
      liveDescribe server r.name numericWidenInt64 columns := by
  unfold reconcileViewColumnTypes lookupObjectType
  split
  · rename_i t ht
    rw [if_neg (not_not.mpr ((hkind.type t ht).mpr hview))]
  · rfl

/-- A table does only if its kind is not told. -/
theorem reconcile_table (hkind : r.KindReported server) (htable : r.isView = false) :
    (reconcileViewColumnTypes server r.name numericWidenInt64 columns).2 = columns ↔
      KindTold server r.name ∨ liveDescribe server r.name numericWidenInt64 columns = columns := by
  unfold reconcileViewColumnTypes lookupObjectType KindTold
  split
  · rename_i t ht
    have hne : t ≠ utf8 "VIEW" := fun h => Bool.false_ne_true (htable.symm.trans ((hkind.type t ht).mp h))
    rw [if_pos hne]
    exact iff_of_true rfl (.inl ⟨t, ht⟩)
  · rename_i hnot
    exact ⟨.inr, fun h => h.resolve_left fun ⟨t, ht⟩ => hnot t ht⟩

/-- A view has no key to probe. -/
theorem probePrimaryKey_view (hkind : r.KindReported server) (hview : r.isView = true) (names : List Bytes)
    (types : List LogicalType) : probePrimaryKey server r.name names types = none := by
  unfold probePrimaryKey keyColumn
  cases hquery : server (keyQuery r.name) with
  | error e => rfl
  | ok index =>
      obtain rfl := hkind.keyless hview index hquery
      rfl

/-- **A relation is loaded under its name in upper case**, so not at all if it has another. -/
theorem loadTableSchema_upper (hserver : db.Reports server) (hdistinct : db.DistinctNames) (hr : r ∈ db.relations)
    {noneEncoding : NoneEncoding} (h : loadTableSchema server noneEncoding numericWidenInt64 r.name = .ok columns) :
    toUpper r.name = r.name := by
  obtain ⟨rows, hrows, rfl, hne⟩ := loadTableSchema_ok_iff.mp h
  obtain rfl := hserver.relationFields _ rows hrows
  unfold Database.fieldsOf at hne
  cases hfind : db.relations.find? (fun r' => decide (r'.name = toUpper r.name)) with
  | none =>
      rw [hfind] at hne
      -- the system's relations have other names
      cases hlookup : db.others.lookup (toUpper r.name) with
      | none =>
          rw [hlookup] at hne
          exact absurd rfl hne
      | some rows => exact absurd hlookup (hdistinct.lookup_others hr rows)
  | some r' =>
      have hname : r'.name = toUpper r.name := by simpa using List.find?_some hfind
      have hsame : toUpper r'.name = toUpper r.name := by rw [hname, toUpper_idem]
      rw [← hname, List.inj_on_of_nodup_map hdistinct.relations_upper (List.mem_of_find?_eq_some hfind) hr hsame]

/-- After a load that returns, what is found under the name of a relation, however spelt, is the relation's own. -/
theorem lookupEntry_own {call : SchemaCall} (hserver : db.Reports call.load.server) (hdistinct : db.DistinctNames)
    (hloads : (FirebirdSchemaEntry.ensureTablesLoaded {} call).1 = .ok ()) (hr : r ∈ db.relations) {name : Bytes}
    (hname : toUpper name = toUpper r.name) {later : SchemaCall} {entry : FirebirdTableEntry}
    (hfound : ((FirebirdSchemaEntry.ensureTablesLoaded {} call).2.lookupEntry later name).1 = .ok (some entry)) :
    entry = call.load.entryOf r := by
  -- the tables that were loaded
  have htables : ∃ relations, (∀ s ∈ relations, s ∈ db.relations) ∧
      (relations.map fun s => toUpper s.name).Nodup ∧
      FirebirdSchemaEntry.ensureTablesLoaded {} call = (.ok (), ⟨call.load.tablesOf relations, true⟩) := by
    cases hbatch : call.load.batchInto [] with
    | ok tables =>
        cases hacquire : call.acquire with
        | error e =>
            unfold FirebirdSchemaEntry.ensureTablesLoaded at hloads
            rw [if_neg (by decide), hacquire] at hloads
            cases hloads
        | ok u =>
            refine ⟨db.relations, fun s hs => hs, hdistinct.relations_upper, ?_⟩
            rw [FirebirdSchemaEntry.ensureTablesLoaded_batch hacquire hbatch,
              CatalogLoad.batch_eq hserver hdistinct hbatch]
    | error batchError =>
        obtain ⟨tables, hfallback, heq⟩ := FirebirdSchemaEntry.ensureTablesLoaded_fallback hbatch hloads
        refine ⟨db.relations.filter fun s => call.load.loads s.name, fun s hs => (List.mem_filter.mp hs).1,
          hdistinct.relations_upper.sublist (List.filter_sublist.map _), ?_⟩
        rw [heq, CatalogLoad.fallback_eq hserver hdistinct hfallback]
  obtain ⟨relations, hsub, hnodup, heq⟩ := htables
  rw [heq, FirebirdSchemaEntry.lookupEntry_loaded rfl, hname] at hfound
  have hlookup := Except.ok.inj hfound
  by_cases hmem : toUpper r.name ∈ relations.map fun s => toUpper s.name
  · obtain ⟨s, hs, hsame⟩ := List.mem_map.mp hmem
    obtain rfl := List.inj_on_of_nodup_map hdistinct.relations_upper (hsub s hs) hr hsame
    rw [CatalogLoad.tablesOf_lookup hnodup hs] at hlookup
    exact (Option.some.inj hlookup).symm
  · rw [CatalogLoad.tablesOf_lookup_none hmem] at hlookup
    cases hlookup

end Relation

/-! ## The two binds -/

section Binds

variable {viewSource : Bytes → ViewSource} {server : Metadata} {bound : BoundScan} {catalog : FirebirdCatalog}

/-- What a direct call binds, if it asks for no page. -/
theorem bindTable_ok_iff {direct : ScanTarget} :
    bindTable viewSource server bound .none = .ok direct ↔
      ∃ columns, loadTableSchema server bound.noneEncoding bound.numericWidenInt64 bound.tableName = .ok columns ∧
        direct = {
          columnNames :=
            (reconcileViewColumnTypes server bound.tableName bound.numericWidenInt64 columns).2.names
          columnDescs :=
            (reconcileViewColumnTypes server bound.tableName bound.numericWidenInt64 columns).2.descs
          columnTypes :=
            (reconcileViewColumnTypes server bound.tableName bound.numericWidenInt64 columns).2.types
          noneEncoding := bound.noneEncoding
          nonePushdown := bound.nonePushdown
          numericWidenInt64 := bound.numericWidenInt64
          tableName := bound.tableName
          connInfo := bound.connInfo
          pk := probePrimaryKey server bound.tableName columns.names columns.types
          isView := (reconcileViewColumnTypes server bound.tableName bound.numericWidenInt64 columns).1
          partitionsOverride := .auto } := by
  have hprobed : (PagingArguments.none.partitionsOverride.value ≠ 1 ∨
      (PagingArguments.none.limitOverride.isSome || PagingArguments.none.offsetOverride.isSome) = true) := by decide
  unfold bindTable
  simp only [Raising.bind_ok_iff, if_pos hprobed]
  constructor
  · rintro ⟨columns, hcolumns, hdirect⟩
    refine ⟨columns, hcolumns, ?_⟩
    rw [← Except.ok.inj hdirect]
    simp [PagingArguments.none]
  · rintro ⟨columns, hcolumns, rfl⟩
    refine ⟨columns, hcolumns, ?_⟩
    simp [PagingArguments.none]

/-- Every attempt that has a connection probes the key afresh. -/
theorem probe_clean (entry : FirebirdTableEntry) :
    Once.Clean entry.probe fun call =>
      call.acquire.map fun _ => probePrimaryKey call.server entry.name entry.columns.names entry.columns.types where
  error := fun {call e} h s => by
    unfold FirebirdTableEntry.probe
    cases hacquire : call.acquire with
    | error e' =>
        rw [hacquire] at h
        cases h
        rfl
    | ok u =>
        rw [hacquire] at h
        cases h
  ok := fun {call v} h s => by
    unfold FirebirdTableEntry.probe
    cases hacquire : call.acquire with
    | error e' =>
        rw [hacquire] at h
        cases h
    | ok u =>
        rw [hacquire] at h
        rw [← Except.ok.inj h]

/-- The key range of an attached table is that of the first call that had a connection. -/
theorem getScanFunction_ok {entry : FirebirdTableEntry} {before : List ScanCall} {call : ScanCall}
    {attached : ScanTarget} (h : entry.getScanFunction catalog before call = .ok attached) :
    ∃ first, (before ++ [call]).find? (fun c => c.acquire.isOk) = some first ∧
      attached = entry.scanTarget catalog
        (probePrimaryKey first.server entry.name entry.columns.names entry.columns.types) := by
  unfold FirebirdTableEntry.getScanFunction at h
  cases hpk : ((entry.cacheAfter before).call entry.probe call).1 with
  | error e =>
      rw [hpk] at h
      cases h
  | ok pk =>
      rw [hpk] at h
      obtain ⟨first, hfirst, hprobe⟩ := Once.Cell.call_after_ok (probe_clean entry) rfl hpk
      have hok (c : ScanCall) : (c.acquire.map fun _ =>
          probePrimaryKey c.server entry.name entry.columns.names entry.columns.types).isOk = c.acquire.isOk := by
        cases c.acquire <;> rfl
      simp only [hok] at hfirst
      refine ⟨first, hfirst, ?_⟩
      cases hacquire : first.acquire with
      | error e =>
          rw [hacquire] at hprobe
          cases hprobe
      | ok u =>
          rw [hacquire] at hprobe
          obtain rfl : probePrimaryKey first.server entry.name entry.columns.names entry.columns.types = pk :=
            Except.ok.inj hprobe
          exact (Except.ok.inj h).symm

/-- The two binds agree where their columns and their keys do. -/
theorem scanTarget_sameScan_iff {entry : FirebirdTableEntry} {pk : Option PrimaryKeyInfo} {columns : TableColumns}
    {direct : ScanTarget}
    (hcolumns : loadTableSchema server catalog.noneEncoding catalog.numericWidenInt64 entry.name = .ok columns)
    (hdirect : bindTable viewSource server (catalog.bound entry.name) .none = .ok direct) :
    (entry.scanTarget catalog pk).SameScan direct ↔
      entry.columns = (reconcileViewColumnTypes server entry.name catalog.numericWidenInt64 columns).2 ∧
        pk = probePrimaryKey server entry.name columns.names columns.types := by
  obtain ⟨columns', hcolumns', rfl⟩ := bindTable_ok_iff.mp hdirect
  obtain rfl := Except.ok.inj (hcolumns.symm.trans hcolumns')
  unfold ScanTarget.SameScan
  constructor
  · intro h
    have hnames := congrArg (fun t : ScanTarget => t.columnNames) h
    have htypes := congrArg ScanTarget.columnTypes h
    have hdescs := congrArg (fun t : ScanTarget => t.columnDescs) h
    have hpk := congrArg (fun t : ScanTarget => t.pk) h
    refine ⟨?_, hpk⟩
    calc entry.columns
        = ⟨entry.columns.names, entry.columns.types, entry.columns.descs⟩ := rfl
      _ = _ := by rw [show entry.columns.names = _ from hnames, show entry.columns.types = _ from htypes,
            show entry.columns.descs = _ from hdescs]; rfl
  · rintro ⟨hcols, rfl⟩
    unfold FirebirdTableEntry.scanTarget
    rw [hcols]
    rfl

/-- A name that is not in upper case is not bound. -/
theorem bindTable_not_upper {db : Database} (hdistinct : db.DistinctNames) (hserver : db.Reports server)
    {r : UserRelation} (hr : r ∈ db.relations) (hname : toUpper r.name ≠ r.name) (paging : PagingArguments) :
    ∃ e, bindTable viewSource server (catalog.bound r.name) paging = .error e := by
  cases hcolumns : loadTableSchema server catalog.noneEncoding catalog.numericWidenInt64 r.name with
  | error e =>
      refine ⟨e, ?_⟩
      unfold bindTable
      rw [show loadTableSchema server (catalog.bound r.name).noneEncoding (catalog.bound r.name).numericWidenInt64
        (catalog.bound r.name).tableName = .error e from hcolumns]
      rfl
  | ok columns => exact absurd (loadTableSchema_upper hserver hdistinct hr hcolumns) hname

section Entry

variable {load : CatalogLoad} {r : UserRelation}
  (hmodes : load.noneEncoding = catalog.noneEncoding ∧ load.numericWidenInt64 = catalog.numericWidenInt64)

include hmodes in
theorem entryOf_columns_table (hview : r.isView = false) : (load.entryOf r).columns = catalog.columnsOf r := by
  show boundColumns load.server load.noneEncoding load.numericWidenInt64 (.attach r.isView) r.name r.fields = _
  unfold boundColumns
  rw [hview, hmodes.1, hmodes.2]
  rfl

include hmodes in
theorem entryOf_columns_view (hkind : r.KindReported load.server) (hview : r.isView = true) :
    (load.entryOf r).columns =
      liveDescribe load.server r.name catalog.numericWidenInt64 (catalog.columnsOf r) := by
  show boundColumns load.server load.noneEncoding load.numericWidenInt64 (.attach r.isView) r.name r.fields = _
  unfold boundColumns
  rw [hview, hmodes.1, hmodes.2]
  show (reconcileViewColumnTypes load.server r.name catalog.numericWidenInt64 (catalog.columnsOf r)).2 = _
  exact reconcile_view hkind hview

include hmodes in
/-- What the load has made of a relation, with a key that was probed since, against a direct scan of now. -/
theorem entryOf_sameScan_iff {probed : Metadata} {direct : ScanTarget}
    (hkinds : r.KindReported load.server ∧ r.KindReported server) (hprobed : r.KindReported probed)
    (hcolumns : loadTableSchema server catalog.noneEncoding catalog.numericWidenInt64 r.name =
      .ok (catalog.columnsOf r))
    (hdirect : bindTable viewSource server (catalog.bound r.name) .none = .ok direct) :
    ((load.entryOf r).scanTarget catalog
        (probePrimaryKey probed r.name (load.entryOf r).columns.names (load.entryOf r).columns.types)).SameScan
      direct ↔
      (r.isView = true → liveDescribe load.server r.name catalog.numericWidenInt64 (catalog.columnsOf r) =
        liveDescribe server r.name catalog.numericWidenInt64 (catalog.columnsOf r)) ∧
      (r.isView = false → KindTold server r.name ∨
        liveDescribe server r.name catalog.numericWidenInt64 (catalog.columnsOf r) = catalog.columnsOf r) ∧
      probePrimaryKey probed r.name (catalog.columnsOf r).names (catalog.columnsOf r).types =
        probePrimaryKey server r.name (catalog.columnsOf r).names (catalog.columnsOf r).types := by
  have hname : (load.entryOf r).name = r.name := rfl
  rw [scanTarget_sameScan_iff hcolumns hdirect, hname]
  cases hview : r.isView with
  | true =>
      rw [entryOf_columns_view hmodes hkinds.1 hview, reconcile_view hkinds.2 hview,
        probePrimaryKey_view hprobed hview, probePrimaryKey_view hprobed hview, probePrimaryKey_view hkinds.2 hview]
      exact ⟨fun h => ⟨fun _ => h.1, nofun, rfl⟩, fun h => ⟨h.1 rfl, rfl⟩⟩
  | false =>
      rw [entryOf_columns_table hmodes hview, eq_comm, reconcile_table hkinds.2 hview]
      exact ⟨fun h => ⟨nofun, fun _ => h.1, h.2⟩, fun h => ⟨h.2.1 rfl, h.2.2⟩⟩

end Entry

end Binds

/-- **An attached table and a direct scan.** A relation is scanned directly under its name in upper case only. Where
    the direct call is bound, what `GetScanFunction` binds for the entry that is found, under whatever spelling of the
    name and behind whatever calls, is the same scan exactly if the live description of a view is still that of the
    load, the server tells a table's kind or describes it as the catalog does, and the key range of the first call for
    the entry is the one of now. -/
theorem attached_scan_agrees {db : Database} (hdistinct : db.DistinctNames) (catalog : FirebirdCatalog)
    (before : List SchemaCall) (hbefore : (FirebirdSchemaEntry.run {} before).loaded = false) (call : SchemaCall)
    (hcall : db.Reports call.load.server)
    (hmodes : call.load.noneEncoding = catalog.noneEncoding ∧ call.load.numericWidenInt64 = catalog.numericWidenInt64)
    (hloads : ((FirebirdSchemaEntry.run {} before).ensureTablesLoaded call).1 = .ok ()) {server : Metadata}
    (hserver : db.Reports server) (viewSource : Bytes → ViewSource) {r : UserRelation} (hr : r ∈ db.relations)
    (hkinds : r.KindReported call.load.server ∧ r.KindReported server) :
    (toUpper r.name ≠ r.name → ∀ paging, ∃ e, bindTable viewSource server (catalog.bound r.name) paging = .error e) ∧
    ∀ direct, bindTable viewSource server (catalog.bound r.name) .none = .ok direct →
      ∀ name later entry, toUpper name = toUpper r.name →
        (((FirebirdSchemaEntry.run {} before).ensureTablesLoaded call).2.lookupEntry later name).1 =
          .ok (some entry) →
        ∀ scans scan attached, (∀ s ∈ scans ++ [scan], r.KindReported s.server) →
          entry.getScanFunction catalog scans scan = .ok attached →
          ∃ first, (scans ++ [scan]).find? (fun s => s.acquire.isOk) = some first ∧
            (attached.SameScan direct ↔
              (r.isView = true → liveDescribe call.load.server r.name catalog.numericWidenInt64 (catalog.columnsOf r) =
                liveDescribe server r.name catalog.numericWidenInt64 (catalog.columnsOf r)) ∧
              (r.isView = false → KindTold server r.name ∨
                liveDescribe server r.name catalog.numericWidenInt64 (catalog.columnsOf r) = catalog.columnsOf r) ∧
              probePrimaryKey first.server r.name (catalog.columnsOf r).names (catalog.columnsOf r).types =
                probePrimaryKey server r.name (catalog.columnsOf r).names (catalog.columnsOf r).types) ∧
            (attached.SameScan direct →
              (∀ hw, initPartitions hw attached.partitionsOverride attached.pk =
                initPartitions hw direct.partitionsOverride direct.pk) ∧
              ∀ api columnIds filters spec, attached.partitionQuery api columnIds filters spec =
                direct.partitionQuery api columnIds filters spec) := by
  rw [FirebirdSchemaEntry.run_not_loaded hbefore] at hloads ⊢
  refine ⟨fun hname paging => bindTable_not_upper hdistinct hserver hr hname paging, ?_⟩
  intro direct hdirect name later entry hname hfound scans scan attached hscans hattached
  obtain rfl := lookupEntry_own hcall hdistinct hloads hr hname hfound
  obtain ⟨first, hfirst, rfl⟩ := getScanFunction_ok hattached
  obtain ⟨columns, hcolumns, rfl⟩ := bindTable_ok_iff.mp hdirect
  obtain rfl : columns = catalog.columnsOf r := loadTableSchema_eq hserver hdistinct hr hcolumns
  refine ⟨first, hfirst, ?_, fun hsame => hsame.queries rfl⟩
  exact entryOf_sameScan_iff hmodes hkinds (hscans first (List.mem_of_find?_eq_some hfirst)) hcolumns hdirect

/-! ### A server -/

/-- The server of a database of tables, whose keys are `1 … 9`. -/
def keyedServer (db : Database) : Metadata
  | .primaryKeyIndex _ => .ok (some (utf8 "RDB$PRIMARY1"))
  | .indexSegments _ => .ok [utf8 "ID"]
  | .keyExtremes _ _ => .ok (some ⟨.long, some 1, some 9⟩)
  | .objectType _ => .ok (some (utf8 "TABLE"))
  | q => db.server (fun _ => false) q

theorem reports_keyedServer (db : Database) : db.Reports (keyedServer db) where
  allRelationFields := (db.reports_server fun _ => false).allRelationFields
  userRelations := (db.reports_server fun _ => false).userRelations
  relationFields := (db.reports_server fun _ => false).relationFields
  uniqueConstraints := (db.reports_server fun _ => false).uniqueConstraints
  foreignKeys := (db.reports_server fun _ => false).foreignKeys

theorem kindReported_keyedServer {r : UserRelation} (htable : r.isView = false) (db : Database) :
    r.KindReported (keyedServer db) where
  type := fun t h => by
    obtain rfl := Option.some.inj (Except.ok.inj h)
    rw [htable]
    exact iff_of_false (by decide) Bool.false_ne_true
  keyless := fun hview => absurd (htable.symm.trans hview) Bool.false_ne_true

def employeeTable : UserRelation := idTable (utf8 "EMPLOYEE") employee_named

def employeeDatabase : Database := ⟨[employeeTable], []⟩

def employeeLoad : CatalogLoad where
  server := keyedServer employeeDatabase
  createEntry := fun _ _ => .ok ()

def appCatalog : FirebirdCatalog where
  connInfo := { database := utf8 "app.fdb" }
  noneEncoding := .win1252
  nonePushdown := false
  numericWidenInt64 := false
  poolConfig := {}

/-- `employee` is found, and scanned behind a call that had no connection. -/
theorem attached_scan_agrees_employee :
    ∃ direct attached,
      bindTable (fun _ => .text []) (keyedServer employeeDatabase) (appCatalog.bound (utf8 "EMPLOYEE")) .none =
        .ok direct ∧
      (employeeLoad.entryOf employeeTable).getScanFunction appCatalog
        [⟨.error (utf8 "no connection"), keyedServer employeeDatabase⟩] ⟨.ok (), keyedServer employeeDatabase⟩ =
          .ok attached ∧
      attached.SameScan direct := by
  have hreports := reports_keyedServer employeeDatabase
  have hkind := @kindReported_keyedServer employeeTable rfl employeeDatabase
  have hdistinct : employeeDatabase.DistinctNames := by
    unfold Database.DistinctNames
    decide +kernel
  have hmem : employeeTable ∈ employeeDatabase.relations := List.mem_singleton.mpr rfl
  obtain ⟨-, hagree⟩ := attached_scan_agrees hdistinct appCatalog [] rfl ⟨.ok (), employeeLoad⟩ hreports ⟨rfl, rfl⟩
    (by rfl) hreports (fun _ => .text []) hmem ⟨hkind, hkind⟩
  obtain ⟨first, hfirst, hsame, -⟩ := hagree _ rfl (utf8 "employee") ⟨.ok (), employeeLoad⟩ _ (by decide) rfl
    [⟨.error (utf8 "no connection"), keyedServer employeeDatabase⟩] ⟨.ok (), keyedServer employeeDatabase⟩ _
    (by
      intro s hs
      rcases List.mem_cons.mp hs with rfl | hs
      · exact hkind
      · obtain rfl := List.mem_singleton.mp hs
        exact hkind) rfl
  obtain rfl := Option.some.inj hfirst
  exact ⟨_, _, rfl, rfl, hsame.mpr ⟨nofun, fun _ => .inl ⟨_, rfl⟩, rfl⟩⟩

end FirebirdScan
