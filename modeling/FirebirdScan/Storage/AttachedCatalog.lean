import FirebirdScan.Storage.CatalogRows

/-!
# `Storage.AttachedCatalog` — the schema of an attached database (`FirebirdSchemaEntry`)

The tables are loaded by the first call that needs them and kept. A call that throws leaves nothing behind, and
the next one begins again, so that whatever calls came before, a load is like the first
(`FirebirdSchemaEntry.run_not_loaded`).

The tables are under their names in upper case. `attached_catalog` says what is in them, for a database whose names
stay distinct in that: after the batch every relation, after the fallback every relation that loads.
-/

namespace FirebirdScan

/-! ## The schema entry -/

/-- What one call meets: whether there is a connection to have, and then the load. -/
structure SchemaCall where
  acquire : Except Bytes Unit := .ok ()
  load : CatalogLoad

namespace CatalogLoad

variable (load : CatalogLoad)

/-- The constraints that a load has; it does without where their query fails. -/
def uniqueKeys : ByRelation UniqueKey := (loadUniqueConstraints load.server).toOption.getD []

def foreignKeys : ByRelation ForeignKey := (loadForeignKeys load.server).toOption.getD []

/-- The first attempt, which adds to the tables that are there. -/
def batchInto (tables : Tables) : Except Bytes Tables := do
  let schemas ← loadAllTableSchemas load.server load.noneEncoding load.numericWidenInt64
  schemas.foldlM (fun tables ts => load.addEntry load.uniqueKeys load.foreignKeys tables ts.tableName ts.columns
    ts.isView) tables

/-- The second attempt, which begins with no tables. -/
def fallback (batchError : Bytes) : Except Bytes Tables :=
  load.fallbackLoad load.uniqueKeys load.foreignKeys batchError

end CatalogLoad

/-- `FirebirdSchemaEntry`, as far as its calls change it. -/
structure FirebirdSchemaEntry where
  tables : Tables := []
  loaded : Bool := false

namespace FirebirdSchemaEntry

/-- `EnsureTablesLoaded`. -/
def ensureTablesLoaded (entry : FirebirdSchemaEntry) (call : SchemaCall) :
    Except Bytes Unit × FirebirdSchemaEntry :=
  if entry.loaded then (.ok (), entry)
  else
    match call.acquire with
    | .error error => (.error error, entry)
    | .ok () =>
        match call.load.batchInto entry.tables with
        | .ok tables => (.ok (), ⟨tables, true⟩)
        -- `tables_.clear()`
        | .error batchError =>
            match call.load.fallback batchError with
            | .ok tables => (.ok (), ⟨tables, true⟩)
            | .error error => (.error error, ⟨[], false⟩)

/-- `LookupEntry`, of a table. -/
def lookupEntry (entry : FirebirdSchemaEntry) (call : SchemaCall) (name : Bytes) :
    Except Bytes (Option FirebirdTableEntry) × FirebirdSchemaEntry :=
  match entry.ensureTablesLoaded call with
  | (.error error, entry) => (.error error, entry)
  | (.ok (), entry) => (.ok (entry.tables.lookup (toUpper name)), entry)

/-- The schema after some calls. -/
def run (entry : FirebirdSchemaEntry) (calls : List SchemaCall) : FirebirdSchemaEntry :=
  calls.foldl (fun entry call => (entry.ensureTablesLoaded call).2) entry

/-- Nothing is there before the tables are. -/
def Settled (entry : FirebirdSchemaEntry) : Prop := entry.loaded = true ∨ entry = {}

/-- What throws leaves nothing behind; what returns has loaded. -/
theorem ensureTablesLoaded_cases {entry : FirebirdSchemaEntry} (h : entry.Settled) (call : SchemaCall) :
    ((entry.ensureTablesLoaded call).1 = .ok () ∧ (entry.ensureTablesLoaded call).2.loaded = true) ∨
      ∃ error, entry.ensureTablesLoaded call = (.error error, {}) := by
  unfold ensureTablesLoaded
  rcases h with hloaded | rfl
  · rw [if_pos hloaded]
    exact .inl ⟨rfl, hloaded⟩
  · rw [if_neg (by decide)]
    rcases call.acquire with error | ⟨⟩
    · exact .inr ⟨error, rfl⟩
    · simp only
      rcases call.load.batchInto [] with batchError | tables
      · simp only
        rcases call.load.fallback batchError with error | tables
        · exact .inr ⟨error, rfl⟩
        · exact .inl ⟨rfl, rfl⟩
      · exact .inl ⟨rfl, rfl⟩

/-- A call whose batch ends. -/
theorem ensureTablesLoaded_batch {call : SchemaCall} {tables : Tables} (hacquire : call.acquire = .ok ())
    (hbatch : call.load.batchInto [] = .ok tables) : ensureTablesLoaded {} call = (.ok (), ⟨tables, true⟩) := by
  unfold ensureTablesLoaded
  rw [if_neg (by decide), hacquire]
  simp only [hbatch]

/-- A call that returns although its batch does not end. -/
theorem ensureTablesLoaded_fallback {call : SchemaCall} {batchError : Bytes}
    (hbatch : call.load.batchInto [] = .error batchError) (hreturns : (ensureTablesLoaded {} call).1 = .ok ()) :
    ∃ tables, call.load.fallback batchError = .ok tables ∧
      ensureTablesLoaded {} call = (.ok (), ⟨tables, true⟩) := by
  unfold ensureTablesLoaded at hreturns ⊢
  rw [if_neg (by decide)] at hreturns ⊢
  rcases hacquire : call.acquire with error | ⟨⟩
  · rw [hacquire] at hreturns
    cases hreturns
  · rw [hacquire] at hreturns
    simp only [hbatch] at hreturns ⊢
    rcases htables : call.load.fallback batchError with error | tables
    · rw [htables] at hreturns
      cases hreturns
    · exact ⟨tables, rfl, rfl⟩

theorem ensureTablesLoaded_settled {entry : FirebirdSchemaEntry} (h : entry.Settled) (call : SchemaCall) :
    (entry.ensureTablesLoaded call).2.Settled := by
  rcases ensureTablesLoaded_cases h call with ⟨-, hloaded⟩ | ⟨error, herror⟩
  · exact .inl hloaded
  · rw [herror]
    exact .inr rfl

theorem run_settled {entry : FirebirdSchemaEntry} (h : entry.Settled) (calls : List SchemaCall) :
    (entry.run calls).Settled := by
  induction calls generalizing entry with
  | nil => exact h
  | cons call calls ih => exact ih (ensureTablesLoaded_settled h call)

/-- Before the tables are loaded, the schema is as it was made. -/
theorem run_not_loaded {calls : List SchemaCall} (h : (run {} calls).loaded = false) : run {} calls = {} := by
  rcases run_settled (.inr rfl) calls with hloaded | hnew
  · rw [h] at hloaded
    cases hloaded
  · exact hnew

/-- Where the tables are loaded, a name is looked up among them. -/
theorem lookupEntry_loaded {entry : FirebirdSchemaEntry} (h : entry.loaded = true) (call : SchemaCall)
    (name : Bytes) : (entry.lookupEntry call name).1 = .ok (entry.tables.lookup (toUpper name)) := by
  unfold lookupEntry ensureTablesLoaded
  rw [if_pos h]

end FirebirdSchemaEntry

/-! ## The entries of a database -/

namespace CatalogLoad

variable (load : CatalogLoad)

/-- The entry of a relation, from what is its own. -/
def entryOf (r : UserRelation) : FirebirdTableEntry :=
  let columns := boundColumns load.server load.noneEncoding load.numericWidenInt64 (.attach r.isView) r.name r.fields
  let keys := if (load.server .uniqueConstraints).isOk then r.uniqueKeys else []
  { name := r.name
    columns := columns
    notNull := notNullColumns columns
    uniqueKeys := keys
    foreignKeys := if (load.server .foreignKeys).isOk then r.foreignKeys else []
    pkDescriptor := pkDescriptor keys columns }

/-- Whether a relation of the fallback gets its entry. -/
def loads (tableName : Bytes) : Bool :=
  match loadTableSchema load.server load.noneEncoding load.numericWidenInt64 tableName with
  | .error _ => false
  | .ok columns => (load.createEntry tableName columns.names).isOk

theorem loads_iff {tableName : Bytes} : load.loads tableName = true ↔ load.TableLoads tableName := by
  unfold loads TableLoads
  rcases loadTableSchema load.server load.noneEncoding load.numericWidenInt64 tableName with error | columns
  · exact ⟨nofun, fun ⟨_, h, _⟩ => nomatch h⟩
  · simp only
    constructor
    · intro h
      refine ⟨columns, rfl, ?_⟩
      rcases hcreate : load.createEntry tableName columns.names with error | ⟨⟩
      · rw [hcreate] at h
        cases h
      · rfl
    · rintro ⟨columns', h, hcreate⟩
      obtain rfl := Except.ok.inj h
      rw [hcreate]
      rfl

variable {load} {db : Database}

theorem uniqueKeys_get (hserver : db.Reports load.server) (hdistinct : db.DistinctNames) {r : UserRelation}
    (hr : r ∈ db.relations) :
    load.uniqueKeys.get r.name = if (load.server .uniqueConstraints).isOk then r.uniqueKeys else [] := by
  unfold uniqueKeys
  rw [← loadUniqueConstraints_isOk]
  rcases hkeys : loadUniqueConstraints load.server with error | keys
  · rfl
  · exact loadUniqueConstraints_get hserver hdistinct hkeys hr

theorem foreignKeys_get (hserver : db.Reports load.server) (hdistinct : db.DistinctNames) {r : UserRelation}
    (hr : r ∈ db.relations) :
    load.foreignKeys.get r.name = if (load.server .foreignKeys).isOk then r.foreignKeys else [] := by
  unfold foreignKeys
  rw [← loadForeignKeys_isOk]
  rcases hkeys : loadForeignKeys load.server with error | keys
  · rfl
  · exact loadForeignKeys_get hserver hdistinct hkeys hr

/-- The entry that is made of a relation's columns is its own. -/
theorem tableEntry_eq_entryOf (hserver : db.Reports load.server) (hdistinct : db.DistinctNames) {r : UserRelation}
    (hr : r ∈ db.relations) :
    load.tableEntry load.uniqueKeys load.foreignKeys r.name
      (readColumns load.noneEncoding load.numericWidenInt64 r.fields) r.isView = load.entryOf r := by
  have hunique : (load.uniqueKeys.lookup r.name).getD [] = _ := uniqueKeys_get hserver hdistinct hr
  have hforeign : (load.foreignKeys.lookup r.name).getD [] = _ := foreignKeys_get hserver hdistinct hr
  unfold tableEntry entryOf
  rw [hunique, hforeign]
  rfl

/-! ## What the attempts load -/

/-- The tables of some relations, under their names in upper case. -/
def tablesOf (load : CatalogLoad) (relations : List UserRelation) : Tables :=
  relations.map fun r => (toUpper r.name, load.entryOf r)

theorem tablesOf_lookup {relations : List UserRelation} (hdistinct : (relations.map fun r => toUpper r.name).Nodup)
    {r : UserRelation} (hr : r ∈ relations) :
    (load.tablesOf relations).lookup (toUpper r.name) = some (load.entryOf r) := by
  induction relations with
  | nil => cases hr
  | cons s relations ih =>
      obtain ⟨hfirst, hdistinct⟩ := List.nodup_cons.mp hdistinct
      unfold tablesOf at ih ⊢
      rw [List.map_cons, List.lookup_cons]
      rcases List.mem_cons.mp hr with rfl | hr
      · rw [beq_self_eq_true]
      · have hne : toUpper r.name ≠ toUpper s.name := fun h => hfirst (List.mem_map.mpr ⟨r, hr, h⟩)
        rw [beq_eq_false_iff_ne.mpr hne]
        exact ih hdistinct hr

theorem tablesOf_lookup_none {relations : List UserRelation} {key : Bytes}
    (h : key ∉ relations.map fun r => toUpper r.name) : (load.tablesOf relations).lookup key = none := by
  rw [List.lookup_eq_none_iff]
  intro entry hentry
  obtain ⟨r, hr, rfl⟩ := List.mem_map.mp hentry
  have hne : key ≠ toUpper r.name := fun hkey => h (hkey ▸ List.mem_map_of_mem hr)
  exact bne_iff_ne.mpr hne

/-- A new name puts its entry at the end. -/
theorem emplace_tablesOf {relations : List UserRelation} {r : UserRelation}
    (h : toUpper r.name ∉ relations.map fun r => toUpper r.name) :
    (load.tablesOf relations).emplace (toUpper r.name) (load.entryOf r) = load.tablesOf (relations ++ [r]) := by
  unfold Tables.emplace
  rw [tablesOf_lookup_none h, if_neg (by decide)]
  unfold tablesOf
  rw [List.map_append]
  rfl

/-- The next relation of either attempt has a new name. -/
theorem next_upper (hdistinct : db.DistinctNames) {done rest : List UserRelation} {r : UserRelation}
    (h : done ++ r :: rest = db.relations) : toUpper r.name ∉ done.map fun r => toUpper r.name := by
  have hupper := hdistinct.relations_upper
  rw [← h, List.map_append, List.nodup_append] at hupper
  intro hmem
  exact hupper.2.2 _ hmem _ List.mem_cons_self rfl

/-- A round of the batch. -/
theorem addEntry_tablesOf (hserver : db.Reports load.server) (hdistinct : db.DistinctNames)
    {done rest : List UserRelation} {r : UserRelation} (hdone : done ++ r :: rest = db.relations) {tables : Tables}
    (h : load.addEntry load.uniqueKeys load.foreignKeys (load.tablesOf done) r.name
      (readColumns load.noneEncoding load.numericWidenInt64 r.fields) r.isView = .ok tables) :
    tables = load.tablesOf (done ++ [r]) := by
  have hr : r ∈ db.relations := hdone ▸ List.mem_append_right done List.mem_cons_self
  have hnames : (readColumns load.noneEncoding load.numericWidenInt64 r.fields).names ≠ [] := by
    rw [readColumns_eq]
    intro hnil
    exact r.has_fields (List.map_eq_nil_iff.mp hnil)
  rw [load.addEntry_eq _ _ _ _ _ hnames, tableEntry_eq_entryOf hserver hdistinct hr,
    emplace_tablesOf (next_upper hdistinct hdone)] at h
  rcases hcreate : load.createEntry r.name
    (readColumns load.noneEncoding load.numericWidenInt64 r.fields).names with error | ⟨⟩
  · rw [hcreate] at h
    cases h
  · rw [hcreate] at h
    exact (Except.ok.inj h).symm

/-- The batch, from some relation on. -/
theorem foldlM_addEntry_eq (hserver : db.Reports load.server) (hdistinct : db.DistinctNames)
    {rest done : List UserRelation} (hdone : done ++ rest = db.relations) {tables : Tables}
    (h : (rest.map (schemaOf load.noneEncoding load.numericWidenInt64)).foldlM (fun tables ts =>
      load.addEntry load.uniqueKeys load.foreignKeys tables ts.tableName ts.columns ts.isView)
      (load.tablesOf done) = .ok tables) : tables = load.tablesOf db.relations := by
  induction rest generalizing done with
  | nil =>
      obtain rfl := Except.ok.inj h
      rw [← hdone, List.append_nil]
  | cons r rest ih =>
      rw [List.map_cons, List.foldlM_cons] at h
      rcases hadd : load.addEntry load.uniqueKeys load.foreignKeys (load.tablesOf done) r.name
        (readColumns load.noneEncoding load.numericWidenInt64 r.fields) r.isView with error | next
      · simp only [schemaOf, hadd] at h
        cases h
      · obtain rfl := addEntry_tablesOf hserver hdistinct hdone hadd
        simp only [schemaOf, hadd] at h
        apply ih _ h
        rw [← hdone, List.append_assoc]
        rfl

/-- **The batch loads every relation**: an attempt that ends has the entries of all, in order. -/
theorem batch_eq (hserver : db.Reports load.server) (hdistinct : db.DistinctNames) {tables : Tables}
    (h : load.batchInto [] = .ok tables) : tables = load.tablesOf db.relations := by
  unfold batchInto at h
  rcases hschemas : loadAllTableSchemas load.server load.noneEncoding load.numericWidenInt64 with error | schemas
  · rw [hschemas] at h
    cases h
  · rw [hschemas] at h
    obtain rfl := loadAllTableSchemas_eq hserver hdistinct hschemas
    exact foldlM_addEntry_eq hserver hdistinct (List.nil_append db.relations) h

/-- A round of the fallback. -/
theorem fallbackStep_tablesOf (hserver : db.Reports load.server) (hdistinct : db.DistinctNames)
    {done rest : List UserRelation} {r : UserRelation} (hdone : done ++ r :: rest = db.relations) :
    load.fallbackStep load.uniqueKeys load.foreignKeys
      (load.tablesOf (done.filter fun r => load.loads r.name)) (r.name, r.isView) =
      load.tablesOf ((done ++ [r]).filter fun r => load.loads r.name) := by
  have hr : r ∈ db.relations := hdone ▸ List.mem_append_right done List.mem_cons_self
  have hnew : toUpper r.name ∉ (done.filter fun r => load.loads r.name).map fun r => toUpper r.name := by
    intro hmem
    obtain ⟨s, hs, hname⟩ := List.mem_map.mp hmem
    exact next_upper hdistinct hdone (List.mem_map.mpr ⟨s, List.mem_of_mem_filter hs, hname⟩)
  rw [List.filter_append]
  rcases load.fallbackStep_eq load.uniqueKeys load.foreignKeys
    (load.tablesOf (done.filter fun r => load.loads r.name)) (r.name, r.isView) with
      ⟨columns, hcolumns, hcreate, hstep⟩ | ⟨hfails, hstep⟩
  · obtain rfl := loadTableSchema_eq hserver hdistinct hr hcolumns
    have hloads : load.loads r.name = true := load.loads_iff.mpr ⟨_, hcolumns, hcreate⟩
    rw [hstep, tableEntry_eq_entryOf hserver hdistinct hr, emplace_tablesOf hnew,
      List.filter_cons, if_pos hloads, List.filter_nil]
  · have hloads : ¬load.loads r.name = true := fun h => hfails (load.loads_iff.mp h)
    rw [hstep, List.filter_cons, if_neg hloads, List.filter_nil, List.append_nil]

/-- The fallback, from some relation on. -/
theorem foldl_fallbackStep_from (hserver : db.Reports load.server) (hdistinct : db.DistinctNames)
    {rest done : List UserRelation} (hdone : done ++ rest = db.relations) :
    (rest.map fun r => (r.name, r.isView)).foldl (load.fallbackStep load.uniqueKeys load.foreignKeys)
      (load.tablesOf (done.filter fun r => load.loads r.name)) =
      load.tablesOf (db.relations.filter fun r => load.loads r.name) := by
  induction rest generalizing done with
  | nil =>
      rw [← hdone, List.append_nil]
      rfl
  | cons r rest ih =>
      rw [List.map_cons, List.foldl_cons, fallbackStep_tablesOf hserver hdistinct hdone]
      apply ih
      rw [← hdone, List.append_assoc]
      rfl

/-- **The fallback loads the relations that can be loaded**, in order. -/
theorem foldl_fallbackStep_eq (hserver : db.Reports load.server) (hdistinct : db.DistinctNames) :
    (db.relations.map fun r => (r.name, r.isView)).foldl
      (load.fallbackStep load.uniqueKeys load.foreignKeys) [] =
      load.tablesOf (db.relations.filter fun r => load.loads r.name) :=
  foldl_fallbackStep_from hserver hdistinct (List.nil_append db.relations)

theorem fallback_eq (hserver : db.Reports load.server) (hdistinct : db.DistinctNames) {batchError : Bytes}
    {tables : Tables} (h : load.fallback batchError = .ok tables) :
    tables = load.tablesOf (db.relations.filter fun r => load.loads r.name) := by
  unfold fallback fallbackLoad at h
  rcases hrelations : load.server .userRelations with error | relations
  · rw [hrelations] at h
    cases h
  · rw [hrelations] at h
    obtain rfl := hserver.userRelations relations hrelations
    simp only [foldl_fallbackStep_eq hserver hdistinct] at h
    split_ifs at h
    exact (Except.ok.inj h).symm

/-- Where all relations load, the two attempts agree. -/
theorem fallback_of_loads (hserver : db.Reports load.server) (hdistinct : db.DistinctNames)
    (hlisted : (load.server .userRelations).isOk = true) (hloads : ∀ r ∈ db.relations, load.loads r.name = true)
    (batchError : Bytes) : load.fallback batchError = .ok (load.tablesOf db.relations) := by
  have hall : (db.relations.filter fun r => load.loads r.name) = db.relations := List.filter_eq_self.mpr hloads
  unfold fallback fallbackLoad
  rcases hrelations : load.server .userRelations with error | relations
  · rw [hrelations] at hlisted
    cases hlisted
  · obtain rfl := hserver.userRelations relations hrelations
    simp only [foldl_fallbackStep_eq hserver hdistinct, hall]
    refine if_neg ?_
    rintro ⟨hne, hnil⟩
    exact hne (by rw [List.map_eq_nil_iff.mp hnil]; rfl)

end CatalogLoad

/-! ## The catalog -/

/-- The schema has one table for each of some relations, and finds each, under its exact name, with the entry that
    is made of its own. -/
structure FirebirdSchemaEntry.Holds (entry : FirebirdSchemaEntry) (load : CatalogLoad)
    (relations : List UserRelation) : Prop where
  count : entry.tables.length = relations.length
  own : ∀ r ∈ relations, ∀ later, (entry.lookupEntry later r.name).1 = .ok (some (load.entryOf r))

theorem holds_tablesOf {load : CatalogLoad} {relations : List UserRelation}
    (hdistinct : (relations.map fun r => toUpper r.name).Nodup) :
    FirebirdSchemaEntry.Holds ⟨load.tablesOf relations, true⟩ load relations where
  count := List.length_map _
  own := fun r hr later => by
    rw [FirebirdSchemaEntry.lookupEntry_loaded rfl, CatalogLoad.tablesOf_lookup hdistinct hr]

/-- What a call owes, to a schema that has no tables yet. -/
structure LoadsCatalog (db : Database) (call : SchemaCall) (entry : FirebirdSchemaEntry) : Prop where
  /-- after the batch: every relation -/
  batch : call.acquire = .ok () → ∀ tables, call.load.batchInto [] = .ok tables →
    (entry.ensureTablesLoaded call).1 = .ok () ∧
      (entry.ensureTablesLoaded call).2.Holds call.load db.relations
  /-- after the fallback: every relation that loads, and no other -/
  fallback : ∀ batchError, call.load.batchInto [] = .error batchError → (entry.ensureTablesLoaded call).1 = .ok () →
    (entry.ensureTablesLoaded call).2.Holds call.load (db.relations.filter fun r => call.load.loads r.name) ∧
      ∀ r ∈ db.relations, call.load.loads r.name = false →
        ∀ later, ((entry.ensureTablesLoaded call).2.lookupEntry later r.name).1 = .ok none
  /-- the two attempts build one catalog, where all relations are listed and load -/
  agree : ∀ tables, call.load.batchInto [] = .ok tables → (call.load.server .userRelations).isOk = true →
    (∀ r ∈ db.relations, call.load.loads r.name = true) →
    ∀ batchError, call.load.fallback batchError = .ok tables
  /-- a call that throws leaves the schema as it was made -/
  throws : ∀ error, (entry.ensureTablesLoaded call).1 = .error error → (entry.ensureTablesLoaded call).2 = {}
  /-- whatever calls came before, this one is like the first -/
  first : entry.ensureTablesLoaded call = FirebirdSchemaEntry.ensureTablesLoaded {} call

/-- **The catalog of an attached database**, whose relations' names stay distinct in upper case. -/
theorem attached_catalog {db : Database} (hdistinct : db.DistinctNames) (before : List SchemaCall)
    (hbefore : (FirebirdSchemaEntry.run {} before).loaded = false) (call : SchemaCall)
    (hserver : db.Reports call.load.server) : LoadsCatalog db call (FirebirdSchemaEntry.run {} before) := by
  rw [FirebirdSchemaEntry.run_not_loaded hbefore]
  constructor
  case batch =>
    intro hacquire tables hbatch
    rw [FirebirdSchemaEntry.ensureTablesLoaded_batch hacquire hbatch, CatalogLoad.batch_eq hserver hdistinct hbatch]
    exact ⟨rfl, holds_tablesOf hdistinct.relations_upper⟩
  case fallback =>
    intro batchError hbatch hreturns
    obtain ⟨tables, htables, hcall⟩ := FirebirdSchemaEntry.ensureTablesLoaded_fallback hbatch hreturns
    rw [hcall, CatalogLoad.fallback_eq hserver hdistinct htables]
    have hupper : ((db.relations.filter fun r => call.load.loads r.name).map fun r => toUpper r.name).Nodup :=
      hdistinct.relations_upper.sublist (List.filter_sublist.map _)
    refine ⟨holds_tablesOf hupper, ?_⟩
    intro r hr hfails later
    rw [FirebirdSchemaEntry.lookupEntry_loaded rfl, CatalogLoad.tablesOf_lookup_none]
    -- a name that the map has is the name of a relation that loads
    intro hmem
    obtain ⟨s, hs, hname⟩ := List.mem_map.mp hmem
    obtain ⟨hs, hloads⟩ := List.mem_filter.mp hs
    obtain rfl := List.inj_on_of_nodup_map hdistinct.relations_upper hs hr hname
    rw [hfails] at hloads
    cases hloads
  case agree =>
    intro tables hbatch hlisted hloads batchError
    rw [CatalogLoad.batch_eq hserver hdistinct hbatch]
    exact CatalogLoad.fallback_of_loads hserver hdistinct hlisted hloads batchError
  case throws =>
    intro error herror
    rcases FirebirdSchemaEntry.ensureTablesLoaded_cases (.inr rfl) call with ⟨hreturns, -⟩ | ⟨_, hcall⟩
    · rw [hreturns] at herror
      cases herror
    · rw [hcall]
  case first => rfl

/-! ### A server -/

/-- The server of a database, which fails on some queries. -/
def Database.server (db : Database) (fails : MetadataQuery → Bool) (q : MetadataQuery) : Except Bytes q.Answer :=
  if fails q then .error (utf8 "connection lost")
  else
    match q with
    | .allRelationFields => .ok (db.relations.flatMap fun r => r.fields.map fun field => ⟨r.name, field, r.isView⟩)
    | .userRelations => .ok (db.relations.map fun r => (r.name, r.isView))
    | .relationFields name => .ok (db.fieldsOf name)
    | .uniqueConstraints => .ok (db.relations.flatMap fun r => r.uniqueKeys.flatMap (uniqueKeyRows r))
    | .foreignKeys => .ok (db.relations.flatMap fun r => r.foreignKeys.flatMap (foreignKeyRows r))
    | _ => .error (utf8 "not asked")

theorem Database.reports_server (db : Database) (fails : MetadataQuery → Bool) : db.Reports (db.server fails) := by
  constructor
  case relationFields =>
    intro name rows h
    unfold Database.server at h
    split_ifs at h
    exact (Except.ok.inj h).symm
  all_goals
    intro rows h
    unfold Database.server at h
    split_ifs at h
    exact (Except.ok.inj h).symm

/-- A table of one `INTEGER` column. -/
def idTable (name : Bytes) (hname : name ≠ []) : UserRelation where
  name := name
  fields := [{ name := utf8 "ID", fieldType := 8 }]
  uniqueKeys := []
  foreignKeys := []
  named := hname
  has_fields := List.cons_ne_nil _ _
  uniqueKeys_distinct := List.nodup_nil
  uniqueKeys_columns := List.forall_mem_nil _
  foreignKeys_distinct := List.nodup_nil
  foreignKeys_columns := List.forall_mem_nil _

theorem employee_named : utf8 "EMPLOYEE" ≠ [] := by decide

theorem staff_named : utf8 "STAFF" ≠ [] := by decide

theorem quoted_employee_named : utf8 "employee" ≠ [] := by decide

/-- The table `EMPLOYEE`, and a second one. -/
def twoTables (second : Bytes) (hsecond : second ≠ []) : Database :=
  ⟨[idTable (utf8 "EMPLOYEE") employee_named, idTable second hsecond], []⟩

/-- A call to a server of a database. DuckDB takes every entry. -/
def callOf (db : Database) (fails : MetadataQuery → Bool) : SchemaCall where
  load := { server := db.server fails, createEntry := fun _ _ => .ok () }

theorem callOf_reports (db : Database) (fails : MetadataQuery → Bool) : db.Reports (callOf db fails).load.server :=
  db.reports_server fails

/-- After a call that could reach nothing. -/
theorem attached_catalog_staff :
    LoadsCatalog (twoTables (utf8 "STAFF") staff_named) (callOf (twoTables (utf8 "STAFF") staff_named) fun _ => false)
      (FirebirdSchemaEntry.run {} [callOf (twoTables (utf8 "STAFF") staff_named) fun _ => true]) :=
  attached_catalog (by unfold Database.DistinctNames; decide +kernel) _ (by decide +kernel) _
    (callOf_reports _ _)

/-- A call returns although not every relation is to be found under its name. -/
structure Incomplete (db : Database) (call : SchemaCall) : Prop where
  distinct : (db.relations.map UserRelation.name).Nodup
  reports : db.Reports call.load.server
  returns : (FirebirdSchemaEntry.ensureTablesLoaded {} call).1 = .ok ()
  missing : ¬(FirebirdSchemaEntry.ensureTablesLoaded {} call).2.Holds call.load db.relations

/-- **Not every catalog has every relation**: one of two names that differ in case is left out, and by the fallback
    a table whose query fails. -/
theorem catalog_incomplete :
    Incomplete (twoTables (utf8 "employee") quoted_employee_named)
      (callOf (twoTables (utf8 "employee") quoted_employee_named) fun _ => false) ∧
    Incomplete (twoTables (utf8 "STAFF") staff_named)
      (callOf (twoTables (utf8 "STAFF") staff_named) fun q =>
        q = .allRelationFields ∨ q = .relationFields (utf8 "STAFF")) := by
  refine ⟨⟨by decide +kernel, callOf_reports _ _, by rfl, fun h => ?_⟩,
    ⟨by decide +kernel, callOf_reports _ _, by rfl, fun h => ?_⟩⟩
  · exact absurd h.count (by decide +kernel)
  · exact absurd h.count (by decide +kernel)

end FirebirdScan
