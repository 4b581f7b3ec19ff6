import FirebirdScan.Scanner.Schema

/-!
# `Storage.CatalogLoad` — the tables of an attached database (`EnsureTablesLoaded`)

The constraints are read first, and do without where that fails. One query lists the columns of all tables; where
it fails, or an entry cannot be made, the load starts again and asks for the relations and then for each one's
columns, passing over those that fail.

The load throws when the second attempt cannot list the relations, or lists some and loads none
(`ensureTablesLoaded_iff`).
-/

namespace FirebirdScan

/-! ## Constraints -/

structure UniqueKey where
  constraintName : Bytes
  isPrimary : Bool
  columns : List Bytes := []

structure ForeignKey where
  constraintName : Bytes
  pkTable : Bytes
  fkColumns : List Bytes := []
  pkColumns : List Bytes := []

/-- `std::unordered_map<std::string, std::vector<α>>`, by relation name. -/
abbrev ByRelation (α : Type) := List (Bytes × List α)

/-- `out[relation]`, changed. A name that is not there comes with an empty vector. -/
def ByRelation.change {α : Type} (f : List α → List α) (relation : Bytes) : ByRelation α → ByRelation α
  | [] => [(relation, f [])]
  | (r, xs) :: out => if r = relation then (r, f xs) :: out else (r, xs) :: change f relation out

/-- The variables of the grouping loops: `out`, and the relation and constraint of the row before. -/
structure Grouping (α : Type) where
  out : ByRelation α := []
  current : Option (Bytes × Bytes)

/-- One row of `LoadUniqueConstraints` or `LoadForeignKeys`. Another constraint begins an entry, and the row is
    added to the last entry of its relation, which is the one that `active` points to. -/
def groupRow {ρ α : Type} (key : ρ → Bytes × Bytes) (fresh : ρ → α) (add : ρ → α → α) (g : Grouping α) (row : ρ) :
    Grouping α :=
  let out :=
    if g.current = some (key row) then g.out
    else ByRelation.change (fun xs => xs ++ [fresh row]) (key row).1 g.out
  { out := ByRelation.change (List.modifyLast (add row)) (key row).1 out, current := some (key row) }

/-- `LoadUniqueConstraints`. Before the first row, both names are empty strings. -/
def loadUniqueConstraints (server : Metadata) : Except Bytes (ByRelation UniqueKey) := do
  let rows ← server .uniqueConstraints
  .ok (rows.foldl (groupRow (fun row => (row.relation, row.constraint))
    (fun row => { constraintName := row.constraint, isPrimary := row.constraintType = utf8 "PRIMARY KEY" })
    (fun row key => { key with columns := key.columns ++ [row.field] })) { current := some ([], []) }).out

/-- `LoadForeignKeys`. Before the first row, there is no entry. -/
def loadForeignKeys (server : Metadata) : Except Bytes (ByRelation ForeignKey) := do
  let rows ← server .foreignKeys
  .ok (rows.foldl (groupRow (fun row => (row.relation, row.constraint))
    (fun row => { constraintName := row.constraint, pkTable := row.pkTable })
    (fun row key =>
      { key with fkColumns := key.fkColumns ++ [row.fkField], pkColumns := key.pkColumns ++ [row.pkField] }))
    { current := none }).out

/-! ## Entries -/

/-- `PrimaryKeyDescriptor`. -/
structure PrimaryKeyDescriptor where
  hasPk : Bool := false
  columns : List Bytes := []
  singleNumeric : Bool := false

/-- The integer types of `single_numeric`. -/
def isKeyType (type : LogicalType) : Bool :=
  type.id = .integer || type.id = .bigint || type.id = .smallint || type.id = .hugeint || type.id = .tinyint ||
    type.id = .uinteger || type.id = .ubigint

/-- The descriptor that `add_entry` builds: of the first primary key. -/
def pkDescriptor (uniqueKeys : List UniqueKey) (columns : TableColumns) : PrimaryKeyDescriptor :=
  match uniqueKeys.find? UniqueKey.isPrimary with
  | none => {}
  | some key =>
      { hasPk := true
        columns := key.columns
        singleNumeric :=
          match key.columns with
          | [pkCol] => (columns.types[columns.names.idxOf pkCol]?).any isKeyType
          | _ => false }

/-- `FirebirdTableEntry`, with the constraints of its `CreateTableInfo`. -/
structure FirebirdTableEntry where
  name : Bytes
  columns : TableColumns
  notNull : List Nat
  uniqueKeys : List UniqueKey
  foreignKeys : List ForeignKey
  pkDescriptor : PrimaryKeyDescriptor

/-- `tables_`. -/
abbrev Tables := List (Bytes × FirebirdTableEntry)

/-- `emplace`: an entry that is there stays. -/
def Tables.emplace (tables : Tables) (key : Bytes) (entry : FirebirdTableEntry) : Tables :=
  if (tables.lookup key).isSome then tables else tables ++ [(key, entry)]

/-- The columns with `NOT NULL`. -/
def notNullColumns (columns : TableColumns) : List Nat :=
  (List.range columns.names.length).filter fun i => (columns.descs[i]?).any fun desc => !desc.nullable

/-! ## The load -/

/-- What one call of `EnsureTablesLoaded` meets: the server's answers, the options of the attachment, and what
    DuckDB throws on while the entry of a table with some columns is made. -/
structure CatalogLoad where
  server : Metadata
  createEntry : Bytes → List Bytes → Except Bytes Unit
  noneEncoding : NoneEncoding := .win1252
  numericWidenInt64 : Bool := false

namespace CatalogLoad

variable (load : CatalogLoad) (uniqueKeys : ByRelation UniqueKey) (fkeys : ByRelation ForeignKey)

/-- `add_entry`. -/
def addEntry (tables : Tables) (tableName : Bytes) (columns : TableColumns) (isView : Bool) :
    Except Bytes Tables :=
  if columns.names = [] then .ok tables
  else do
    let columns :=
      if isView then (reconcileViewColumnTypes load.server tableName load.numericWidenInt64 columns).2 else columns
    load.createEntry tableName columns.names
    let keys := (uniqueKeys.lookup tableName).getD []
    .ok (tables.emplace (toUpper tableName)
      { name := tableName
        columns := columns
        notNull := notNullColumns columns
        uniqueKeys := keys
        foreignKeys := (fkeys.lookup tableName).getD []
        pkDescriptor := pkDescriptor keys columns })

/-- The first attempt. -/
def batchLoad : Except Bytes Tables := do
  let schemas ← loadAllTableSchemas load.server load.noneEncoding load.numericWidenInt64
  schemas.foldlM (fun tables ts => load.addEntry uniqueKeys fkeys tables ts.tableName ts.columns ts.isView) []

/-- One relation of the second attempt. -/
def addRelation (tables : Tables) (relation : Bytes × Bool) : Except Bytes Tables := do
  let columns ← loadTableSchema load.server load.noneEncoding load.numericWidenInt64 relation.1
  load.addEntry uniqueKeys fkeys tables relation.1 columns relation.2

/-- A relation that fails is passed over. -/
def fallbackStep (tables : Tables) (relation : Bytes × Bool) : Tables :=
  match load.addRelation uniqueKeys fkeys tables relation with
  | .ok tables => tables
  | .error _ => tables

def discoveryFailed (batchError error : Bytes) : Bytes :=
  utf8 "Firebird catalog discovery failed — batch load error: [" ++ batchError ++
    utf8 "]; per-table fallback error: [" ++ error ++ utf8 "]"

def loadedNone (relations : Nat) (batchError : Bytes) : Bytes :=
  utf8 "Firebird catalog discovery loaded 0 of " ++ utf8 (toString relations) ++
    utf8 (" relations after the batch path failed — likely a systemic permission or connection problem rather " ++
      "than per-table quirks. Batch load error: [") ++ batchError ++ utf8 "]"

/-- The second attempt. -/
def fallbackLoad (batchError : Bytes) : Except Bytes Tables :=
  match load.server .userRelations with
  | .error error => .error (discoveryFailed batchError error)
  | .ok relations =>
      let tables := relations.foldl (load.fallbackStep uniqueKeys fkeys) []
      if relations ≠ [] ∧ tables = [] then .error (loadedNone relations.length batchError) else .ok tables

/-- `EnsureTablesLoaded`, between taking its connection and releasing it. -/
def ensureTablesLoaded : Except Bytes Tables :=
  let uniqueKeys := (loadUniqueConstraints load.server).toOption.getD []
  let fkeys := (loadForeignKeys load.server).toOption.getD []
  match load.batchLoad uniqueKeys fkeys with
  | .ok tables => .ok tables
  | .error batchError => load.fallbackLoad uniqueKeys fkeys batchError

/-! ## When it throws -/

/-- The batch query is answered, and an entry can be made of every table it lists. -/
def BatchLoads : Prop :=
  ∃ schemas, loadAllTableSchemas load.server load.noneEncoding load.numericWidenInt64 = .ok schemas ∧
    ∀ ts ∈ schemas, ts.columns.names = [] ∨ load.createEntry ts.tableName ts.columns.names = .ok ()

/-- The columns of a table can be read, and an entry be made of them. -/
def TableLoads (tableName : Bytes) : Prop :=
  ∃ columns, loadTableSchema load.server load.noneEncoding load.numericWidenInt64 tableName = .ok columns ∧
    load.createEntry tableName columns.names = .ok ()

/-- The relations can be listed, and some of them load if there are any. -/
def FallbackLoads : Prop :=
  ∃ relations, load.server .userRelations = .ok relations ∧
    (relations = [] ∨ ∃ relation ∈ relations, load.TableLoads relation.1)

/-- One of the two attempts is good for something. -/
def Loads : Prop := load.BatchLoads ∨ load.FallbackLoads

theorem reconcileViewColumnTypes_names (server : Metadata) (tableName : Bytes) (numericWidenInt64 : Bool)
    (columns : TableColumns) :
    (reconcileViewColumnTypes server tableName numericWidenInt64 columns).2.names = columns.names := by
  have hlive : (liveDescribe server tableName numericWidenInt64 columns).names = columns.names := by
    unfold liveDescribe
    split
    · rfl
    · split_ifs <;> rfl
  unfold reconcileViewColumnTypes
  split
  · split_ifs
    · rfl
    · exact hlive
  · exact hlive

theorem Tables.emplace_ne_nil (tables : Tables) (key : Bytes) (entry : FirebirdTableEntry) :
    tables.emplace key entry ≠ [] := by
  unfold Tables.emplace
  split_ifs with h
  · rintro rfl
    cases h
  · exact List.append_ne_nil_of_right_ne_nil _ (List.cons_ne_nil _ _)

/-- The entry that `add_entry` makes of a table. -/
def tableEntry (tableName : Bytes) (columns : TableColumns) (isView : Bool) : FirebirdTableEntry :=
  let columns :=
    if isView then (reconcileViewColumnTypes load.server tableName load.numericWidenInt64 columns).2 else columns
  let keys := (uniqueKeys.lookup tableName).getD []
  { name := tableName
    columns := columns
    notNull := notNullColumns columns
    uniqueKeys := keys
    foreignKeys := (fkeys.lookup tableName).getD []
    pkDescriptor := pkDescriptor keys columns }

/-- `add_entry`, of a table with columns: what DuckDB throws, or one entry for the table. -/
theorem addEntry_eq (tables : Tables) (tableName : Bytes) {columns : TableColumns} (isView : Bool)
    (hne : columns.names ≠ []) :
    load.addEntry uniqueKeys fkeys tables tableName columns isView =
      (load.createEntry tableName columns.names).map fun _ =>
        tables.emplace (toUpper tableName) (load.tableEntry uniqueKeys fkeys tableName columns isView) := by
  have hnames : (if isView = true then
      (reconcileViewColumnTypes load.server tableName load.numericWidenInt64 columns).2 else columns).names =
        columns.names := by
    split_ifs
    · exact reconcileViewColumnTypes_names _ _ _ _
    · rfl
  unfold addEntry
  rw [if_neg hne]
  simp only [hnames]
  rcases load.createEntry tableName columns.names with error | ⟨⟩
  · rfl
  · rfl

/-- The loop of the first attempt ends when every table it meets has no columns or is taken. -/
theorem foldlM_addEntry_iff (schemas : List FirebirdTableSchema) (tables : Tables) :
    (∃ tables', schemas.foldlM (fun tables ts =>
        load.addEntry uniqueKeys fkeys tables ts.tableName ts.columns ts.isView) tables = .ok tables') ↔
      ∀ ts ∈ schemas, ts.columns.names = [] ∨ load.createEntry ts.tableName ts.columns.names = .ok () := by
  induction schemas generalizing tables with
  | nil => exact iff_of_true ⟨tables, rfl⟩ nofun
  | cons ts schemas ih =>
      rw [List.forall_mem_cons, List.foldlM_cons]
      by_cases hnil : ts.columns.names = []
      · rw [addEntry, if_pos hnil]
        exact (ih tables).trans (and_iff_right (.inl hnil)).symm
      · rw [load.addEntry_eq uniqueKeys fkeys tables ts.tableName ts.isView hnil]
        rcases hcreate : load.createEntry ts.tableName ts.columns.names with error | ⟨⟩
        · exact iff_of_false nofun fun h => (h.1.elim hnil nofun)
        · exact (ih _).trans (and_iff_right (.inr rfl)).symm

theorem batchLoad_iff : (∃ tables, load.batchLoad uniqueKeys fkeys = .ok tables) ↔ load.BatchLoads := by
  unfold batchLoad BatchLoads
  rcases loadAllTableSchemas load.server load.noneEncoding load.numericWidenInt64 with error | schemas
  · exact ⟨nofun, fun ⟨_, h, _⟩ => nomatch h⟩
  · refine (load.foldlM_addEntry_iff uniqueKeys fkeys schemas []).trans ⟨fun h => ⟨schemas, rfl, h⟩, ?_⟩
    rintro ⟨schemas', h, hall⟩
    obtain rfl := Except.ok.inj h
    exact hall

/-- A relation of the second attempt is added exactly when its table loads. -/
theorem fallbackStep_eq (tables : Tables) (relation : Bytes × Bool) :
    (∃ columns, loadTableSchema load.server load.noneEncoding load.numericWidenInt64 relation.1 = .ok columns ∧
        load.createEntry relation.1 columns.names = .ok () ∧
        load.fallbackStep uniqueKeys fkeys tables relation =
          tables.emplace (toUpper relation.1)
            (load.tableEntry uniqueKeys fkeys relation.1 columns relation.2)) ∨
      (¬load.TableLoads relation.1 ∧ load.fallbackStep uniqueKeys fkeys tables relation = tables) := by
  unfold fallbackStep addRelation TableLoads
  rcases hcolumns : loadTableSchema load.server load.noneEncoding load.numericWidenInt64 relation.1 with
    error | columns
  · exact .inr ⟨fun ⟨_, h, _⟩ => (nomatch h), rfl⟩
  · obtain ⟨rows, -, -, hne⟩ := loadTableSchema_ok_iff.mp hcolumns
    show (∃ columns', _ ∧ _ ∧ (match load.addEntry uniqueKeys fkeys tables relation.1 columns relation.2 with
        | .ok tables => tables
        | .error _ => tables) = _) ∨
      (_ ∧ (match load.addEntry uniqueKeys fkeys tables relation.1 columns relation.2 with
        | .ok tables => tables
        | .error _ => tables) = tables)
    rw [load.addEntry_eq uniqueKeys fkeys tables relation.1 relation.2 hne]
    rcases hcreate : load.createEntry relation.1 columns.names with error | ⟨⟩
    · refine .inr ⟨?_, rfl⟩
      rintro ⟨columns', h, htaken⟩
      obtain rfl := Except.ok.inj h
      rw [hcreate] at htaken
      cases htaken
    · exact .inl ⟨columns, rfl, hcreate, rfl⟩

/-- After the second attempt there is a table exactly when there was one before or some table loads. -/
theorem foldl_fallbackStep_ne_nil (relations : List (Bytes × Bool)) (tables : Tables) :
    relations.foldl (load.fallbackStep uniqueKeys fkeys) tables ≠ [] ↔
      tables ≠ [] ∨ ∃ relation ∈ relations, load.TableLoads relation.1 := by
  induction relations generalizing tables with
  | nil => simp
  | cons relation relations ih =>
      rw [List.foldl_cons, ih, List.exists_mem_cons_iff]
      rcases load.fallbackStep_eq uniqueKeys fkeys tables relation with
        ⟨columns, hcolumns, hcreate, hstep⟩ | ⟨hfails, hstep⟩
      · rw [hstep]
        exact iff_of_true (.inl (Tables.emplace_ne_nil tables _ _)) (.inr (.inl ⟨columns, hcolumns, hcreate⟩))
      · rw [hstep, or_iff_right hfails]

theorem fallbackLoad_iff (batchError : Bytes) :
    (∃ tables, load.fallbackLoad uniqueKeys fkeys batchError = .ok tables) ↔ load.FallbackLoads := by
  unfold fallbackLoad FallbackLoads
  rcases load.server .userRelations with error | relations
  · exact ⟨nofun, fun ⟨_, h, _⟩ => nomatch h⟩
  · have hloaded := load.foldl_fallbackStep_ne_nil uniqueKeys fkeys relations []
    constructor
    · rintro ⟨tables, h⟩
      refine ⟨relations, rfl, ?_⟩
      by_contra hcon
      push Not at hcon
      have hnil : relations.foldl (load.fallbackStep uniqueKeys fkeys) [] = [] := by
        by_contra hne
        rcases hloaded.mp hne with h | ⟨relation, hmem, hloads⟩
        · exact h rfl
        · exact hcon.2 relation hmem hloads
      have hcond : relations ≠ [] ∧ relations.foldl (load.fallbackStep uniqueKeys fkeys) [] = [] := ⟨hcon.1, hnil⟩
      have herror := (if_pos hcond).symm.trans h
      cases herror
    · rintro ⟨relations', h, hsome⟩
      obtain rfl := Except.ok.inj h
      refine ⟨_, if_neg ?_⟩
      rintro ⟨hne, hnil⟩
      exact hloaded.mpr (.inr (hsome.resolve_left hne)) hnil

/-- **A load returns** exactly when one of its attempts loads. -/
theorem ensureTablesLoaded_iff : (∃ tables, load.ensureTablesLoaded = .ok tables) ↔ load.Loads := by
  unfold ensureTablesLoaded Loads
  generalize (loadUniqueConstraints load.server).toOption.getD [] = uniqueKeys
  generalize (loadForeignKeys load.server).toOption.getD [] = fkeys
  rw [← load.batchLoad_iff uniqueKeys fkeys]
  show (∃ tables, (match load.batchLoad uniqueKeys fkeys with
    | .ok tables => .ok tables
    | .error batchError => load.fallbackLoad uniqueKeys fkeys batchError) = Except.ok tables) ↔ _
  rcases load.batchLoad uniqueKeys fkeys with batchError | tables
  · rw [or_iff_right (nofun : ¬∃ tables, Except.error batchError = Except.ok tables)]
    exact load.fallbackLoad_iff uniqueKeys fkeys batchError
  · exact iff_of_true ⟨tables, rfl⟩ (.inl ⟨tables, rfl⟩)

end CatalogLoad

end FirebirdScan
