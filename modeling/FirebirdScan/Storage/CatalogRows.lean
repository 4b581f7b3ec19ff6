import FirebirdScan.Storage.CatalogLoad
import Mathlib.Data.List.ModifyLast

/-!
# `Storage.CatalogRows` — the rows of a database, and the loops that group them

The metadata queries report a relation as one row for each of its columns, and a constraint as one row for each of
the columns it is over. The rows come in order of relation and constraint, and three loops of the load make lists
of columns and of constraints from them again: `LoadAllTableSchemas`, `LoadUniqueConstraints`, `LoadForeignKeys`.

Each of them gives every relation what is its own (`loadAllTableSchemas_eq`, `loadUniqueConstraints_get`,
`loadForeignKeys_get`), for a server that may fail but otherwise `Reports` the database.
-/

namespace FirebirdScan

/-! ## Constraints by relation -/

/-- What the entry of a relation finds in the map. -/
def ByRelation.get {α : Type} (out : ByRelation α) (relation : Bytes) : List α := (out.lookup relation).getD []

theorem ByRelation.get_cons {α : Type} (r other : Bytes) (xs : List α) (out : ByRelation α) :
    ByRelation.get ((r, xs) :: out) other = if other = r then xs else out.get other := by
  unfold get
  rw [List.lookup_cons]
  by_cases h : other = r
  · rw [if_pos h, beq_iff_eq.mpr h]
    rfl
  · rw [if_neg h, beq_eq_false_iff_ne.mpr h]

theorem ByRelation.get_change {α : Type} (f : List α → List α) (relation other : Bytes) (out : ByRelation α) :
    (out.change f relation).get other = if other = relation then f (out.get relation) else out.get other := by
  induction out with
  | nil => exact get_cons relation other (f []) []
  | cons entry out ih =>
      obtain ⟨r, xs⟩ := entry
      unfold change
      by_cases hr : r = relation
      · subst hr
        rw [if_pos rfl, get_cons, get_cons, get_cons, if_pos rfl]
        by_cases h : other = r
        · rw [if_pos h, if_pos h]
        · rw [if_neg h, if_neg h, if_neg h]
      · rw [if_neg hr, get_cons, get_cons, get_cons, ih, if_neg (Ne.symm hr)]
        by_cases h : other = r
        · rw [if_pos h, if_neg (h ▸ hr), if_pos h]
        · rw [if_neg h, if_neg h]

section Grouping

variable {ρ α : Type} {key : ρ → Bytes × Bytes} {fresh : ρ → α} {add : ρ → α → α}

/-- More rows of the constraint that the loop is at: its entry, the last of the relation, takes them in. -/
theorem foldl_groupRow_rest {relation constraint : Bytes} {rows : List ρ}
    (hkey : ∀ row ∈ rows, key row = (relation, constraint)) {g : Grouping α} {xs : List α} {x : α}
    (hcurrent : g.current = some (relation, constraint)) (hlast : g.out.get relation = xs ++ [x]) :
    (rows.foldl (groupRow key fresh add) g).current = some (relation, constraint) ∧
      ∀ r, (rows.foldl (groupRow key fresh add) g).out.get r =
        if r = relation then xs ++ [rows.foldl (fun x row => add row x) x] else g.out.get r := by
  induction rows generalizing g x with
  | nil =>
      refine ⟨hcurrent, ?_⟩
      intro r
      by_cases hr : r = relation
      · rw [if_pos hr, hr]
        exact hlast
      · rw [if_neg hr]
        rfl
  | cons row rows ih =>
      have hrow : key row = (relation, constraint) := hkey row List.mem_cons_self
      have hout : (groupRow key fresh add g row).out = g.out.change (List.modifyLast (add row)) relation := by
        unfold groupRow
        rw [hrow, if_pos hcurrent]
      have hnext : (groupRow key fresh add g row).out.get relation = xs ++ [add row x] := by
        rw [hout, ByRelation.get_change, if_pos rfl, hlast, List.modifyLast_concat]
      obtain ⟨hc, hget⟩ := ih (g := groupRow key fresh add g row)
        (fun row' h => hkey row' (List.mem_cons_of_mem _ h)) (congrArg some hrow) hnext
      refine ⟨hc, ?_⟩
      intro r
      rw [List.foldl_cons, hget r]
      by_cases hr : r = relation
      · rw [if_pos hr, if_pos hr, List.foldl_cons]
      · rw [if_neg hr, if_neg hr, hout, ByRelation.get_change, if_neg hr]

/-- The rows of a constraint, and what its entry is to be. -/
structure ConstraintRows (key : ρ → Bytes × Bytes) (fresh : ρ → α) (add : ρ → α → α) (relation constraint : Bytes)
    (rows : List ρ) (x : α) : Prop where
  ne_nil : rows ≠ []
  key_eq : ∀ row ∈ rows, key row = (relation, constraint)
  entry_eq : ∀ row ∈ rows, rows.foldl (fun x row => add row x) (fresh row) = x

/-- The rows of one constraint put one entry behind those of its relation. -/
theorem foldl_groupRow_constraint {relation constraint : Bytes} {rows : List ρ} {x : α}
    (hrows : ConstraintRows key fresh add relation constraint rows x) {g : Grouping α}
    (hcurrent : g.current ≠ some (relation, constraint)) :
    (rows.foldl (groupRow key fresh add) g).current = some (relation, constraint) ∧
      ∀ r, (rows.foldl (groupRow key fresh add) g).out.get r =
        if r = relation then g.out.get relation ++ [x] else g.out.get r := by
  obtain ⟨hne, hkey, hentry⟩ := hrows
  cases rows with
  | nil => exact absurd rfl hne
  | cons row rows =>
      have hrow : key row = (relation, constraint) := hkey row List.mem_cons_self
      have hget (r : Bytes) : (groupRow key fresh add g row).out.get r =
          if r = relation then g.out.get relation ++ [add row (fresh row)] else g.out.get r := by
        unfold groupRow
        rw [hrow, if_neg hcurrent]
        simp only [ByRelation.get_change, if_true]
        by_cases hr : r = relation
        · rw [if_pos hr, if_pos hr, List.modifyLast_concat]
        · rw [if_neg hr, if_neg hr, if_neg hr]
      obtain ⟨hc, hrest⟩ := foldl_groupRow_rest (fun row' h => hkey row' (List.mem_cons_of_mem _ h))
        (g := groupRow key fresh add g row) (congrArg some hrow) ((hget relation).trans (if_pos rfl))
      refine ⟨hc, fun r => (hrest r).trans ?_⟩
      by_cases hr : r = relation
      · rw [if_pos hr, if_pos hr, ← hentry row List.mem_cons_self, List.foldl_cons]
      · rw [if_neg hr, if_neg hr, hget r, if_neg hr]

/-- The rows of all constraints of one relation. -/
theorem foldl_groupRow_relation {relation : Bytes} {constraintName : α → Bytes} {listed : α → List ρ} {keys : List α}
    (hrows : ∀ x ∈ keys, ConstraintRows key fresh add relation (constraintName x) (listed x) x)
    (hdistinct : (keys.map constraintName).Nodup) {g : Grouping α}
    (hcurrent : ∀ x ∈ keys, g.current ≠ some (relation, constraintName x)) :
    (∀ other constraint, other ≠ relation →
        ((keys.flatMap listed).foldl (groupRow key fresh add) g).current = some (other, constraint) →
        g.current = some (other, constraint)) ∧
      ∀ r, ((keys.flatMap listed).foldl (groupRow key fresh add) g).out.get r =
        if r = relation then g.out.get relation ++ keys else g.out.get r := by
  induction keys generalizing g with
  | nil =>
      refine ⟨fun other constraint _ h => h, ?_⟩
      intro r
      by_cases hr : r = relation
      · rw [if_pos hr, hr, List.append_nil]
        rfl
      · rw [if_neg hr]
        rfl
  | cons x keys ih =>
      obtain ⟨hx, hkeys⟩ := List.forall_mem_cons.mp hrows
      obtain ⟨hfirst, hdistinct⟩ := List.nodup_cons.mp hdistinct
      obtain ⟨hc, hget⟩ := foldl_groupRow_constraint hx (hcurrent x List.mem_cons_self)
      -- the names of one relation are distinct, so the next constraint opens a group
      have hcurrent' : ∀ y ∈ keys, ((listed x).foldl (groupRow key fresh add) g).current ≠
          some (relation, constraintName y) := by
        intro y hy h
        rw [hc] at h
        have hname := (Prod.mk.inj (Option.some.inj h)).2
        exact hfirst (hname ▸ List.mem_map_of_mem hy)
      obtain ⟨hc', hget'⟩ := ih hkeys hdistinct hcurrent'
      rw [List.flatMap_cons, List.foldl_append]
      refine ⟨fun other constraint hother h => ?_, fun r => ?_⟩
      · have h := hc' other constraint hother h
        rw [hc] at h
        exact absurd (Prod.mk.inj (Option.some.inj h)).1.symm hother
      · rw [hget' r, hget relation, if_pos rfl, hget r]
        by_cases hr : r = relation
        · rw [if_pos hr, if_pos hr, List.append_assoc, List.singleton_append]
        · rw [if_neg hr, if_neg hr, if_neg hr]

/-- The rows of all relations: each finds its own constraints in the map. -/
theorem foldl_groupRow_get {σ : Type} {name : σ → Bytes} {keys : σ → List α} {constraintName : α → Bytes}
    {listed : σ → α → List ρ} (relations : List σ)
    (hrows : ∀ s ∈ relations, ∀ x ∈ keys s, ConstraintRows key fresh add (name s) (constraintName x) (listed s x) x)
    (hkeys : ∀ s ∈ relations, ((keys s).map constraintName).Nodup) (hdistinct : (relations.map name).Nodup)
    {g : Grouping α} (hcurrent : ∀ s ∈ relations, ∀ constraint, g.current ≠ some (name s, constraint)) :
    (∀ s ∈ relations, ((relations.flatMap fun s => (keys s).flatMap (listed s)).foldl
        (groupRow key fresh add) g).out.get (name s) = g.out.get (name s) ++ keys s) ∧
      ∀ r, r ∉ relations.map name → ((relations.flatMap fun s => (keys s).flatMap (listed s)).foldl
        (groupRow key fresh add) g).out.get r = g.out.get r := by
  induction relations generalizing g with
  | nil => exact ⟨nofun, fun r _ => rfl⟩
  | cons s relations ih =>
      obtain ⟨hs, hrows⟩ := List.forall_mem_cons.mp hrows
      obtain ⟨hskeys, hkeys⟩ := List.forall_mem_cons.mp hkeys
      obtain ⟨hfirst, hdistinct⟩ := List.nodup_cons.mp hdistinct
      have hne {s' : σ} (hs' : s' ∈ relations) : name s' ≠ name s := fun h => hfirst (h ▸ List.mem_map_of_mem hs')
      obtain ⟨hc, hget⟩ := foldl_groupRow_relation hs hskeys fun x _ =>
        hcurrent s List.mem_cons_self (constraintName x)
      obtain ⟨hown, hother⟩ := ih hrows hkeys hdistinct fun s' hs' constraint h =>
        hcurrent s' (List.mem_cons_of_mem _ hs') constraint (hc _ _ (hne hs') h)
      rw [List.flatMap_cons, List.foldl_append]
      refine ⟨?_, fun r hr => ?_⟩
      · rintro s' hs'
        rcases List.mem_cons.mp hs' with rfl | hs'
        · rw [hother (name s') hfirst, hget, if_pos rfl]
        · rw [hown s' hs', hget, if_neg (hne hs')]
      · rw [List.map_cons, List.mem_cons, not_or] at hr
        rw [hother r hr.2, hget, if_neg hr.1]

end Grouping

/-! ## The database -/

/-- A relation and its constraints. `name` is as the metadata queries report it. -/
structure UserRelation where
  name : Bytes
  isView : Bool := false
  fields : List FieldRow
  uniqueKeys : List UniqueKey := []
  foreignKeys : List ForeignKey := []
  named : name ≠ []
  has_fields : fields ≠ []
  uniqueKeys_distinct : (uniqueKeys.map UniqueKey.constraintName).Nodup
  uniqueKeys_columns : ∀ key ∈ uniqueKeys, key.columns ≠ []
  foreignKeys_distinct : (foreignKeys.map ForeignKey.constraintName).Nodup
  foreignKeys_columns : ∀ key ∈ foreignKeys, key.fkColumns ≠ [] ∧ key.fkColumns.length = key.pkColumns.length

/-- The relations that the queries list, and those they leave out, which are the system's. -/
structure Database where
  relations : List UserRelation
  others : List (Bytes × List FieldRow) := []

/-- The rows of a constraint. -/
def uniqueKeyRows (r : UserRelation) (key : UniqueKey) : List UniqueConstraintRow :=
  key.columns.map fun column =>
    ⟨r.name, key.constraintName, if key.isPrimary then utf8 "PRIMARY KEY" else utf8 "UNIQUE", column⟩

def foreignKeyRows (r : UserRelation) (key : ForeignKey) : List ForeignKeyRow :=
  (key.fkColumns.zip key.pkColumns).map fun columns =>
    ⟨r.name, key.constraintName, key.pkTable, columns.1, columns.2⟩

namespace Database

variable (db : Database)

/-- The columns of the relation with exactly this name. -/
def fieldsOf (name : Bytes) : List FieldRow :=
  match db.relations.find? fun r => r.name = name with
  | some r => r.fields
  | none => (db.others.lookup name).getD []

/-- A server of the database, which may fail: what it answers is what there is. -/
structure Reports (server : Metadata) : Prop where
  allRelationFields : ∀ rows, server .allRelationFields = .ok rows →
    rows = db.relations.flatMap fun r => r.fields.map fun field => ⟨r.name, field, r.isView⟩
  userRelations : ∀ rows, server .userRelations = .ok rows → rows = db.relations.map fun r => (r.name, r.isView)
  relationFields : ∀ name rows, server (.relationFields name) = .ok rows → rows = db.fieldsOf name
  uniqueConstraints : ∀ rows, server .uniqueConstraints = .ok rows →
    rows = db.relations.flatMap fun r => r.uniqueKeys.flatMap (uniqueKeyRows r)
  foreignKeys : ∀ rows, server .foreignKeys = .ok rows →
    rows = db.relations.flatMap fun r => r.foreignKeys.flatMap (foreignKeyRows r)

/-- No two relations have one name, whatever the case of its letters. -/
def DistinctNames : Prop :=
  ((db.relations.map UserRelation.name ++ db.others.map Prod.fst).map toUpper).Nodup

end Database

variable {db : Database} {server : Metadata}

theorem Database.DistinctNames.relations_upper (h : db.DistinctNames) :
    (db.relations.map fun r => toUpper r.name).Nodup := by
  rw [DistinctNames, List.map_append, List.map_map] at h
  exact h.of_append_left

theorem Database.DistinctNames.relations (h : db.DistinctNames) : (db.relations.map UserRelation.name).Nodup := by
  have hupper := h.relations_upper
  rw [← Function.comp_def toUpper, ← List.map_map] at hupper
  exact hupper.of_map toUpper

/-- No relation's name in upper case is the name of one that is not listed. -/
theorem Database.DistinctNames.lookup_others (h : db.DistinctNames) {r : UserRelation} (hr : r ∈ db.relations)
    (rows : List FieldRow) : db.others.lookup (toUpper r.name) ≠ some rows := by
  intro hlookup
  obtain ⟨before, after, hothers, -⟩ := List.lookup_eq_some_iff.mp hlookup
  rw [DistinctNames, List.map_append, List.nodup_append] at h
  have hleft : toUpper r.name ∈ (db.relations.map UserRelation.name).map toUpper :=
    List.mem_map_of_mem (List.mem_map_of_mem hr)
  have hright : toUpper (toUpper r.name) ∈ (db.others.map Prod.fst).map toUpper := by
    rw [hothers]
    exact List.mem_map_of_mem (List.mem_map_of_mem (List.mem_append_right _ List.mem_cons_self))
  exact h.2.2 _ hleft _ hright (toUpper_idem r.name).symm

/-! ## What the loops make of the rows -/

theorem uniqueKeyRows_lists (r : UserRelation) {key : UniqueKey} (hkey : key ∈ r.uniqueKeys) :
    ConstraintRows (fun row : UniqueConstraintRow => (row.relation, row.constraint))
      (fun row => { constraintName := row.constraint, isPrimary := row.constraintType = utf8 "PRIMARY KEY" })
      (fun row key => { key with columns := key.columns ++ [row.field] })
      r.name key.constraintName (uniqueKeyRows r key) key where
  ne_nil := fun h => r.uniqueKeys_columns key hkey (List.map_eq_nil_iff.mp h)
  key_eq := fun row hrow => by
    obtain ⟨column, -, rfl⟩ := List.mem_map.mp hrow
    rfl
  entry_eq := fun row hrow => by
    have hloop (columns : List Bytes) (x : UniqueKey) :
        (columns.map fun column => (⟨r.name, key.constraintName,
            if key.isPrimary then utf8 "PRIMARY KEY" else utf8 "UNIQUE", column⟩ : UniqueConstraintRow)).foldl
          (fun key row => { key with columns := key.columns ++ [row.field] }) x =
          { x with columns := x.columns ++ columns } := by
      induction columns generalizing x with
      | nil => rw [List.append_nil, List.map_nil, List.foldl_nil]
      | cons column columns ih =>
          rw [List.map_cons, List.foldl_cons, ih]
          simp only [List.append_assoc, List.singleton_append]
    have hprimary : (if key.isPrimary then utf8 "PRIMARY KEY" else utf8 "UNIQUE") = utf8 "PRIMARY KEY" ↔
        key.isPrimary = true := by
      cases key.isPrimary <;> decide
    obtain ⟨column, -, rfl⟩ := List.mem_map.mp hrow
    refine (hloop key.columns _).trans ?_
    simp only [hprimary, Bool.decide_eq_true, List.nil_append]

theorem foreignKeyRows_lists (r : UserRelation) {key : ForeignKey} (hkey : key ∈ r.foreignKeys) :
    ConstraintRows (fun row : ForeignKeyRow => (row.relation, row.constraint))
      (fun row => { constraintName := row.constraint, pkTable := row.pkTable })
      (fun row key =>
        { key with fkColumns := key.fkColumns ++ [row.fkField], pkColumns := key.pkColumns ++ [row.pkField] })
      r.name key.constraintName (foreignKeyRows r key) key where
  ne_nil := fun h => by
    obtain ⟨hne, hlen⟩ := r.foreignKeys_columns key hkey
    have hzip := congrArg List.length (List.map_eq_nil_iff.mp h)
    rw [List.length_zip, ← hlen, min_self] at hzip
    exact hne (List.length_eq_zero_iff.mp hzip)
  key_eq := fun row hrow => by
    obtain ⟨columns, -, rfl⟩ := List.mem_map.mp hrow
    rfl
  entry_eq := fun row hrow => by
    have hloop (columns : List (Bytes × Bytes)) (x : ForeignKey) :
        (columns.map fun columns => (⟨r.name, key.constraintName, key.pkTable, columns.1, columns.2⟩ :
            ForeignKeyRow)).foldl (fun key row =>
          { key with fkColumns := key.fkColumns ++ [row.fkField], pkColumns := key.pkColumns ++ [row.pkField] }) x =
          { x with
            fkColumns := x.fkColumns ++ columns.map Prod.fst
            pkColumns := x.pkColumns ++ columns.map Prod.snd } := by
      induction columns generalizing x with
      | nil => simp only [List.map_nil, List.foldl_nil, List.append_nil]
      | cons column columns ih =>
          rw [List.map_cons, List.foldl_cons, ih]
          simp only [List.append_assoc, List.singleton_append, List.map_cons]
    obtain ⟨-, hlen⟩ := r.foreignKeys_columns key hkey
    obtain ⟨column, -, rfl⟩ := List.mem_map.mp hrow
    refine (hloop (key.fkColumns.zip key.pkColumns) _).trans ?_
    simp only [List.map_fst_zip hlen.le, List.map_snd_zip hlen.ge, List.nil_append]

theorem loadUniqueConstraints_isOk (server : Metadata) :
    (loadUniqueConstraints server).isOk = (server .uniqueConstraints).isOk := by
  unfold loadUniqueConstraints
  cases server .uniqueConstraints <;> rfl

theorem loadForeignKeys_isOk (server : Metadata) : (loadForeignKeys server).isOk = (server .foreignKeys).isOk := by
  unfold loadForeignKeys
  cases server .foreignKeys <;> rfl

/-- `LoadUniqueConstraints` gives each relation its own keys. -/
theorem loadUniqueConstraints_get (hserver : db.Reports server) (hdistinct : db.DistinctNames)
    {uniqueKeys : ByRelation UniqueKey} (h : loadUniqueConstraints server = .ok uniqueKeys) {r : UserRelation}
    (hr : r ∈ db.relations) : uniqueKeys.get r.name = r.uniqueKeys := by
  unfold loadUniqueConstraints at h
  rcases hrows : server .uniqueConstraints with error | rows
  · rw [hrows] at h
    cases h
  · rw [hrows] at h
    obtain rfl := hserver.uniqueConstraints rows hrows
    obtain rfl := Except.ok.inj h
    have hget := (foldl_groupRow_get db.relations (fun s _ x hx => uniqueKeyRows_lists s hx)
      (fun s _ => s.uniqueKeys_distinct) hdistinct.relations
      (g := { current := some ([], []) }) fun s _ constraint h =>
        s.named (Prod.mk.inj (Option.some.inj h)).1.symm).1 r hr
    exact hget.trans (List.nil_append _)

/-- `LoadForeignKeys` gives each relation its own keys. -/
theorem loadForeignKeys_get (hserver : db.Reports server) (hdistinct : db.DistinctNames)
    {fkeys : ByRelation ForeignKey} (h : loadForeignKeys server = .ok fkeys) {r : UserRelation}
    (hr : r ∈ db.relations) : fkeys.get r.name = r.foreignKeys := by
  unfold loadForeignKeys at h
  rcases hrows : server .foreignKeys with error | rows
  · rw [hrows] at h
    cases h
  · rw [hrows] at h
    obtain rfl := hserver.foreignKeys rows hrows
    obtain rfl := Except.ok.inj h
    have hget := (foldl_groupRow_get db.relations (fun s _ x hx => foreignKeyRows_lists s hx)
      (fun s _ => s.foreignKeys_distinct) hdistinct.relations
      (g := { current := none }) fun s _ constraint h => nomatch h).1 r hr
    exact hget.trans (List.nil_append _)

/-- The columns of a relation, as they are listed. -/
def fieldRows (r : UserRelation) : List RelationFieldRow := r.fields.map fun field => ⟨r.name, field, r.isView⟩

/-- The schema of a relation. -/
def schemaOf (noneEncoding : NoneEncoding) (widen : Bool) (r : UserRelation) : FirebirdTableSchema :=
  ⟨r.name, r.isView, readColumns noneEncoding widen r.fields⟩

section Schemas

variable {noneEncoding : NoneEncoding} {widen : Bool}

/-- More columns of the schema that the loop is at. -/
theorem foldl_addSchemaRow_rest (r : UserRelation) (fields : List FieldRow) (result : List FirebirdTableSchema)
    (columns : TableColumns) :
    (fields.map fun field => (⟨r.name, field, r.isView⟩ : RelationFieldRow)).foldl
        (addSchemaRow noneEncoding widen) (result ++ [⟨r.name, r.isView, columns⟩]) =
      result ++ [⟨r.name, r.isView, fields.foldl
        (fun columns row => columns.push (mapFirebirdColumn row noneEncoding widen)) columns⟩] := by
  induction fields generalizing columns with
  | nil => rfl
  | cons field fields ih =>
      have hstep : addSchemaRow noneEncoding widen (result ++ [⟨r.name, r.isView, columns⟩])
          ⟨r.name, field, r.isView⟩ =
          result ++ [⟨r.name, r.isView, columns.push (mapFirebirdColumn field noneEncoding widen)⟩] := by
        unfold addSchemaRow
        rw [List.getLast?_concat]
        simp only [ne_eq, not_true, if_false, List.dropLast_concat]
      rw [List.map_cons, List.foldl_cons, hstep, ih, List.foldl_cons]

/-- The rows of one relation make one schema. -/
theorem foldl_addSchemaRow_relation (r : UserRelation) {result : List FirebirdTableSchema}
    (hlast : ∀ schema ∈ result.getLast?, schema.tableName ≠ r.name) :
    (fieldRows r).foldl (addSchemaRow noneEncoding widen) result = result ++ [schemaOf noneEncoding widen r] := by
  unfold fieldRows schemaOf readColumns
  rcases hfields : r.fields with _ | ⟨field, fields⟩
  · exact absurd hfields r.has_fields
  · have hfirst : addSchemaRow noneEncoding widen result ⟨r.name, field, r.isView⟩ =
        result ++ [⟨r.name, r.isView, TableColumns.push {} (mapFirebirdColumn field noneEncoding widen)⟩] := by
      unfold addSchemaRow
      rcases hresult : result.getLast? with _ | schema
      · rfl
      · exact if_pos (hlast schema hresult)
    rw [List.map_cons, List.foldl_cons, hfirst, foldl_addSchemaRow_rest, List.foldl_cons]

/-- The rows of all relations make a schema of each. -/
theorem foldl_addSchemaRow_eq {relations : List UserRelation} (hdistinct : (relations.map UserRelation.name).Nodup)
    {result : List FirebirdTableSchema}
    (hlast : ∀ r ∈ relations, ∀ schema ∈ result.getLast?, schema.tableName ≠ r.name) :
    (relations.flatMap fieldRows).foldl (addSchemaRow noneEncoding widen) result =
      result ++ relations.map (schemaOf noneEncoding widen) := by
  induction relations generalizing result with
  | nil => exact (List.append_nil result).symm
  | cons r relations ih =>
      obtain ⟨hfirst, hdistinct⟩ := List.nodup_cons.mp hdistinct
      have hlast' : ∀ r' ∈ relations, ∀ schema ∈ (result ++ [schemaOf noneEncoding widen r]).getLast?,
          schema.tableName ≠ r'.name := by
        intro r' hr' schema hschema hname
        rw [List.getLast?_concat] at hschema
        obtain rfl := Option.some.inj hschema
        exact hfirst (List.mem_map.mpr ⟨r', hr', hname.symm⟩)
      rw [List.flatMap_cons, List.foldl_append, foldl_addSchemaRow_relation r (hlast r List.mem_cons_self),
        ih hdistinct hlast', List.append_assoc, List.singleton_append, List.map_cons]

/-- `LoadAllTableSchemas` gives each relation its own columns. -/
theorem loadAllTableSchemas_eq (hserver : db.Reports server) (hdistinct : db.DistinctNames)
    {schemas : List FirebirdTableSchema} (h : loadAllTableSchemas server noneEncoding widen = .ok schemas) :
    schemas = db.relations.map (schemaOf noneEncoding widen) := by
  unfold loadAllTableSchemas at h
  rcases hrows : server .allRelationFields with error | rows
  · rw [hrows] at h
    cases h
  · rw [hrows] at h
    obtain rfl := hserver.allRelationFields rows hrows
    obtain rfl := Except.ok.inj h
    exact (foldl_addSchemaRow_eq hdistinct.relations (fun r _ schema hschema => by cases hschema)).trans
      (List.nil_append _)

/-- What `LoadTableSchema` reads for a relation, if it reads anything, are the relation's own columns. -/
theorem loadTableSchema_eq (hserver : db.Reports server) (hdistinct : db.DistinctNames) {r : UserRelation}
    (hr : r ∈ db.relations) {columns : TableColumns}
    (h : loadTableSchema server noneEncoding widen r.name = .ok columns) :
    columns = readColumns noneEncoding widen r.fields := by
  obtain ⟨rows, hrows, rfl, hne⟩ := loadTableSchema_ok_iff.mp h
  obtain rfl := hserver.relationFields _ rows hrows
  unfold Database.fieldsOf at hne ⊢
  rcases hfind : db.relations.find? (fun r' => decide (r'.name = toUpper r.name)) with _ | r'
  · rw [hfind] at hne
    have hother : (db.others.lookup (toUpper r.name)).getD [] ≠ [] := fun hnil => hne (by rw [hnil]; rfl)
    obtain ⟨rows, hrows⟩ : ∃ rows, db.others.lookup (toUpper r.name) = some rows :=
      Option.ne_none_iff_exists'.mp fun hnone => hother (by rw [hnone]; rfl)
    exact absurd hrows (hdistinct.lookup_others hr rows)
  · have hfound := List.find?_some hfind
    have hname : r'.name = toUpper r.name := of_decide_eq_true hfound
    have hsame : toUpper r'.name = toUpper r.name := by rw [hname, toUpper_idem]
    rw [hfind, List.inj_on_of_nodup_map hdistinct.relations_upper (List.mem_of_find?_eq_some hfind) hr hsame]

end Schemas

end FirebirdScan
