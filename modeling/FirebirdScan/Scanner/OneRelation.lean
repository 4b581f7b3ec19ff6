import FirebirdScan.Query.Statement
import FirebirdScan.Scanner.Schema

/-!
# `Scanner.OneRelation` — the relation behind a table name

A scan gives its table name to five statements. Those that look a name up in the metadata compare it with a
string in upper case; the scan itself and `MIN`/`MAX` quote the name as it was given. On the other end is a
`Catalog`, whose relations may have any names.

`one_relation_iff` says when all five mean the same relation.
-/

namespace FirebirdScan

open SqlText

/-! ## The server -/

/-- A relation, as far as the queries see it. -/
structure Relation where
  name : Bytes
  fields : List FieldRow
  isView : Bool := false
  primaryKeyIndex : Option Bytes := none
  /-- `MIN` and `MAX` of a column -/
  extremes : Bytes → Except Bytes KeyExtremes
  /-- what preparing a `SELECT` of some columns describes -/
  live : List Bytes → Except Bytes (List FirebirdColumnDesc)

/-- The relations of a database. -/
structure Catalog where
  relations : List Relation
  distinct : (relations.map Relation.name).Nodup
  indexSegments : Bytes → List Bytes := fun _ => []
  uniqueConstraints : List UniqueConstraintRow := []
  foreignKeys : List ForeignKeyRow := []

namespace Catalog

variable (cat : Catalog)

/-- The relation with exactly this name. -/
def named (name : Bytes) : Option Relation := cat.relations.find? fun r => r.name = name

/-- The relation that a metadata query looks up: it compares `RDB$RELATION_NAME` with a string. -/
def lookedUp (sql : Bytes) : Option Relation :=
  (comparedWith (keyword "RDB$RELATION_NAME") (readLexemes sql)).bind cat.named

/-- The relation that a statement reads: the quoted name behind `FROM`. -/
def scanned (sql : Bytes) : Option Relation := (Select.table? (readLexemes sql)).bind cat.named

def tableUnknown : Bytes := utf8 "Table unknown"

/-- The server: it knows a relation by what the text says. -/
def metadata : Metadata
  | .relationFields r => .ok ((cat.lookedUp (MetadataQuery.relationFields r).sql).elim [] Relation.fields)
  | .allRelationFields =>
      .ok (cat.relations.flatMap fun r => r.fields.map fun field => ⟨r.name, field, r.isView⟩)
  | .userRelations => .ok (cat.relations.map fun r => (r.name, r.isView))
  | .uniqueConstraints => .ok cat.uniqueConstraints
  | .foreignKeys => .ok cat.foreignKeys
  | .primaryKeyIndex r =>
      .ok ((cat.lookedUp (MetadataQuery.primaryKeyIndex r).sql).bind Relation.primaryKeyIndex)
  | .indexSegments index => .ok (cat.indexSegments index)
  | .keyExtremes column table =>
      match cat.scanned (MetadataQuery.keyExtremes column table).sql with
      | none => .error tableUnknown
      | some r => (r.extremes column).map some
  | .objectType r =>
      .ok ((cat.lookedUp (MetadataQuery.objectType r).sql).map fun r =>
        if r.isView then utf8 "VIEW" else utf8 "TABLE")
  | .describe columns table =>
      match cat.scanned (MetadataQuery.describe columns table).sql with
      | none => .error tableUnknown
      | some r => r.live columns

/-- Two names of one relation are the same name. -/
theorem named_name {name : Bytes} {r : Relation} (h : cat.named name = some r) : r.name = name := by
  have hname := List.find?_some h
  exact of_decide_eq_true hname

end Catalog

/-- The relations that the five statements for `table` mean are all `r`. -/
structure OneRelation (cat : Catalog) (table sql : Bytes) (r : Relation) : Prop where
  /-- the columns were loaded from it -/
  loaded : cat.lookedUp (columnsQuery table).sql = some r
  /-- its rows are scanned -/
  scanned : cat.scanned sql = some r
  /-- its primary key was looked up -/
  keyLookedUp : cat.lookedUp (keyQuery table).sql = some r
  /-- `MIN` and `MAX` are taken from it -/
  extremes : ∀ pkName, cat.scanned (extremesQuery table pkName).sql = some r
  /-- it was classified as a table or a view -/
  classified : cat.lookedUp (typeQuery table).sql = some r

/-! ## What the texts say -/

/-- A text in front of a name that the relations are searched for. -/
def LooksUp (text : Bytes) : Prop :=
  (scan .idle text).2 = .idle ∧ seek (keyword "RDB$RELATION_NAME") (scan .idle text).1 = .equals

instance (text : Bytes) : Decidable (LooksUp text) := inferInstanceAs (Decidable (_ ∧ _))

theorem lookedUp_literal (cat : Catalog) {text : Bytes} (htext : LooksUp text) (name : Bytes) {rest : Bytes}
    (hrest : Apart rest) :
    cat.lookedUp (text ++ sqlLiteral name ++ rest) = cat.named name := by
  obtain ⟨hidle, hseek⟩ := htext
  have hwhole : Whole text (scan .idle text).1 := Prod.ext rfl hidle
  obtain ⟨us, hus⟩ := readLexemes_append (hwhole.lex_append (lex_sqlLiteral name)) hrest
  have hcompared : comparedWith (keyword "RDB$RELATION_NAME") (readLexemes (text ++ sqlLiteral name ++ rest)) =
      some name := by
    rw [hus, List.append_assoc]
    exact comparedWith_string hseek name us
  rw [Catalog.lookedUp, hcompared]
  rfl

theorem lookedUp_columnsQuery (cat : Catalog) (table : Bytes) :
    cat.lookedUp (columnsQuery table).sql = cat.named (toUpper table) := by
  have hlooks : LooksUp MetadataQuery.relationFieldsSql := by
    simp only [MetadataQuery.relationFieldsSql, utf8_append]
    decide +kernel
  rw [columnsQuery, MetadataQuery.sql, List.append_assoc _ (utf8 " ")]
  exact lookedUp_literal cat hlooks _ (by decide)

theorem lookedUp_keyQuery (cat : Catalog) (table : Bytes) :
    cat.lookedUp (keyQuery table).sql = cat.named (toUpper table) := by
  have hlooks : LooksUp MetadataQuery.primaryKeyIndexSql := by
    simp only [MetadataQuery.primaryKeyIndexSql, utf8_append]
    decide +kernel
  rw [keyQuery, MetadataQuery.sql, List.append_assoc _ (utf8 " ")]
  exact lookedUp_literal cat hlooks _ (by decide)

theorem lookedUp_typeQuery (cat : Catalog) (table : Bytes) :
    cat.lookedUp (typeQuery table).sql = cat.named (toUpper table) := by
  have hlooks : LooksUp MetadataQuery.objectTypeSql := by
    simp only [MetadataQuery.objectTypeSql, utf8_append]
    decide +kernel
  rw [typeQuery, MetadataQuery.sql, ← List.append_nil (_ ++ sqlLiteral _)]
  exact lookedUp_literal cat hlooks _ nofun

/-- A text that reads `SELECT list FROM "table"`, with anything behind it. -/
theorem scanned_select (cat : Catalog) {text : Bytes} {item : List Lexeme} {items : List (List Lexeme)}
    (hitems : ∀ i ∈ item :: items, Select.IsItem i) {table : Bytes}
    (htext : lex text = some (keyword "SELECT" ::
      (Select.itemsLexemes item items ++ [keyword "FROM", .ident table]))) {rest : Bytes} (hrest : Apart rest) :
    cat.scanned (text ++ rest) = cat.named table := by
  obtain ⟨us, hus⟩ := readLexemes_append htext hrest
  have htable : Select.table? (readLexemes (text ++ rest)) = some table := by
    rw [hus, List.cons_append, List.append_assoc]
    exact Select.table?_lexemes hitems table us
  rw [Catalog.scanned, htable]
  rfl

/-- `MIN("c")`, or another function of one column. -/
theorem isItem_call {f : Lexeme} (hcomma : f ≠ comma) (hfrom : f ≠ keyword "FROM") (hdepth : nextDepth 0 f = some 0)
    (column : Bytes) : Select.IsItem [f, lparen, .ident column, rparen] :=
  (Select.isItem_single hcomma hfrom hdepth).append (Select.isItem_paren [.ident column] rfl)

theorem scanned_extremesQuery (cat : Catalog) (table pkName : Bytes) :
    cat.scanned (extremesQuery table pkName).sql = cat.named table := by
  have hselect : Whole (utf8 "SELECT MIN(") [keyword "SELECT", keyword "MIN", lparen] := by decide
  have hmin : Whole (utf8 "), ") [rparen, comma] := by decide
  have hmax : Whole (utf8 "       MAX(") [keyword "MAX", lparen] := by decide
  have hclose : Whole (utf8 ") ") [rparen] := by decide
  have hfrom : Whole (utf8 "  FROM ") [keyword "FROM"] := by decide
  have hend := hclose.lex_append (hfrom.lex_append (lex_quoteIdent table))
  have hsecond := hmin.lex_append (hmax.lex_append (lex_append (lex_quoteIdent pkName) hend
    (show Apart (utf8 ") ") from by decide)))
  have hall := hselect.lex_append (lex_append (lex_quoteIdent pkName) hsecond
    (show Apart (utf8 "), ") from by decide))
  have hitems : ∀ i ∈ [[keyword "MIN", lparen, .ident pkName, rparen], [keyword "MAX", lparen, .ident pkName, rparen]],
      Select.IsItem i := by
    intro i hi
    rcases List.mem_cons.mp hi with rfl | hi
    · exact isItem_call (by decide) (by decide) (by decide) pkName
    · obtain rfl := List.mem_singleton.mp hi
      exact isItem_call (by decide) (by decide) (by decide) pkName
  have hscanned := scanned_select cat hitems hall (show Apart [] from nofun)
  rw [extremesQuery, MetadataQuery.sql]
  simp only [List.append_assoc, List.append_nil] at hscanned ⊢
  exact hscanned

theorem scanned_build (cat : Catalog) (api : DuckdbApi) (a : BuildArgs) (filters : List (Nat × TableFilter)) :
    cat.scanned (build api a filters).sql = cat.named a.tableName := by
  obtain ⟨item, items, -, hitems, hselect⟩ := BuildArgs.selectClause_fragment (a := a)
  obtain ⟨rest, hsql, hrest⟩ := build_sql_apart api a filters
  have htext := hselect.lexes
  rw [lexemes_inl] at htext
  rw [hsql]
  exact scanned_select cat hitems htext hrest

/-! ## One relation -/

theorem readColumns_names (noneEncoding : NoneEncoding) (numericWidenInt64 : Bool) (rows : List FieldRow) :
    (readColumns noneEncoding numericWidenInt64 rows).names = rows.map FieldRow.name := by
  rw [readColumns_eq]

/-- What `LoadTableSchema` reads are the fields of the relation under the name in upper case. -/
theorem metadata_columnsQuery (cat : Catalog) (table : Bytes) :
    cat.metadata (columnsQuery table) = .ok ((cat.named (toUpper table)).elim [] Relation.fields) := by
  show Except.ok ((cat.lookedUp (columnsQuery table).sql).elim [] Relation.fields) = _
  rw [lookedUp_columnsQuery]

/-- Without such a relation it throws. -/
theorem loadTableSchema_named {cat : Catalog} {noneEncoding : NoneEncoding} {numericWidenInt64 : Bool}
    {table : Bytes} {columns : TableColumns}
    (h : loadTableSchema cat.metadata noneEncoding numericWidenInt64 table = .ok columns) :
    ∃ r, cat.named (toUpper table) = some r := by
  rcases hnamed : cat.named (toUpper table) with _ | r
  · rw [loadTableSchema, metadata_columnsQuery, hnamed] at h
    cases h
  · exact ⟨r, rfl⟩

theorem loadTableSchema_ok {cat : Catalog} {table : Bytes} {r : Relation}
    (h : cat.named (toUpper table) = some r) (hfields : r.fields ≠ []) (noneEncoding : NoneEncoding)
    (numericWidenInt64 : Bool) :
    loadTableSchema cat.metadata noneEncoding numericWidenInt64 table =
      .ok (readColumns noneEncoding numericWidenInt64 r.fields) := by
  have hnames : (readColumns noneEncoding numericWidenInt64 r.fields).names ≠ [] := by
    rw [readColumns_names]
    exact fun hnil => hfields (List.map_eq_nil_iff.mp hnil)
  rw [loadTableSchema, metadata_columnsQuery, h]
  exact if_neg hnames

/-- **One name, one relation**: the five statements mean the same relation exactly when the name is in upper
    case already. -/
theorem one_relation_iff {cat : Catalog} {noneEncoding : NoneEncoding} {numericWidenInt64 : Bool} {table : Bytes}
    {columns : TableColumns} (h : loadTableSchema cat.metadata noneEncoding numericWidenInt64 table = .ok columns)
    (api : DuckdbApi) {a : BuildArgs} (ha : a.tableName = table) (filters : List (Nat × TableFilter)) :
    (∃ r, OneRelation cat table (build api a filters).sql r) ↔ toUpper table = table := by
  obtain ⟨r, hr⟩ := loadTableSchema_named h
  constructor
  · rintro ⟨r', hone⟩
    have hupper := hone.loaded
    have hgiven := hone.scanned
    rw [lookedUp_columnsQuery] at hupper
    rw [scanned_build, ha] at hgiven
    rw [← Catalog.named_name cat hupper, Catalog.named_name cat hgiven]
  · intro hupper
    refine ⟨r, ?_⟩
    constructor
    · rw [lookedUp_columnsQuery]
      exact hr
    · rw [scanned_build, ha, ← hupper]
      exact hr
    · rw [lookedUp_keyQuery]
      exact hr
    · intro pkName
      rw [scanned_extremesQuery, ← hupper]
      exact hr
    · rw [lookedUp_typeQuery]
      exact hr

/-! ## Two relations whose names differ in case -/

/-- A table with one `INTEGER` column, whose keys are `1 … 9`. -/
def oneColumnTable (name column : Bytes) : Relation where
  name := name
  fields := [{ name := column, fieldType := 8 }]
  extremes := fun _ => .ok ⟨.long, some 1, some 9⟩
  live := fun _ => .ok [{ name := column, sqltype := .long }]

def staffCatalog : Catalog where
  relations := [oneColumnTable (utf8 "EMPLOYEE") (utf8 "ID"), oneColumnTable (utf8 "employee") (utf8 "CODE")]
  distinct := by decide

/-- A scan of all columns. -/
def scanOf (table column : Bytes) : BuildArgs where
  tableName := table
  allColumnNames := [column]
  columnIds := [0]

theorem staffCatalog_columns : loadTableSchema staffCatalog.metadata .win1252 false (utf8 "EMPLOYEE") =
    .ok (readColumns .win1252 false [{ name := utf8 "ID", fieldType := 8 }]) :=
  loadTableSchema_ok (r := oneColumnTable (utf8 "EMPLOYEE") (utf8 "ID")) rfl (List.cons_ne_nil _ _) _ _

theorem one_relation_iff_employee :
    (∃ r, OneRelation staffCatalog (utf8 "EMPLOYEE")
        (build .v1_5 (scanOf (utf8 "EMPLOYEE") (utf8 "ID")) []).sql r) ↔
      toUpper (utf8 "EMPLOYEE") = utf8 "EMPLOYEE" :=
  one_relation_iff staffCatalog_columns .v1_5 rfl []

/-- **The columns of one relation, the rows of another**: `employee` is loaded as `EMPLOYEE` and scanned as
    `employee`. -/
theorem one_relation_fails :
    loadTableSchema staffCatalog.metadata .win1252 false (utf8 "employee") =
      .ok (readColumns .win1252 false [{ name := utf8 "ID", fieldType := 8 }]) ∧
    staffCatalog.scanned (build .v1_5 (scanOf (utf8 "employee") (utf8 "ID")) []).sql =
      some (oneColumnTable (utf8 "employee") (utf8 "CODE")) ∧
    ¬∃ r, OneRelation staffCatalog (utf8 "employee")
      (build .v1_5 (scanOf (utf8 "employee") (utf8 "ID")) []).sql r := by
  have hupper : staffCatalog.named (toUpper (utf8 "employee")) =
      some (oneColumnTable (utf8 "EMPLOYEE") (utf8 "ID")) := rfl
  have hgiven : staffCatalog.scanned (build .v1_5 (scanOf (utf8 "employee") (utf8 "ID")) []).sql =
      some (oneColumnTable (utf8 "employee") (utf8 "CODE")) := scanned_build _ _ _ _
  refine ⟨loadTableSchema_ok hupper (List.cons_ne_nil _ _) _ _, hgiven, ?_⟩
  rintro ⟨r, hone⟩
  have hloaded := hone.loaded
  rw [lookedUp_columnsQuery, hupper] at hloaded
  have hscanned := hone.scanned
  rw [hgiven] at hscanned
  have hname : utf8 "EMPLOYEE" = utf8 "employee" :=
    congrArg Relation.name (Option.some.inj (hloaded.trans hscanned.symm))
  exact absurd hname (by decide)

end FirebirdScan
