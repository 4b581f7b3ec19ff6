import FirebirdScan.Client.Accessors
import FirebirdScan.Metadata.Generators
import FirebirdScan.Metadata.QualifiedName
import FirebirdScan.Metadata.TypeAudit
import FirebirdScan.Scanner.NoneBlob
import FirebirdScan.Scanner.TelemetryUtf8

/-!
# `Metadata.Functions` — the functions of a descriptor (`MetadataFn`)

`firebird_indexes`, `firebird_foreign_keys`, `firebird_domains`, `firebird_computed_columns`, `firebird_dependencies`,
`firebird_comments` and `firebird_type_audit` are one function with seven descriptors: a query of the catalog, the
columns of the result, and how a fetched row becomes a row of values. A value is read with the accessor that the
descriptor names, whatever the server describes.

`MetadataColumn.read` is that reading, from the buffers, and `MetadataColumn.shown` what it is to return of the cells of a
row. `metadata_functions_deliver` is the link, for a whole run: in columns of the kinds that the queries have, no accessor
leaves its buffer, and the chunks have one row for each row of the query; there are none exactly if the query, a BLOB or a
text cannot be read. `type_audit_function` is the case of the audit, whose rows are those of `Metadata.TypeAudit`.
-/

namespace FirebirdScan

open Emission Raising

/-! ## Values -/

/-- A `Value` of these functions; `none` is `NULL`. -/
inductive MetadataValue where
  | varchar (s : Option Bytes)
  | integer (n : Option Int32)
  | boolean (b : Bool)
deriving DecidableEq

def MetadataValue.typeId : MetadataValue → LogicalTypeId
  | varchar _ => .varchar
  | integer _ => .integer
  | boolean _ => .boolean

/-- `Value(std::string)`, which throws where the text is no UTF-8. -/
def newText (s : Bytes) : Except Stop MetadataValue :=
  if isValidUtf8 s = true then .ok (.varchar (some s)) else .error (.invalidUnicode s)

/-- `FormatFbType`. -/
def formatFbType (ftype subType length scale precision : Int) : Bytes :=
  let s := if scale < 0 then -scale else scale
  if ftype = 7 ∨ ftype = 8 ∨ ftype = 16 then
    if subType = 1 then typeWithArguments "NUMERIC" [precision, s]
    else if subType = 2 then typeWithArguments "DECIMAL" [precision, s]
    else if ftype = 7 then utf8 "SMALLINT"
    else if ftype = 8 then utf8 "INTEGER"
    else utf8 "BIGINT"
  else if ftype = 10 then utf8 "FLOAT"
  else if ftype = 27 then utf8 "DOUBLE PRECISION"
  else if ftype = 12 then utf8 "DATE"
  else if ftype = 13 then utf8 "TIME"
  else if ftype = 35 then utf8 "TIMESTAMP"
  else if ftype = 14 then typeWithArguments "CHAR" [length]
  else if ftype = 37 then typeWithArguments "VARCHAR" [length]
  else if ftype = 261 then if subType = 1 then utf8 "BLOB SUB_TYPE TEXT" else utf8 "BLOB"
  else utf8 "TYPE_" ++ utf8 (toString ftype)

/-- The cases of `DepTypeLabel`. -/
def depTypeLabels : List (Int16 × String) :=
  [(0, "TABLE"), (1, "VIEW"), (2, "TRIGGER"), (3, "COMPUTED_FIELD"), (4, "VALIDATION"), (5, "PROCEDURE"),
    (6, "EXPRESSION_INDEX"), (7, "EXCEPTION"), (8, "USER"), (9, "FIELD"), (10, "INDEX"), (14, "GENERATOR"), (15, "UDF"),
    (17, "COLLATION"), (18, "PACKAGE"), (19, "PACKAGE_BODY")]

/-- `DepTypeLabel`. -/
def depTypeLabel (code : Int16) : Bytes := utf8 ((depTypeLabels.lookup code).getD "UNKNOWN")

/-! ## Columns -/

/-- The texts of the switch of the audit. -/
inductive AuditPart where
  | firebirdType | duckdbType | finding | detail
deriving DecidableEq

def AuditPart.of : AuditPart → AuditText → Bytes
  | firebirdType, t => t.firebirdType
  | duckdbType, t => t.duckdbType
  | finding, t => t.finding.text
  | detail, t => t.detail

/-- A column of a result, with the column or the columns of the query that it is read from. -/
inductive MetadataColumn where
  /-- `Value("main")` -/
  | main
  /-- `TextOrNull` -/
  | text (i : Nat)
  /-- `BlobTextOrNull` -/
  | blobText (i : Nat)
  /-- `ShortOrNull` -/
  | short (i : Nat)
  /-- `BoolFromFlag` -/
  | flag (i : Nat)
  /-- `c.IsNull(i) || c.GetShort(i) == 0` -/
  | unlessFlag (i : Nat)
  /-- the scale of a domain, which is stored negative -/
  | absScale (i : Nat)
  /-- the label of a type code -/
  | depType (i : Nat)
  /-- `FormatFbType` of the columns 1 to 5 -/
  | baseType
  /-- a text of the audit, of the columns 2 to 7 -/
  | audit (part : AuditPart)
deriving DecidableEq

section Read

variable (blobs : Bytes → Except Bytes Bytes) (c : RowBuffers)

/-- `ReadBlob`. -/
def readBlobText (i : Nat) : Except Stop Bytes := do
  let id ← c.getBlobId i
  (blobs id).mapError .thrown

/-- `c.IsNull(i) ? 0 : c.GetShort(i)`, and the same with another default. -/
def shortOr (default : Int16) (i : Nat) : Except Stop Int16 := do
  if ← c.isNull i then .ok default else c.getShort i

/-- A value is read from the buffers. -/
def MetadataColumn.read : MetadataColumn → Except Stop MetadataValue
  | main => newText (utf8 "main")
  | text i => do
      if ← c.isNull i then .ok (.varchar none)
      else
        let s ← c.getText i
        newText s
  | blobText i => do
      if ← c.isNull i then .ok (.varchar none)
      else
        let s ← readBlobText blobs c i
        newText s
  | short i => do
      if ← c.isNull i then .ok (.integer none)
      else
        let n ← c.getShort i
        .ok (.integer (some n.toInt32))
  | flag i => do
      if ← c.isNull i then .ok (.boolean false)
      else
        let n ← c.getShort i
        .ok (.boolean (n != 0))
  | unlessFlag i => do
      if ← c.isNull i then .ok (.boolean true)
      else
        let n ← c.getShort i
        .ok (.boolean (n == 0))
  | absScale i => do
      let scale ← shortOr c 0 i
      if ← c.isNull i then .ok (.integer none)
      else .ok (.integer (some (if scale < 0 then -scale.toInt32 else scale.toInt32)))
  | depType i => do
      if ← c.isNull i then newText (utf8 "UNKNOWN")
      else
        let code ← c.getShort i
        newText (depTypeLabel code)
  | baseType => do
      let ftype ← shortOr c 0 1
      let subType ← shortOr c 0 2
      let length ← shortOr c 0 3
      let scale ← shortOr c 0 4
      let precision ← shortOr c 0 5
      newText (formatFbType ftype.toInt subType.toInt length.toInt scale.toInt precision.toInt)
  | audit part => do
      let ft ← c.getShort 2
      let st ← c.getShort 3
      let sc ← c.getShort 4
      let prec ← c.getShort 5
      let len ← c.getShort 6
      let cs ← shortOr c (-1) 7
      newText (part.of (auditText ft st sc prec len cs))

end Read

/-! ## Descriptors -/

/-- `MetadataFn`. The values of a row are read in the order of its columns. -/
structure MetadataFn where
  name : Bytes
  colNames : List Bytes
  colTypes : List LogicalTypeId
  sql : Bytes
  columns : List MetadataColumn

/-- `map_row`. -/
def MetadataFn.mapRow (desc : MetadataFn) (blobs : Bytes → Except Bytes Bytes) (c : RowBuffers) :
    Except Stop (List MetadataValue) :=
  desc.columns.mapM (·.read blobs c)

/-- `GetFirebirdIndexesFunction`. -/
def firebirdIndexes : MetadataFn where
  name := utf8 "firebird_indexes"
  colNames := ["table_schema", "table_name", "index_name", "is_unique", "is_active", "segment_position", "column_name",
    "expression_source"].map utf8
  colTypes := [.varchar, .varchar, .varchar, .boolean, .boolean, .integer, .varchar, .varchar]
  sql := utf8 ("SELECT TRIM(i.RDB$RELATION_NAME), TRIM(i.RDB$INDEX_NAME), " ++
    "       i.RDB$UNIQUE_FLAG, i.RDB$INDEX_INACTIVE, " ++
    "       seg.RDB$FIELD_POSITION, TRIM(seg.RDB$FIELD_NAME), " ++
    "       i.RDB$EXPRESSION_SOURCE " ++
    "  FROM RDB$INDICES i " ++
    "  LEFT JOIN RDB$INDEX_SEGMENTS seg ON seg.RDB$INDEX_NAME = i.RDB$INDEX_NAME " ++
    " WHERE i.RDB$SYSTEM_FLAG = 0 " ++
    " ORDER BY i.RDB$RELATION_NAME, i.RDB$INDEX_NAME, seg.RDB$FIELD_POSITION")
  columns := [.main, .text 0, .text 1, .flag 2, .unlessFlag 3, .short 4, .text 5, .blobText 6]

/-- `GetFirebirdForeignKeysFunction`. -/
def firebirdForeignKeys : MetadataFn where
  name := utf8 "firebird_foreign_keys"
  colNames := ["fk_schema", "fk_table", "fk_constraint", "ordinal_position", "fk_column", "pk_table", "pk_constraint",
    "update_rule", "delete_rule"].map utf8
  colTypes := [.varchar, .varchar, .varchar, .integer, .varchar, .varchar, .varchar, .varchar, .varchar]
  sql := utf8 ("SELECT TRIM(rc.RDB$RELATION_NAME), TRIM(rc.RDB$CONSTRAINT_NAME), " ++
    "       fkseg.RDB$FIELD_POSITION, TRIM(fkseg.RDB$FIELD_NAME), " ++
    "       TRIM(uq.RDB$RELATION_NAME), TRIM(ref.RDB$CONST_NAME_UQ), " ++
    "       TRIM(ref.RDB$UPDATE_RULE), TRIM(ref.RDB$DELETE_RULE) " ++
    "  FROM RDB$RELATION_CONSTRAINTS rc " ++
    "  JOIN RDB$REF_CONSTRAINTS ref ON ref.RDB$CONSTRAINT_NAME = rc.RDB$CONSTRAINT_NAME " ++
    "  JOIN RDB$RELATION_CONSTRAINTS uq ON uq.RDB$CONSTRAINT_NAME = ref.RDB$CONST_NAME_UQ " ++
    "  JOIN RDB$INDEX_SEGMENTS fkseg ON fkseg.RDB$INDEX_NAME = rc.RDB$INDEX_NAME " ++
    " WHERE rc.RDB$CONSTRAINT_TYPE = 'FOREIGN KEY' " ++
    " ORDER BY rc.RDB$RELATION_NAME, rc.RDB$CONSTRAINT_NAME, fkseg.RDB$FIELD_POSITION")
  columns := [.main, .text 0, .text 1, .short 2, .text 3, .text 4, .text 5, .text 6, .text 7]

/-- `GetFirebirdDomainsFunction`. -/
def firebirdDomains : MetadataFn where
  name := utf8 "firebird_domains"
  colNames := ["domain_name", "base_type", "length", "scale", "is_nullable", "charset_name", "check_source",
    "default_source"].map utf8
  colTypes := [.varchar, .varchar, .integer, .integer, .boolean, .varchar, .varchar, .varchar]
  sql := utf8 ("SELECT TRIM(f.RDB$FIELD_NAME), f.RDB$FIELD_TYPE, " ++
    "       COALESCE(f.RDB$FIELD_SUB_TYPE,0), f.RDB$FIELD_LENGTH, " ++
    "       COALESCE(f.RDB$FIELD_SCALE,0), COALESCE(f.RDB$FIELD_PRECISION,0), " ++
    "       f.RDB$NULL_FLAG, TRIM(cs.RDB$CHARACTER_SET_NAME), " ++
    "       f.RDB$VALIDATION_SOURCE, " ++
    "       f.RDB$DEFAULT_SOURCE " ++
    "  FROM RDB$FIELDS f " ++
    "  LEFT JOIN RDB$CHARACTER_SETS cs ON cs.RDB$CHARACTER_SET_ID = f.RDB$CHARACTER_SET_ID " ++
    " WHERE COALESCE(f.RDB$SYSTEM_FLAG,0) = 0 " ++
    "   AND f.RDB$FIELD_NAME NOT STARTING WITH 'RDB$' " ++
    "   AND f.RDB$FIELD_NAME NOT STARTING WITH 'MON$' " ++
    " ORDER BY f.RDB$FIELD_NAME")
  columns := [.text 0, .baseType, .short 3, .absScale 4, .unlessFlag 6, .text 7, .blobText 8, .blobText 9]

/-- `GetFirebirdComputedColumnsFunction`. -/
def firebirdComputedColumns : MetadataFn where
  name := utf8 "firebird_computed_columns"
  colNames := ["table_schema", "table_name", "column_name", "expression_source"].map utf8
  colTypes := [.varchar, .varchar, .varchar, .varchar]
  sql := utf8 ("SELECT TRIM(rf.RDB$RELATION_NAME), TRIM(rf.RDB$FIELD_NAME), " ++
    "       f.RDB$COMPUTED_SOURCE " ++
    "  FROM RDB$RELATION_FIELDS rf " ++
    "  JOIN RDB$FIELDS f ON f.RDB$FIELD_NAME = rf.RDB$FIELD_SOURCE " ++
    " WHERE f.RDB$COMPUTED_SOURCE IS NOT NULL " ++
    "   AND COALESCE(rf.RDB$SYSTEM_FLAG,0) = 0 " ++
    " ORDER BY rf.RDB$RELATION_NAME, rf.RDB$FIELD_POSITION")
  columns := [.main, .text 0, .text 1, .blobText 2]

/-- `GetFirebirdDependenciesFunction`. -/
def firebirdDependencies : MetadataFn where
  name := utf8 "firebird_dependencies"
  colNames := ["object_name", "object_type", "object_type_code", "depends_on_name", "depends_on_type",
    "depends_on_type_code", "field_name"].map utf8
  colTypes := [.varchar, .varchar, .integer, .varchar, .varchar, .integer, .varchar]
  sql := utf8 ("SELECT TRIM(RDB$DEPENDENT_NAME), RDB$DEPENDENT_TYPE," ++
    "       TRIM(RDB$DEPENDED_ON_NAME), RDB$DEPENDED_ON_TYPE," ++
    "       TRIM(RDB$FIELD_NAME)" ++
    "  FROM RDB$DEPENDENCIES" ++
    " ORDER BY RDB$DEPENDENT_NAME, RDB$DEPENDED_ON_NAME, RDB$FIELD_NAME")
  columns := [.text 0, .depType 1, .short 1, .text 2, .depType 3, .short 3, .text 4]

/-- `GetFirebirdCommentsFunction`. -/
def firebirdComments : MetadataFn where
  name := utf8 "firebird_comments"
  colNames := ["object_schema", "object_name", "object_type", "column_name", "comment"].map utf8
  colTypes := [.varchar, .varchar, .varchar, .varchar, .varchar]
  sql := utf8 ("SELECT TRIM(r.RDB$RELATION_NAME)," ++
    "       CASE WHEN r.RDB$VIEW_BLR IS NULL THEN 'TABLE' ELSE 'VIEW' END," ++
    "       CAST(NULL AS VARCHAR(63))," ++
    "       r.RDB$DESCRIPTION" ++
    "  FROM RDB$RELATIONS r" ++
    " WHERE COALESCE(r.RDB$SYSTEM_FLAG,0) = 0" ++
    "   AND r.RDB$DESCRIPTION IS NOT NULL" ++
    " UNION ALL" ++
    " SELECT TRIM(rf.RDB$RELATION_NAME)," ++
    "        'COLUMN'," ++
    "        TRIM(rf.RDB$FIELD_NAME)," ++
    "        rf.RDB$DESCRIPTION" ++
    "   FROM RDB$RELATION_FIELDS rf" ++
    "  WHERE COALESCE(rf.RDB$SYSTEM_FLAG,0) = 0" ++
    "    AND rf.RDB$DESCRIPTION IS NOT NULL" ++
    " ORDER BY 1, 2, 3")
  columns := [.main, .text 0, .text 1, .text 2, .blobText 3]

/-- `GetFirebirdTypeAuditFunction`. -/
def firebirdTypeAudit : MetadataFn where
  name := utf8 "firebird_type_audit"
  colNames := ["table_schema", "table_name", "column_name", "firebird_type", "duckdb_type", "finding", "detail"].map utf8
  colTypes := [.varchar, .varchar, .varchar, .varchar, .varchar, .varchar, .varchar]
  sql := utf8 ("SELECT TRIM(rf.RDB$RELATION_NAME), TRIM(rf.RDB$FIELD_NAME), " ++
    "       f.RDB$FIELD_TYPE, COALESCE(f.RDB$FIELD_SUB_TYPE,0), " ++
    "       COALESCE(f.RDB$FIELD_SCALE,0), COALESCE(f.RDB$FIELD_PRECISION,0), " ++
    "       COALESCE(f.RDB$FIELD_LENGTH,0), COALESCE(f.RDB$CHARACTER_SET_ID,-1) " ++
    "  FROM RDB$RELATION_FIELDS rf " ++
    "  JOIN RDB$FIELDS f ON f.RDB$FIELD_NAME = rf.RDB$FIELD_SOURCE " ++
    " WHERE COALESCE(rf.RDB$SYSTEM_FLAG,0) = 0 AND ( " ++
    "       f.RDB$FIELD_TYPE IN (24,25,28,29) " ++
    "    OR (f.RDB$FIELD_TYPE = 16 AND COALESCE(f.RDB$FIELD_SCALE,0) <> 0) " ++
    "    OR (f.RDB$FIELD_TYPE = 26 AND COALESCE(f.RDB$FIELD_SCALE,0) = 0) " ++
    "    OR (f.RDB$FIELD_TYPE IN (14,37) AND f.RDB$CHARACTER_SET_ID = 0) " ++
    "    OR (f.RDB$FIELD_TYPE = 261 AND f.RDB$FIELD_SUB_TYPE = 1) ) " ++
    " ORDER BY rf.RDB$RELATION_NAME, rf.RDB$FIELD_NAME")
  columns := [.main, .text 0, .text 1, .audit .firebirdType, .audit .duckdbType, .audit .finding, .audit .detail]

/-! ## The functions -/

inductive MetadataFunction where
  | indexes | foreignKeys | domains | computedColumns | dependencies | comments | typeAudit
deriving DecidableEq

namespace MetadataFunction

def descriptor : MetadataFunction → MetadataFn
  | indexes => firebirdIndexes
  | foreignKeys => firebirdForeignKeys
  | domains => firebirdDomains
  | computedColumns => firebirdComputedColumns
  | dependencies => firebirdDependencies
  | comments => firebirdComments
  | typeAudit => firebirdTypeAudit

/-- What the columns of the query are. The codes and flags of the catalog are `SMALLINT`; `COALESCE` may make a wider
    integer of one. -/
def kinds : MetadataFunction → List ResultKind
  | indexes => [.text, .text, .number 2, .number 2, .number 2, .text, .blob]
  | foreignKeys => [.text, .text, .number 2, .text, .text, .text, .text, .text]
  | domains =>
      [.text, .number 2, .number 2, .number 2, .number 2, .number 2, .number 2, .text, .blob, .blob]
  | computedColumns => [.text, .text, .blob]
  | dependencies => [.text, .number 2, .text, .number 2, .text]
  | comments => [.text, .text, .text, .blob]
  | typeAudit => [.text, .text, .number 2, .number 2, .number 2, .number 2, .number 2, .number 2]

/-- The columns of the query that are read without a look at the indicator. The query has them from `COALESCE`, or tests
    them. -/
def required : MetadataFunction → List Nat
  | typeAudit => [2, 3, 4, 5, 6]
  | _ => []

/-- The cells of a row as the query has them. -/
def Complete (function : MetadataFunction) (cells : List CatalogCell) : Prop :=
  ∀ i ∈ function.required, cells[i]? ≠ some .null

end MetadataFunction

/-- What a bind has. -/
structure MetadataBind where
  catalogName : Bytes
  names : List Bytes
  returnTypes : List LogicalTypeId

/-- `MetaBindDispatch`. -/
def metaBindDispatch (desc : MetadataFn) (catalogs : Catalogs) (argument : Option Bytes) : Except Bytes MetadataBind :=
  match argument with
  | none =>
      .error (desc.name ++ utf8 ("(catalog_name VARCHAR): catalog_name is " ++
        "required (the alias from ATTACH ... (TYPE firebird))."))
  | some catalogName => do
      let _ ← validateFirebirdAttachAlias catalogs catalogName
      .ok { catalogName, names := desc.colNames, returnTypes := desc.colTypes }

/-- `MetaInitGlobal`. -/
def metaInitGlobal (server : CatalogServer) (desc : MetadataFn) : Except Stop (Cursor (List MetadataValue)) := do
  let rows ← server.fetchQuery desc.sql (desc.mapRow server.readBlob)
  .ok { rows }

/-- The chunks of the first calls of `MetaFunction`, each of which is `fill` with a chunk of `STANDARD_VECTOR_SIZE`. -/
def metaCalls (n : Nat) (g : Cursor (List MetadataValue)) : List (List (List MetadataValue)) :=
  calls standardVectorSize n g

/-! ## What is shown -/

section Shown

variable (blobs : Bytes → Except Bytes Bytes) (cells : List CatalogCell)

/-- The number in a column, as a `SMALLINT`. -/
def shortIn (i : Nat) : Option Int16 :=
  match cells[i]? with
  | some (.number n) => some n.toInt16
  | _ => none

/-- A value, by the cells of the row. -/
def MetadataColumn.shown : MetadataColumn → MetadataValue
  | main => .varchar (some (utf8 "main"))
  | text i =>
      match cells[i]? with
      | some (.text s) => .varchar (some s)
      | _ => .varchar none
  | blobText i =>
      match cells[i]? with
      | some (.blob id) => .varchar (blobs id).toOption
      | _ => .varchar none
  | short i => .integer ((shortIn cells i).map Int16.toInt32)
  | flag i => .boolean ((shortIn cells i).any (· != 0))
  | unlessFlag i => .boolean ((shortIn cells i).all (· == 0))
  | absScale i =>
      .integer ((shortIn cells i).map fun scale => if scale < 0 then -scale.toInt32 else scale.toInt32)
  | depType i => .varchar (some (((shortIn cells i).map depTypeLabel).getD (utf8 "UNKNOWN")))
  | baseType =>
      let short (i : Nat) : Int := ((shortIn cells i).getD 0).toInt
      .varchar (some (formatFbType (short 1) (short 2) (short 3) (short 4) (short 5)))
  | audit part =>
      let short (i : Nat) : Int16 := (shortIn cells i).getD 0
      .varchar (some (part.of
        (auditText (short 2) (short 3) (short 4) (short 5) (short 6) ((shortIn cells 7).getD (-1)))))

/-- The cell can be read: a text is UTF-8, and so is the content of a BLOB. -/
def CatalogCell.Readable : CatalogCell → Prop
  | .text s => isValidUtf8 s = true
  | .blob id => ∃ content, blobs id = .ok content ∧ isValidUtf8 content = true
  | _ => True

/-- The row that a function is to return of the cells. -/
def MetadataFunction.shown (function : MetadataFunction) : List MetadataValue :=
  function.descriptor.columns.map (·.shown blobs cells)

end Shown

/-! ## Texts of the source -/

/-- A text of the source is UTF-8. -/
theorem newText_source {s : Bytes} (h : Utf8.WellFormed s) : newText s = .ok (.varchar (some s)) :=
  if_pos ((isValidUtf8_iff s).mpr h)

theorem newText_returns (s : Bytes) :
    Returns (isValidUtf8 s = true) (· = .varchar (some s)) (· ≠ .beyondBuffer) (newText s) where
  returns h := ⟨_, if_pos h, rfl⟩
  raises h := ⟨_, if_neg h, nofun⟩

theorem wellFormed_typeWithArguments (name : String) (arguments : List Int) :
    Utf8.WellFormed (typeWithArguments name arguments) := by
  have hargs : Utf8.WellFormed ((utf8 ",").intercalate (arguments.map fun n => utf8 (toString n))) := by
    induction arguments with
    | nil => exact Utf8.wellFormed_nil
    | cons n arguments ih =>
        cases arguments with
        | nil =>
            rw [List.map_cons, List.map_nil, List.intercalate_singleton]
            exact wellFormed_utf8 _
        | cons m arguments =>
            rw [List.map_cons, List.map_cons, List.intercalate_cons_cons]
            exact ((wellFormed_utf8 _).append (wellFormed_utf8 _)).append ih
  exact (((wellFormed_utf8 _).append (wellFormed_utf8 _)).append hargs).append (wellFormed_utf8 _)

theorem wellFormed_formatFbType (ftype subType length scale precision : Int) :
    Utf8.WellFormed (formatFbType ftype subType length scale precision) := by
  unfold formatFbType
  dsimp only
  split_ifs
  all_goals first
    | exact wellFormed_typeWithArguments _ _
    | exact wellFormed_utf8 _
    | exact (wellFormed_utf8 _).append (wellFormed_utf8 _)

theorem wellFormed_finding (finding : AuditFinding) : Utf8.WellFormed finding.text := by
  cases finding <;> exact wellFormed_utf8 _

theorem wellFormed_numericName (subType : Int16) {numeric decimal plain : Bytes} (hnumeric : Utf8.WellFormed numeric)
    (hdecimal : Utf8.WellFormed decimal) (hplain : Utf8.WellFormed plain) :
    Utf8.WellFormed (numericName subType numeric decimal plain) := by
  unfold numericName
  split_ifs
  · exact hnumeric
  · exact hdecimal
  · exact hplain

/-- Every text of the switch is UTF-8. -/
structure AuditText.IsUtf8 (t : AuditText) : Prop where
  firebirdType : Utf8.WellFormed t.firebirdType
  duckdbType : Utf8.WellFormed t.duckdbType
  detail : Utf8.WellFormed t.detail

theorem auditText_isUtf8 (ft st sc prec len cs : Int16) : (auditText ft st sc prec len cs).IsUtf8 := by
  have hmk {firebirdType duckdbType detail : Bytes} {finding : AuditFinding} (hfirebird : Utf8.WellFormed firebirdType)
      (hduckdb : Utf8.WellFormed duckdbType) (hdetail : Utf8.WellFormed detail) :
      AuditText.IsUtf8 { firebirdType, duckdbType, finding, detail } := ⟨hfirebird, hduckdb, hdetail⟩
  have htype := wellFormed_typeWithArguments
  have hvarchar := wellFormed_utf8 "VARCHAR"
  have hnone {s : Bytes} (h : Utf8.WellFormed s) : Utf8.WellFormed (s ++ utf8 " CHARACTER SET NONE") :=
    h.append (wellFormed_utf8 _)
  unfold auditText
  split_ifs
  -- a 64-bit number, by its subtype
  · exact hmk (htype _ _) (htype _ _) (wellFormed_utf8 _)
  · exact hmk (htype _ _) (htype _ _) (wellFormed_utf8 _)
  -- a `DECFLOAT`, by its width
  · exact hmk (htype _ _) hvarchar (wellFormed_utf8 _)
  · exact hmk (htype _ _) hvarchar (wellFormed_utf8 _)
  · exact hmk (wellFormed_numericName _ (htype _ _) (htype _ _) (wellFormed_utf8 _)) (wellFormed_utf8 _) (wellFormed_utf8 _)
  · exact hmk (wellFormed_utf8 _) (wellFormed_utf8 _) (wellFormed_utf8 _)
  · exact hmk (wellFormed_utf8 _) (wellFormed_utf8 _) (wellFormed_utf8 _)
  -- a text, and a BLOB, by the character set
  · exact hmk (hnone (htype _ _)) hvarchar (wellFormed_utf8 _)
  · exact hmk (hnone (htype _ _)) hvarchar (wellFormed_utf8 _)
  · exact hmk (wellFormed_utf8 _) hvarchar (wellFormed_utf8 _)
  · exact hmk (wellFormed_utf8 _) hvarchar (wellFormed_utf8 _)
  · exact hmk ((wellFormed_utf8 _).append (wellFormed_utf8 _)) Utf8.wellFormed_nil (wellFormed_utf8 _)

theorem wellFormed_audit (part : AuditPart) (ft st sc prec len cs : Int16) :
    Utf8.WellFormed (part.of (auditText ft st sc prec len cs)) := by
  have htext := auditText_isUtf8 ft st sc prec len cs
  cases part with
  | finding => exact wellFormed_finding _
  | detail => exact htext.detail
  | duckdbType => exact htext.duckdbType
  | firebirdType => exact htext.firebirdType

/-! ## Reading a row -/

/-- The columns of the query that a value is read from, with what each is. -/
def MetadataColumn.sources : MetadataColumn → List (Nat × ResultKind)
  | main => []
  | text i => [(i, .text)]
  | blobText i => [(i, .blob)]
  | short i | flag i | unlessFlag i | absScale i | depType i => [(i, .number 2)]
  | baseType => [1, 2, 3, 4, 5].map (·, .number 2)
  | audit _ => [2, 3, 4, 5, 6, 7].map (·, .number 2)

def MetadataColumn.typeId : MetadataColumn → LogicalTypeId
  | main | text _ | blobText _ | depType _ | baseType | audit _ => .varchar
  | short _ | absScale _ => .integer
  | flag _ | unlessFlag _ => .boolean

theorem MetadataColumn.shown_typeId (blobs : Bytes → Except Bytes Bytes) (cells : List CatalogCell)
    (col : MetadataColumn) : (col.shown blobs cells).typeId = col.typeId := by
  cases col with
  | text i =>
      rw [shown]
      split <;> rfl
  | blobText i =>
      rw [shown]
      split <;> rfl
  | _ => rfl

section Row

variable {c : RowBuffers} {kinds : List ResultKind} {cells : List CatalogCell} {i : Nat}

/-- The cell of a column. -/
theorem RowBuffers.HoldsRow.get (h : c.HoldsRow kinds cells) {kind : ResultKind} (hkind : kinds[i]? = some kind) :
    ∃ cell, cells[i]? = some cell ∧ c.Holds i kind cell := by
  obtain ⟨hlength, hcells⟩ := h
  obtain ⟨hlt, -⟩ := List.getElem?_eq_some_iff.mp hkind
  obtain ⟨cell, hcell⟩ : ∃ cell, cells[i]? = some cell := ⟨_, List.getElem?_eq_getElem (hlength ▸ hlt)⟩
  exact ⟨cell, hcell, hcells i kind cell hkind hcell⟩

/-- A `SMALLINT`, and how it is read. -/
theorem RowBuffers.HoldsRow.short (h : c.HoldsRow kinds cells) (hkind : kinds[i]? = some (.number 2)) :
    c.isNull i = .ok (shortIn cells i).isNone ∧ ∀ n, shortIn cells i = some n → c.getShort i = .ok n := by
  obtain ⟨cell, hcell, hholds⟩ := h.get hkind
  have hnull := hholds.isNull
  unfold shortIn
  rw [hcell]
  cases hholds with
  | null => exact ⟨hnull, nofun⟩
  | number hnot hnumber =>
      refine ⟨hnull, ?_⟩
      intro n hn
      rw [← Option.some.inj hn]
      exact (RowBuffers.Holds.number hnot hnumber).getShort (Nat.le_refl 2)

/-- A number that is read where the cell is not `NULL`. -/
theorem RowBuffers.HoldsRow.unlessNull {β : Type} (h : c.HoldsRow kinds cells) (hkind : kinds[i]? = some (.number 2))
    {onNull : Except Stop β} {onNumber : Int16 → Except Stop β} :
    (do
      if ← c.isNull i then onNull
      else
        let n ← c.getShort i
        onNumber n) = (shortIn cells i).elim onNull onNumber := by
  obtain ⟨hnull, hget⟩ := h.short hkind
  rw [hnull]
  cases hshort : shortIn cells i with
  | none => rfl
  | some n =>
      rw [hget n hshort]
      rfl

/-- What `shortOr` returns. -/
theorem RowBuffers.HoldsRow.shortOr (h : c.HoldsRow kinds cells) (hkind : kinds[i]? = some (.number 2))
    (default : Int16) : FirebirdScan.shortOr c default i = .ok ((shortIn cells i).getD default) := by
  obtain ⟨hnull, hget⟩ := h.short hkind
  unfold FirebirdScan.shortOr
  rw [hnull]
  cases hshort : shortIn cells i with
  | none => rfl
  | some n => exact hget n hshort

/-- A number can always be read. -/
theorem RowBuffers.HoldsRow.readable (h : c.HoldsRow kinds cells) {width : Nat} (hkind : kinds[i]? = some (.number width))
    (blobs : Bytes → Except Bytes Bytes) {cell : CatalogCell} (hcell : cells[i]? = some cell) : cell.Readable blobs := by
  obtain ⟨cell', hcell', hholds⟩ := h.get hkind
  rw [hcell] at hcell'
  obtain rfl := Option.some.inj hcell'
  cases hholds with
  | null => exact trivial
  | number => exact trivial

namespace MetadataColumn

variable {blobs : Bytes → Except Bytes Bytes}

/-- The cells that a value is read from. -/
def Good (blobs : Bytes → Except Bytes Bytes) (cells : List CatalogCell) (col : MetadataColumn) : Prop :=
  ∀ source ∈ col.sources, ∀ cell, cells[source.1]? = some cell → cell.Readable blobs

/-- A value that is read from numbers is always read. -/
theorem returns_number {col : MetadataColumn} (h : c.HoldsRow kinds cells)
    (hkinds : ∀ source ∈ col.sources, kinds[source.1]? = some (.number 2))
    (hread : col.read blobs c = .ok (col.shown blobs cells)) :
    Returns (col.Good blobs cells) (· = col.shown blobs cells) (· ≠ .beyondBuffer) (col.read blobs c) := by
  rw [hread]
  exact (Returns.value _).mono
    (iff_of_true trivial fun source hsource cell hcell => h.readable (hkinds source hsource) blobs hcell) fun _ => id

/-- The switch of the audit, from the cells. -/
theorem read_audit (h : c.HoldsRow kinds cells) (hkinds : ∀ i ∈ [2, 3, 4, 5, 6, 7], kinds[i]? = some (.number 2))
    (hpresent : ∀ i ∈ [2, 3, 4, 5, 6], cells[i]? ≠ some .null) (part : AuditPart) :
    (audit part).read blobs c = .ok ((audit part).shown blobs cells) := by
  have hget (i : Nat) (hi : i ∈ [2, 3, 4, 5, 6]) : c.getShort i = .ok ((shortIn cells i).getD 0) := by
    have hkind := hkinds i (by
      simp only [List.mem_cons] at hi ⊢
      tauto)
    obtain ⟨cell, hcell, hholds⟩ := h.get hkind
    have hread := (h.short hkind).2
    cases hholds with
    | null => exact absurd hcell (hpresent i hi)
    | @number _ n hnull hnumber =>
        have hshort : shortIn cells i = some n.toInt16 := by
          unfold shortIn
          rw [hcell]
        rw [hshort]
        exact hread _ hshort
  rw [read, hget 2 (by simp), hget 3 (by simp), hget 4 (by simp), hget 5 (by simp), hget 6 (by simp),
    h.shortOr (hkinds 7 (by simp))]
  exact newText_source (wellFormed_audit _ _ _ _ _ _ _)

/-- A text is read as it is, if it is UTF-8. -/
theorem returns_text (h : c.HoldsRow kinds cells) (hkind : kinds[i]? = some .text) :
    Returns ((text i).Good blobs cells) (· = (text i).shown blobs cells) (· ≠ .beyondBuffer)
      ((text i).read blobs c) := by
  obtain ⟨cell, hcell, hholds⟩ := h.get hkind
  have hgood : (text i).Good blobs cells ↔ cell.Readable blobs := by
    simp [Good, sources, hcell]
  rw [read, hholds.isNull, shown, hcell]
  cases hholds with
  | null => exact (Returns.value _).mono (iff_of_true trivial (hgood.mpr trivial)) fun _ => id
  | text hnull htext =>
      rw [htext]
      exact (newText_returns _).mono hgood.symm fun _ => id

/-- The content of a BLOB is read if there is one and it is UTF-8. -/
theorem returns_blobText (h : c.HoldsRow kinds cells) (hkind : kinds[i]? = some .blob) :
    Returns ((blobText i).Good blobs cells) (· = (blobText i).shown blobs cells) (· ≠ .beyondBuffer)
      ((blobText i).read blobs c) := by
  obtain ⟨cell, hcell, hholds⟩ := h.get hkind
  have hgood : (blobText i).Good blobs cells ↔ cell.Readable blobs := by
    simp [Good, sources, hcell]
  rw [read, hholds.isNull, shown, hcell]
  cases hholds with
  | null => exact (Returns.value _).mono (iff_of_true trivial (hgood.mpr trivial)) fun _ => id
  | @blob blobId hnull hid =>
      have hread : readBlobText blobs c i = (blobs blobId).mapError .thrown := by
        unfold readBlobText
        rw [hid]
        rfl
      rw [hread]
      cases hcontent : blobs blobId with
      | error e =>
          refine ⟨fun h => ?_, fun _ => ⟨.thrown e, rfl, nofun⟩⟩
          obtain ⟨content, hok, -⟩ := hgood.mp h
          rw [hcontent] at hok
          cases hok
      | ok content =>
          have hreadable : isValidUtf8 content = true ↔ (CatalogCell.blob blobId).Readable blobs := by
            simp [CatalogCell.Readable, hcontent]
          refine (newText_returns content).mono (hreadable.trans hgood.symm) ?_
          rintro v rfl
          show _ = MetadataValue.varchar (blobs blobId).toOption
          rw [hcontent]
          rfl

/-- A value of one number of the query. -/
theorem returns_oneNumber {col : MetadataColumn} (h : c.HoldsRow kinds cells)
    (hsources : col.sources = [(i, .number 2)]) (hkind : kinds[i]? = some (.number 2))
    (hread : col.read blobs c = .ok (col.shown blobs cells)) :
    Returns (col.Good blobs cells) (· = col.shown blobs cells) (· ≠ .beyondBuffer) (col.read blobs c) := by
  refine returns_number h ?_ hread
  rw [hsources]
  exact List.forall_mem_singleton.mpr hkind

/-- The label of a type code. -/
theorem read_depType (h : c.HoldsRow kinds cells) (hkind : kinds[i]? = some (.number 2)) :
    (depType i).read blobs c = .ok ((depType i).shown blobs cells) := by
  rw [read, h.unlessNull hkind, shown]
  cases shortIn cells i with
  | none => exact newText_source (wellFormed_utf8 "UNKNOWN")
  | some n => exact newText_source (wellFormed_utf8 _)

/-- The type of a domain, from five columns. -/
theorem read_baseType (h : c.HoldsRow kinds cells) (hkinds : ∀ i ∈ [1, 2, 3, 4, 5], kinds[i]? = some (.number 2)) :
    baseType.read blobs c = .ok (baseType.shown blobs cells) := by
  rw [read, h.shortOr (hkinds 1 (by simp)), h.shortOr (hkinds 2 (by simp)), h.shortOr (hkinds 3 (by simp)),
    h.shortOr (hkinds 4 (by simp)), h.shortOr (hkinds 5 (by simp))]
  exact newText_source (wellFormed_formatFbType _ _ _ _ _)

/-- **A value is read as it is to be shown**, exactly if what it is read from can be read; no accessor leaves its
    buffer. -/
theorem read_returns (h : c.HoldsRow kinds cells) {col : MetadataColumn}
    (hkinds : ∀ source ∈ col.sources, kinds[source.1]? = some source.2)
    (hpresent : ∀ part, col = .audit part → ∀ i ∈ [2, 3, 4, 5, 6], cells[i]? ≠ some .null) :
    Returns (col.Good blobs cells) (· = col.shown blobs cells) (· ≠ .beyondBuffer) (col.read blobs c) := by
  have hnumbers {is : List Nat} (hsources : col.sources = is.map (·, .number 2)) :
      ∀ i ∈ is, kinds[i]? = some (.number 2) := by
    intro i hi
    exact hkinds (i, .number 2) (hsources ▸ List.mem_map_of_mem hi)
  have hsource {i : Nat} {kind : ResultKind} (hsources : col.sources = [(i, kind)]) : kinds[i]? = some kind :=
    hkinds (i, kind) (hsources ▸ List.mem_singleton_self _)
  cases col with
  | main => exact returns_number h (fun _ hs => nomatch hs) (newText_source (wellFormed_utf8 _))
  | text i => exact returns_text h (hsource rfl)
  | blobText i => exact returns_blobText h (hsource rfl)
  | short i | flag i | unlessFlag i =>
      refine returns_oneNumber h rfl (hsource rfl) ?_
      rw [read, h.unlessNull (hsource rfl), shown]
      cases shortIn cells i <;> rfl
  | absScale i =>
      refine returns_oneNumber h rfl (hsource rfl) ?_
      rw [read, h.shortOr (hsource rfl), (h.short (hsource rfl)).1, shown]
      cases shortIn cells i <;> rfl
  | depType i => exact returns_oneNumber h rfl (hsource rfl) (read_depType h (hsource rfl))
  | baseType =>
      refine returns_number h ?_ (read_baseType h (hnumbers rfl))
      exact List.forall_mem_map.mpr (hnumbers rfl)
  | audit part =>
      refine returns_number h ?_ (read_audit h (hnumbers rfl) (hpresent part rfl) part)
      exact List.forall_mem_map.mpr (hnumbers rfl)

end MetadataColumn

/-! ## The descriptors -/

namespace MetadataFunction

/-- Each column of a descriptor is read from columns of the query that are what its accessor is for. -/
theorem columns_kinds (function : MetadataFunction) :
    ∀ col ∈ function.descriptor.columns, ∀ source ∈ col.sources, function.kinds[source.1]? = some source.2 := by
  cases function <;> decide

/-- Each column of the query is read. -/
theorem columns_cover (function : MetadataFunction) :
    ∀ i < function.kinds.length, ∃ col ∈ function.descriptor.columns, ∃ source ∈ col.sources, source.1 = i := by
  cases function <;> decide

/-- What is read without a look at the indicator is required. -/
theorem audit_required (function : MetadataFunction) {part : AuditPart}
    (h : .audit part ∈ function.descriptor.columns) : function.required = [2, 3, 4, 5, 6] := by
  cases function with
  | typeAudit => rfl
  | _ => cases part <;> exact absurd h (by decide)

/-- The declared types are those of the values. -/
theorem colTypes_eq (function : MetadataFunction) :
    function.descriptor.colTypes = function.descriptor.columns.map MetadataColumn.typeId := by
  cases function <;> rfl

theorem length_colNames (function : MetadataFunction) :
    function.descriptor.colNames.length = function.descriptor.columns.length := by
  cases function <;> rfl

end MetadataFunction

/-- **A row is read as it is to be shown**, exactly if all of its cells can be read. -/
theorem mapRow_returns (function : MetadataFunction) (blobs : Bytes → Except Bytes Bytes)
    (h : c.HoldsRow function.kinds cells) (hcomplete : function.Complete cells) :
    Returns (∀ cell ∈ cells, cell.Readable blobs) (· = function.shown blobs cells) (· ≠ .beyondBuffer)
      (function.descriptor.mapRow blobs c) := by
  have hcolumns : ∀ col ∈ function.descriptor.columns,
      Returns (col.Good blobs cells) (· = col.shown blobs cells) (· ≠ .beyondBuffer) (col.read blobs c) := by
    intro col hcol
    refine MetadataColumn.read_returns h (function.columns_kinds col hcol) ?_
    rintro part rfl i hi
    exact hcomplete i (function.audit_required hcol ▸ hi)
  refine (Returns.mapM hcolumns).mono ⟨?_, ?_⟩ ?_
  · intro hgood cell hcell
    obtain ⟨i, hi⟩ := List.getElem?_of_mem hcell
    obtain ⟨hlt, -⟩ := List.getElem?_eq_some_iff.mp hi
    obtain ⟨col, hcol, source, hsource, rfl⟩ := function.columns_cover i (h.1 ▸ hlt)
    exact hgood col hcol source hsource cell hi
  · intro hreadable col _ source _ cell hcell
    exact hreadable cell (List.mem_of_getElem? hcell)
  · intro values hvalues
    unfold MetadataFunction.shown
    rw [← List.forall₂_eq_eq_eq, List.forall₂_map_right_iff]
    exact hvalues.flip

end Row

/-! ## A run -/

/-- A `SMALLINT` and a BLOB, as they are described. -/
def codeVar : XSqlVar := { aliasname := utf8 "CODE", sqltype := 501, sqllen := 2 }

def sourceVar : XSqlVar := { aliasname := utf8 "SRC", sqltype := 521, sqlsubtype := 1, sqllen := 8 }

def storedCode (n : Int16) : StoredCell where
  col := describeColumn codeVar
  cell := some (.short n)
  indicator := 0
  frame := Memory.bytesOf 2 n.toUInt16.toNat
  null_iff := iff_of_false (by decide) nofun
  framed := by
    intro wire hwire
    obtain rfl := Option.some.inj hwire
    exact rfl

/-- An expression, under an id. -/
def storedSource : StoredCell where
  col := describeColumn sourceVar
  cell := some (.blob (utf8 "W * H"))
  indicator := 0
  frame := [1, 0, 0, 0, 0, 0, 0, 0]
  null_iff := iff_of_false (by decide) nofun
  framed := by
    intro wire hwire
    obtain rfl := Option.some.inj hwire
    exact rfl

/-- A server that answers whatever it is asked with one row. -/
def oneRowServer (vars : List XSqlVar) (row : List StoredCell) : CatalogServer where
  openCursor _ := .ok { vars, rows := [row.map StoredCell.sent] }
  readBlob id := if id = storedSource.frame then .ok (utf8 "W * H") else .error (utf8 "invalid BLOB ID")

/-- The row of a computed column. -/
def expressionVars : List XSqlVar := [nameVar, nameVar, sourceVar]

def expressionRow : List StoredCell := [storedName, storedName, storedSource]

section Delivered

variable {server : CatalogServer} {answer : CatalogAnswer} {rows : List (List StoredCell)}

theorem metaInitGlobal_returns (function : MetadataFunction)
    (hopen : server.openCursor function.descriptor.sql = .ok answer)
    (hanswer : answer.Holds function.kinds function.Complete rows) :
    Returns (answer.error = none ∧ ∀ row ∈ rows, ∀ cell ∈ row, cell.catalogCell.Readable server.readBlob)
      (· = { rows := rows.map fun row => function.shown server.readBlob (row.map StoredCell.catalogCell) })
      (· ≠ .beyondBuffer) (metaInitGlobal server function.descriptor) := by
  have hfetch := fetchQuery_returns (fun _ _ h hP => mapRow_returns function server.readBlob h hP) hopen hanswer
  refine (hfetch.map fun rows => ({ rows } : Cursor (List MetadataValue))).mono ?_ fun _ => id
  simp only [List.forall_mem_map]

/-- A row has the columns of the bind. -/
theorem shown_typed (function : MetadataFunction) {catalogs : Catalogs} {argument : Option Bytes} {bind : MetadataBind}
    (hbind : metaBindDispatch function.descriptor catalogs argument = .ok bind) (blobs : Bytes → Except Bytes Bytes)
    (cells : List CatalogCell) :
    (function.shown blobs cells).map MetadataValue.typeId = bind.returnTypes ∧
      (function.shown blobs cells).length = bind.names.length := by
  cases argument with
  | none => cases hbind
  | some catalogName =>
      obtain ⟨-, -, hok⟩ := bind_ok_iff.mp hbind
      rw [← Except.ok.inj hok]
      constructor
      · rw [function.colTypes_eq, MetadataFunction.shown, List.map_map]
        exact List.map_congr_left fun col _ => col.shown_typeId blobs cells
      · rw [function.length_colNames, MetadataFunction.shown, List.length_map]

/-- **The functions of a descriptor**, over a whole run. No accessor leaves its buffer. There are rows exactly if the query
    was answered to its end and every text and every BLOB of it can be read; then there is one row for each row of the
    query, as its cells are to be shown and of the types of the bind, and the chunks hand them out in order. -/
theorem metadata_functions_deliver (function : MetadataFunction)
    (hopen : server.openCursor function.descriptor.sql = .ok answer)
    (hanswer : answer.Holds function.kinds function.Complete rows) :
    metaInitGlobal server function.descriptor ≠ .error .beyondBuffer ∧
    ((∃ g, metaInitGlobal server function.descriptor = .ok g) ↔
      answer.error = none ∧ ∀ row ∈ rows, ∀ cell ∈ row, cell.catalogCell.Readable server.readBlob) ∧
    ∀ g, metaInitGlobal server function.descriptor = .ok g →
      g.rows = (rows.map fun row => function.shown server.readBlob (row.map StoredCell.catalogCell)) ∧
      (∀ catalogs argument bind, metaBindDispatch function.descriptor catalogs argument = .ok bind →
        ∀ row ∈ g.rows, row.map MetadataValue.typeId = bind.returnTypes ∧ row.length = bind.names.length) ∧
      ∀ n, Delivers standardVectorSize g.rows (metaCalls n g) ∧
        (g.rows.length ≤ n * standardVectorSize → (taken (metaCalls n g)).flatten = g.rows) := by
  have hreturns := metaInitGlobal_returns function hopen hanswer
  refine ⟨fun h => (hreturns.of_error h).2 rfl, hreturns.ok_iff, ?_⟩
  intro g hg
  obtain ⟨-, rfl⟩ := hreturns.of_ok hg
  have hsize : 0 < standardVectorSize := by decide
  refine ⟨rfl, ?_, fun n => ⟨delivers_calls hsize n _, flatten_taken_calls hsize⟩⟩
  intro catalogs argument bind hbind row hrow
  obtain ⟨stored, -, rfl⟩ := List.mem_map.mp hrow
  exact shown_typed function hbind _ _

/-- A computed column with its expression. -/
theorem metadata_functions_deliver_expression :
    ∃ g, metaInitGlobal (oneRowServer expressionVars expressionRow) firebirdComputedColumns = .ok g ∧
      g.rows = [[.varchar (some (utf8 "main")), .varchar (some (utf8 "AB")), .varchar (some (utf8 "AB")),
        .varchar (some (utf8 "W * H"))]] := by
  have hopen : (oneRowServer expressionVars expressionRow).openCursor MetadataFunction.computedColumns.descriptor.sql =
      .ok { vars := expressionVars, rows := [expressionRow.map StoredCell.sent] } := rfl
  have hanswer : CatalogAnswer.Holds { vars := expressionVars, rows := [expressionRow.map StoredCell.sent] }
      MetadataFunction.computedColumns.kinds MetadataFunction.computedColumns.Complete [expressionRow] :=
    { described := .cons (.inr rfl) (.cons (.inr rfl) (.cons rfl .nil))
      fit := List.forall_mem_singleton.mpr ⟨rfl, by decide⟩
      cells := List.forall_mem_singleton.mpr (List.forall_mem_nil _)
      sent := rfl }
  obtain ⟨-, hiff, hrows⟩ := metadata_functions_deliver .computedColumns hopen hanswer
  have hreadable : ∀ cell ∈ expressionRow,
      cell.catalogCell.Readable (oneRowServer expressionVars expressionRow).readBlob := by
    have hname : isValidUtf8 (utf8 "AB") = true := by decide
    have hsource : isValidUtf8 (utf8 "W * H") = true := by decide
    unfold expressionRow
    simp only [List.forall_mem_cons]
    exact ⟨hname, hname, ⟨_, rfl, hsource⟩, List.forall_mem_nil _⟩
  obtain ⟨g, hg⟩ := hiff.mpr ⟨rfl, List.forall_mem_singleton.mpr hreadable⟩
  exact ⟨g, hg, (hrows g hg).1⟩

/-! ## The audit -/

/-- A text that the catalog may have. -/
def CatalogCell.ofText (s : Option Bytes) : CatalogCell := s.elim .null .text

/-- The row that the query of the audit has of a column. -/
def FieldDefinition.auditCells (f : FieldDefinition) : List CatalogCell :=
  [.ofText f.relationName, .ofText f.fieldName, .number f.fieldType.toInt64, .number (f.subType.getD 0).toInt64,
    .number (f.scale.getD 0).toInt64, .number (f.precision.getD 0).toInt64, .number (f.length.getD 0).toInt64,
    .number (f.charsetId.getD (-1)).toInt64]

/-- A row of the audit, as it is returned. -/
def AuditRow.values (row : AuditRow) : List MetadataValue :=
  [.varchar (some (utf8 "main")), .varchar row.tableName, .varchar row.columnName, .varchar (some row.firebirdType),
    .varchar (some row.duckdbType), .varchar (some row.finding.text), .varchar (some row.detail)]

/-- The names of a row are UTF-8. -/
def AuditRow.NamesReadable (row : AuditRow) : Prop :=
  (∀ s ∈ row.tableName, isValidUtf8 s = true) ∧ ∀ s ∈ row.columnName, isValidUtf8 s = true

theorem shown_auditCells (blobs : Bytes → Except Bytes Bytes) (f : FieldDefinition) :
    MetadataFunction.typeAudit.shown blobs f.auditCells = (auditRow f).values := by
  have htext (i : Nat) (s : Option Bytes) (h : f.auditCells[i]? = some (.ofText s)) :
      (MetadataColumn.text i).shown blobs f.auditCells = .varchar s := by
    rw [MetadataColumn.shown, h]
    cases s <;> rfl
  have hshort (i : Nat) (n : Int16) (h : f.auditCells[i]? = some (.number n.toInt64)) :
      shortIn f.auditCells i = some n := by
    unfold shortIn
    rw [h]
    exact congrArg some (Int16.toInt16_toInt64 n)
  have haudit (part : AuditPart) :
      (MetadataColumn.audit part).shown blobs f.auditCells = .varchar (some (part.of f.auditText)) := by
    rw [MetadataColumn.shown]
    dsimp only
    rw [hshort 2 _ rfl, hshort 3 _ rfl, hshort 4 _ rfl, hshort 5 _ rfl, hshort 6 _ rfl,
      hshort 7 _ rfl]
    rfl
  show [MetadataColumn.main.shown blobs f.auditCells, (MetadataColumn.text 0).shown blobs f.auditCells,
    (MetadataColumn.text 1).shown blobs f.auditCells, (MetadataColumn.audit .firebirdType).shown blobs f.auditCells,
    (MetadataColumn.audit .duckdbType).shown blobs f.auditCells, (MetadataColumn.audit .finding).shown blobs f.auditCells,
    (MetadataColumn.audit .detail).shown blobs f.auditCells] = _
  rw [htext 0 _ rfl, htext 1 _ rfl, haudit, haudit, haudit, haudit]
  rfl

theorem readable_auditCells (blobs : Bytes → Except Bytes Bytes) (f : FieldDefinition) :
    (∀ cell ∈ f.auditCells, cell.Readable blobs) ↔ (auditRow f).NamesReadable := by
  have htext (s : Option Bytes) :
      (CatalogCell.ofText s).Readable blobs ↔ ∀ t ∈ s, isValidUtf8 t = true := by
    cases s with
    | none => exact iff_of_true trivial nofun
    | some t => simp [CatalogCell.ofText, CatalogCell.Readable]
  unfold FieldDefinition.auditCells AuditRow.NamesReadable
  simp only [List.forall_mem_cons, htext]
  constructor
  · rintro ⟨htable, hcolumn, -⟩
    exact ⟨htable, hcolumn⟩
  · rintro ⟨htable, hcolumn⟩
    exact ⟨htable, hcolumn, trivial, trivial, trivial, trivial, trivial, trivial, List.forall_mem_nil _⟩

theorem complete_auditCells (f : FieldDefinition) : MetadataFunction.typeAudit.Complete f.auditCells := by
  intro i hi
  have hcases : i = 2 ∨ i = 3 ∨ i = 4 ∨ i = 5 ∨ i = 6 := by
    simpa [MetadataFunction.required] using hi
  rcases hcases with rfl | rfl | rfl | rfl | rfl <;> exact fun h => nomatch Option.some.inj h

/-- **The audit returns its rows.** Where the server returns the columns that its query selects, in whatever integers,
    the function has the rows of `typeAudit`, exactly if the query was answered to its end and all of their names are
    UTF-8. -/
theorem type_audit_function {fields : List FieldDefinition} (hopen : server.openCursor firebirdTypeAudit.sql = .ok answer)
    (hanswer : answer.Holds MetadataFunction.typeAudit.kinds (fun _ => True) rows)
    (hselected : (rows.map fun row => row.map StoredCell.catalogCell) =
      (fields.filter fun f => auditWhere f = .true).map FieldDefinition.auditCells)
    (g : Cursor (List MetadataValue)) :
    metaInitGlobal server firebirdTypeAudit = .ok g ↔
      answer.error = none ∧ (∀ row ∈ typeAudit fields, row.NamesReadable) ∧
        g = { rows := (typeAudit fields).map AuditRow.values } := by
  have hcomplete : ∀ row ∈ rows, MetadataFunction.typeAudit.Complete (row.map StoredCell.catalogCell) := by
    intro row hrow
    have hmem : row.map StoredCell.catalogCell ∈ rows.map fun row => row.map StoredCell.catalogCell :=
      List.mem_map_of_mem hrow
    rw [hselected] at hmem
    obtain ⟨f, -, hf⟩ := List.mem_map.mp hmem
    rw [← hf]
    exact complete_auditCells f
  have hreturns := metaInitGlobal_returns .typeAudit hopen ⟨hanswer.described, hanswer.fit, hcomplete, hanswer.sent⟩
  have hshown : (rows.map fun row => MetadataFunction.typeAudit.shown server.readBlob (row.map StoredCell.catalogCell)) =
      (typeAudit fields).map AuditRow.values := by
    have hcells := congrArg (List.map (MetadataFunction.shown server.readBlob · .typeAudit)) hselected
    rw [List.map_map, List.map_map] at hcells
    refine hcells.trans ?_
    unfold typeAudit
    rw [List.map_map]
    exact List.map_congr_left fun f _ => shown_auditCells server.readBlob f
  have hreadable : (∀ row ∈ rows, ∀ cell ∈ row, cell.catalogCell.Readable server.readBlob) ↔
      ∀ row ∈ typeAudit fields, row.NamesReadable := by
    have hcells : (∀ cells ∈ rows.map fun row => row.map StoredCell.catalogCell, ∀ cell ∈ cells,
        cell.Readable server.readBlob) ↔ ∀ row ∈ typeAudit fields, row.NamesReadable := by
      unfold typeAudit
      rw [hselected]
      simp only [List.forall_mem_map, readable_auditCells]
    simpa only [List.forall_mem_map] using hcells
  rw [hreadable, hshown] at hreturns
  constructor
  · intro hg
    obtain ⟨⟨herror, hnames⟩, hrows⟩ := hreturns.of_ok hg
    exact ⟨herror, hnames, hrows⟩
  · rintro ⟨herror, hnames, rfl⟩
    obtain ⟨g, hg, rfl⟩ := hreturns.returns ⟨herror, hnames⟩
    exact hg

/-- A text without a character set. -/
def noteField : FieldDefinition :=
  { relationName := some (utf8 "AB"), fieldName := some (utf8 "AB"), fieldType := 37, length := some 80
    charsetId := some 0 }

def noteRow : List StoredCell :=
  [storedName, storedName, storedCode 37, storedCode 0, storedCode 0, storedCode 0, storedCode 80, storedCode 0]

def noteVars : List XSqlVar := [nameVar, nameVar, codeVar, codeVar, codeVar, codeVar, codeVar, codeVar]

theorem type_audit_function_note :
    metaInitGlobal (oneRowServer noteVars noteRow) firebirdTypeAudit =
      .ok { rows := (typeAudit [noteField]).map AuditRow.values } := by
  have hcode : ResultKind.Describes (.number 2) (describeColumn codeVar) := ⟨.inl rfl, by decide⟩
  have hanswer : CatalogAnswer.Holds { vars := noteVars, rows := [noteRow.map StoredCell.sent] }
      MetadataFunction.typeAudit.kinds (fun _ => True) [noteRow] :=
    { described := .cons (.inr rfl) (.cons (.inr rfl) (.cons hcode (.cons hcode (.cons hcode (.cons hcode (.cons hcode
        (.cons hcode .nil)))))))
      fit := List.forall_mem_singleton.mpr ⟨rfl, by decide⟩
      cells := fun _ _ => trivial
      sent := rfl }
  refine (type_audit_function rfl hanswer (by decide) _).mpr ⟨rfl, ?_, rfl⟩
  have hname : ∀ s ∈ some (utf8 "AB"), isValidUtf8 s = true := by decide
  exact List.forall_mem_singleton.mpr ⟨hname, hname⟩

end Delivered

end FirebirdScan
