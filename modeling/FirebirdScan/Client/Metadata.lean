import FirebirdScan.Client.ColumnType
import FirebirdScan.Sql

/-!
# `Client.Metadata` — the metadata queries

What the extension asks the server about relations, keys and constraints: one constructor for each statement,
with what varies in its text. A catalog on the other end answers every query with rows, or the query throws.
-/

namespace FirebirdScan

/-! ## Letter case -/

/-- `std::toupper`, in the C locale. -/
def toUpperByte (c : UInt8) : UInt8 := if 0x61 ≤ c ∧ c ≤ 0x7A then c - 0x20 else c

/-- `ToUpper`, and the loops that do the same. -/
def toUpper (s : Bytes) : Bytes := s.map toUpperByte

theorem toUpperByte_idem : ∀ c, toUpperByte (toUpperByte c) = toUpperByte c :=
  Utf8.every_byte (by decide +kernel)

theorem toUpper_idem (s : Bytes) : toUpper (toUpper s) = toUpper s := by
  unfold toUpper
  rw [List.map_map]
  exact List.map_congr_left fun c _ => toUpperByte_idem c

/-- `std::tolower`, in the C locale. -/
def toLowerByte (c : UInt8) : UInt8 := if 0x41 ≤ c ∧ c ≤ 0x5A then c + 0x20 else c

/-- `ToLower`, and the loops that do the same. -/
def toLower (s : Bytes) : Bytes := s.map toLowerByte

/-! ## The queries -/

inductive MetadataQuery where
  /-- `LoadTableSchema` -/
  | relationFields (relation : Bytes)
  /-- `LoadAllTableSchemas` -/
  | allRelationFields
  /-- the fallback of `EnsureTablesLoaded` -/
  | userRelations
  /-- `LoadUniqueConstraints` -/
  | uniqueConstraints
  /-- `LoadForeignKeys` -/
  | foreignKeys
  /-- `ProbePrimaryKey`, its three queries -/
  | primaryKeyIndex (relation : Bytes)
  | indexSegments (index : Bytes)
  | keyExtremes (column table : Bytes)
  /-- `LookupObjectType` -/
  | objectType (relation : Bytes)
  /-- the probe of `ReconcileViewColumnTypes`, which is prepared and not executed -/
  | describe (columns : List Bytes) (table : Bytes)
deriving DecidableEq

namespace MetadataQuery

/-! ### Texts -/

def relationFieldsSql : Bytes :=
  utf8 ("SELECT TRIM(rf.RDB$FIELD_NAME), " ++
    "       f.RDB$FIELD_TYPE, " ++
    "       COALESCE(f.RDB$FIELD_SUB_TYPE, 0), " ++
    "       COALESCE(f.RDB$FIELD_SCALE, 0), " ++
    "       COALESCE(f.RDB$FIELD_LENGTH, 0), " ++
    "       COALESCE(f.RDB$CHARACTER_SET_ID, -1), " ++
    "       COALESCE(rf.RDB$NULL_FLAG, f.RDB$NULL_FLAG, 0) " ++
    "  FROM RDB$RELATION_FIELDS rf " ++
    "  JOIN RDB$FIELDS f ON f.RDB$FIELD_NAME = rf.RDB$FIELD_SOURCE " ++
    " WHERE rf.RDB$RELATION_NAME = ")

def primaryKeyIndexSql : Bytes :=
  utf8 ("SELECT TRIM(ri.RDB$INDEX_NAME) " ++
    "  FROM RDB$INDICES ri " ++
    "  JOIN RDB$RELATION_CONSTRAINTS rc ON ri.RDB$INDEX_NAME = rc.RDB$INDEX_NAME " ++
    " WHERE ri.RDB$RELATION_NAME = ")

def objectTypeSql : Bytes :=
  utf8 ("SELECT CASE WHEN r.RDB$VIEW_BLR IS NOT NULL " ++
    "            OR r.RDB$RELATION_TYPE = 1 THEN 'VIEW' " ++
    "            ELSE 'TABLE' END " ++
    "  FROM RDB$RELATIONS r " ++
    " WHERE r.RDB$RELATION_NAME = ")

/-- The text that is sent. -/
def sql : MetadataQuery → Bytes
  | relationFields relation =>
      relationFieldsSql ++ sqlLiteral relation ++ utf8 " " ++ utf8 " ORDER BY rf.RDB$FIELD_POSITION"
  | allRelationFields =>
      utf8 ("SELECT TRIM(rf.RDB$RELATION_NAME), " ++
        "       TRIM(rf.RDB$FIELD_NAME), " ++
        "       f.RDB$FIELD_TYPE, " ++
        "       COALESCE(f.RDB$FIELD_SUB_TYPE, 0), " ++
        "       COALESCE(f.RDB$FIELD_SCALE, 0), " ++
        "       COALESCE(f.RDB$FIELD_LENGTH, 0), " ++
        "       COALESCE(f.RDB$CHARACTER_SET_ID, -1), " ++
        "       COALESCE(rf.RDB$NULL_FLAG, f.RDB$NULL_FLAG, 0), " ++
        "       r.RDB$VIEW_BLR IS NOT NULL " ++
        "  FROM RDB$RELATION_FIELDS rf " ++
        "  JOIN RDB$FIELDS f ON f.RDB$FIELD_NAME = rf.RDB$FIELD_SOURCE " ++
        "  JOIN RDB$RELATIONS r ON r.RDB$RELATION_NAME = rf.RDB$RELATION_NAME " ++
        " WHERE r.RDB$SYSTEM_FLAG = 0 " ++
        "   AND (r.RDB$RELATION_TYPE IS NULL OR r.RDB$RELATION_TYPE <> 3) " ++
        " ORDER BY rf.RDB$RELATION_NAME, rf.RDB$FIELD_POSITION")
  | userRelations =>
      utf8 ("SELECT TRIM(r.RDB$RELATION_NAME), " ++
        "       r.RDB$VIEW_BLR IS NOT NULL " ++
        "  FROM RDB$RELATIONS r " ++
        " WHERE r.RDB$SYSTEM_FLAG = 0 " ++
        "   AND (r.RDB$RELATION_TYPE IS NULL OR r.RDB$RELATION_TYPE <> 3) " ++
        " ORDER BY r.RDB$RELATION_NAME")
  | uniqueConstraints =>
      utf8 ("SELECT TRIM(rc.RDB$RELATION_NAME), TRIM(rc.RDB$CONSTRAINT_NAME), " ++
        "       TRIM(rc.RDB$CONSTRAINT_TYPE), TRIM(seg.RDB$FIELD_NAME), " ++
        "       seg.RDB$FIELD_POSITION " ++
        "  FROM RDB$RELATION_CONSTRAINTS rc " ++
        "  JOIN RDB$INDEX_SEGMENTS seg ON seg.RDB$INDEX_NAME = rc.RDB$INDEX_NAME " ++
        " WHERE rc.RDB$CONSTRAINT_TYPE IN ('PRIMARY KEY','UNIQUE') " ++
        " ORDER BY rc.RDB$RELATION_NAME, rc.RDB$CONSTRAINT_NAME, seg.RDB$FIELD_POSITION")
  | foreignKeys =>
      utf8 ("SELECT TRIM(rc.RDB$RELATION_NAME), TRIM(rc.RDB$CONSTRAINT_NAME), " ++
        "       TRIM(uq.RDB$RELATION_NAME), TRIM(fkseg.RDB$FIELD_NAME), " ++
        "       TRIM(uqseg.RDB$FIELD_NAME), fkseg.RDB$FIELD_POSITION " ++
        "  FROM RDB$RELATION_CONSTRAINTS rc " ++
        "  JOIN RDB$REF_CONSTRAINTS ref ON ref.RDB$CONSTRAINT_NAME = rc.RDB$CONSTRAINT_NAME " ++
        "  JOIN RDB$RELATION_CONSTRAINTS uq ON uq.RDB$CONSTRAINT_NAME = ref.RDB$CONST_NAME_UQ " ++
        "  JOIN RDB$INDEX_SEGMENTS fkseg ON fkseg.RDB$INDEX_NAME = rc.RDB$INDEX_NAME " ++
        "  JOIN RDB$INDEX_SEGMENTS uqseg ON uqseg.RDB$INDEX_NAME = uq.RDB$INDEX_NAME " ++
        "       AND uqseg.RDB$FIELD_POSITION = fkseg.RDB$FIELD_POSITION " ++
        " WHERE rc.RDB$CONSTRAINT_TYPE = 'FOREIGN KEY' " ++
        " ORDER BY rc.RDB$RELATION_NAME, rc.RDB$CONSTRAINT_NAME, fkseg.RDB$FIELD_POSITION")
  | primaryKeyIndex relation =>
      primaryKeyIndexSql ++ sqlLiteral relation ++ utf8 " " ++ utf8 "   AND rc.RDB$CONSTRAINT_TYPE = 'PRIMARY KEY'"
  | indexSegments index =>
      utf8 ("SELECT TRIM(seg.RDB$FIELD_NAME) " ++
        "  FROM RDB$INDEX_SEGMENTS seg " ++
        " WHERE seg.RDB$INDEX_NAME = ") ++ sqlLiteral index ++ utf8 " " ++ utf8 " ORDER BY seg.RDB$FIELD_POSITION"
  | keyExtremes column table =>
      utf8 "SELECT MIN(" ++ quoteIdent column ++ utf8 "), " ++ utf8 "       MAX(" ++ quoteIdent column ++
        utf8 ") " ++ utf8 "  FROM " ++ quoteIdent table
  | objectType relation => objectTypeSql ++ sqlLiteral relation
  | describe columns table =>
      utf8 "SELECT " ++ (utf8 ", ").intercalate (columns.map quoteIdent) ++ utf8 " FROM " ++ quoteIdent table

end MetadataQuery

/-! ### Answers -/

/-- A row of `LoadAllTableSchemas`. -/
structure RelationFieldRow where
  relation : Bytes
  field : FieldRow
  isView : Bool

/-- A row of `LoadUniqueConstraints`. -/
structure UniqueConstraintRow where
  relation : Bytes
  constraint : Bytes
  constraintType : Bytes
  field : Bytes

/-- A row of `LoadForeignKeys`. -/
structure ForeignKeyRow where
  relation : Bytes
  constraint : Bytes
  pkTable : Bytes
  fkField : Bytes
  pkField : Bytes

/-- The row of `MIN` and `MAX`, with the type of the first column; `none` is SQL `NULL`. -/
structure KeyExtremes where
  sqltype : SqlType
  min : Option Int64
  max : Option Int64

/-- What a query returns: its rows, or the first of them where the client fetches no more. -/
@[reducible] def MetadataQuery.Answer : MetadataQuery → Type
  | .relationFields _ => List FieldRow
  | .allRelationFields => List RelationFieldRow
  | .userRelations => List (Bytes × Bool)
  | .uniqueConstraints => List UniqueConstraintRow
  | .foreignKeys => List ForeignKeyRow
  | .primaryKeyIndex _ => Option Bytes
  | .indexSegments _ => List Bytes
  | .keyExtremes _ _ => Option KeyExtremes
  | .objectType _ => Option Bytes
  | .describe _ _ => List FirebirdColumnDesc

/-- The server on the other end: its answer to each query, or the text of the exception. -/
abbrev Metadata := (q : MetadataQuery) → Except Bytes q.Answer

end FirebirdScan
