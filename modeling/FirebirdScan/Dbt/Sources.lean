import FirebirdScan.Lib.Utf8Escape
import FirebirdScan.Lib.YamlText
import FirebirdScan.Scanner.Schema
import FirebirdScan.Scanner.TelemetryUtf8

/-!
# `Dbt.Sources` — the sources document (`firebird_generate_dbt_sources`)

The document lists the tables of an attached database with their columns, as one source of dbt. Names and types come
from the database, and are written as double-quoted scalars. `sourcesYaml_denotes` reads the document again.
-/

namespace FirebirdScan

open TreeWalk Utf8 YamlText

/-! ## Metadata -/

structure ColumnMeta where
  name : Bytes
  type : LogicalType
  isPk : Bool := false

structure TableMeta where
  name : Bytes
  columns : List ColumnMeta

/-- `pk_column` is empty when there is no single-column key. -/
structure TableListRow where
  tableName : Bytes
  pkColumn : Bytes := []

/-- One round of `CollectTableMetadata`. -/
def tableMeta (row : TableListRow) (columns : TableColumns) : TableMeta where
  name := row.tableName
  columns := (columns.names.zip columns.types).map fun c =>
    { name := c.1, type := c.2, isPk := !row.pkColumn.isEmpty && decide (row.pkColumn = c.1) }

/-- `CollectTableMetadata`; `listed` is what `ListUserTables` returns or throws. -/
def collectTableMetadata (server : Metadata) (listed : Except Bytes (List TableListRow))
    (noneEncoding : NoneEncoding) : Except Bytes (List TableMeta) := do
  (← listed).mapM fun row => do .ok (tableMeta row (← loadTableSchema server noneEncoding false row.tableName))

/-! ## The text -/

/-- The cases of `YamlQuote`. -/
def yamlEscape (c : UInt8) : Bytes :=
  if c = 0x5C then utf8 "\\\\"
  else if c = 0x22 then utf8 "\\\""
  else if c = 0x0A then utf8 "\\n"
  else if c = 0x0D then utf8 "\\r"
  else if c = 0x09 then utf8 "\\t"
  else if c < 0x20 then utf8 "\\x" ++ [hex (c.toNat / 16), hex (c.toNat % 16)]
  else [c]

/-- `YamlQuote`. -/
def yamlQuote (s : Bytes) : Bytes := utf8 "\"" ++ s.flatMap yamlEscape ++ utf8 "\""

section Text

variable (typeText : LogicalType → Bytes)

/-- One round of the inner loop of `BuildSourcesYaml`; `typeText` is `LogicalType::ToString`. -/
def columnYaml (c : ColumnMeta) : Bytes :=
  utf8 "          - name: " ++ yamlQuote c.name ++ utf8 "\n" ++
    (utf8 "            data_type: " ++ yamlQuote (typeText c.type) ++ utf8 "\n") ++
    utf8 "            description: \"\"\n" ++
    if c.isPk then
      utf8 "            tests:\n" ++ utf8 "              - not_null\n" ++ utf8 "              - unique\n"
    else []

/-- One round of its outer loop. -/
def tableYaml (t : TableMeta) : Bytes :=
  utf8 "      - name: " ++ yamlQuote t.name ++ utf8 "\n" ++
    utf8 "        description: \"\"\n" ++
    if t.columns.isEmpty then utf8 "        columns: []\n"
    else utf8 "        columns:\n" ++ t.columns.flatMap (columnYaml typeText)

/-- The text that `BuildSourcesYaml` composes. -/
def sourcesYaml (catalogName : Bytes) (tables : List TableMeta) : Bytes :=
  utf8 "version: 2\n" ++ utf8 "\n" ++ utf8 "sources:\n" ++
    (utf8 "  - name: " ++ yamlQuote catalogName ++ utf8 "\n") ++
    (utf8 "    schema: " ++ yamlQuote (utf8 "main") ++ utf8 "\n") ++
    utf8 "    description: \"\"\n" ++ utf8 "    tables:\n" ++
    if tables.isEmpty then utf8 "      []\n" else tables.flatMap (tableYaml typeText)

/-- `BuildSourcesYaml`. -/
def buildSourcesYaml (server : Metadata) (listed : Except Bytes (List TableListRow)) (catalogName : Bytes)
    (noneEncoding : NoneEncoding) : Except Bytes Bytes := do
  .ok (sourcesYaml typeText catalogName (← collectTableMetadata server listed noneEncoding))

end Text

/-! ## What dbt reads -/

structure DbtColumn where
  name : Bytes
  dataType : Bytes
  tests : List Bytes
deriving DecidableEq

structure DbtTable where
  name : Bytes
  columns : List DbtColumn
deriving DecidableEq

structure DbtSource where
  name : Bytes
  schema : Bytes
  tables : List DbtTable
deriving DecidableEq

/-- A column has no tests unless it lists some. -/
def dbtColumn (n : Node) : Option DbtColumn := do
  let name ← (← n.get (utf8 "name")).asString
  let dataType ← (← n.get (utf8 "data_type")).asString
  match n.get (utf8 "tests") with
  | none => some { name, dataType, tests := [] }
  | some tests => do some { name, dataType, tests := ← (← tests.items).mapM Node.asWord }

def dbtTable (n : Node) : Option DbtTable := do
  let name ← (← n.get (utf8 "name")).asString
  let columns ← (← n.get (utf8 "columns")).items
  some { name, columns := ← columns.mapM dbtColumn }

def dbtSource (n : Node) : Option DbtSource := do
  let name ← (← n.get (utf8 "name")).asString
  let schema ← (← n.get (utf8 "schema")).asString
  let tables ← (← n.get (utf8 "tables")).items
  some { name, schema, tables := ← tables.mapM dbtTable }

/-- The sources of a document. -/
def dbtSources (text : Bytes) : Option (List DbtSource) := do
  let document ← YamlText.read text
  if (← document.get (utf8 "version")).asWord = some (utf8 "2") then
    (← (← document.get (utf8 "sources")).items).mapM dbtSource
  else none

/-! ## Quoted scalars -/

/-- The escape of a control character is read as that character. -/
theorem hexCharacter_control {c : UInt8} (h : c < 0x20) :
    hexCharacter [hex (c.toNat / 16), hex (c.toNat % 16)] = some [c] := by
  have hall : ∀ n < 32, hexCharacter [hex (n / 16), hex (n % 16)] = some [UInt8.ofNat n] := by decide
  have hlt : c.toNat < 32 := UInt8.lt_iff_toNat_lt.mp h
  rw [hall c.toNat hlt, UInt8.ofNat_toNat]

theorem readDoubleQuoted_yamlEscape (c : UInt8) (s : Bytes) :
    readDoubleQuoted (yamlEscape c ++ s) = (readDoubleQuoted s).map (c :: ·) := by
  unfold yamlEscape
  split_ifs with hbackslash hquote hlf hcr htab hcontrol
  · subst hbackslash
    exact @readDoubleQuoted_letter 0x5C 0x5C s rfl
  · subst hquote
    exact @readDoubleQuoted_letter 0x22 0x22 s rfl
  · subst hlf
    exact @readDoubleQuoted_letter 0x6E 0x0A s rfl
  · subst hcr
    exact @readDoubleQuoted_letter 0x72 0x0D s rfl
  · subst htab
    exact @readDoubleQuoted_letter 0x74 0x09 s rfl
  · exact readDoubleQuoted_hex (hexCharacter_control hcontrol)
  · exact readDoubleQuoted_plain (UInt8.not_lt.mp hcontrol) hquote hbackslash

/-- **A quoted scalar is read back.** -/
theorem readScalar_yamlQuote (s : Bytes) : readScalar (yamlQuote s) = some (.string s) := by
  have hbody : readDoubleQuoted (s.flatMap yamlEscape ++ utf8 "\"") = some s :=
    readDoubleQuoted_flatMap readDoubleQuoted_yamlEscape s
  have hquoted : (yamlQuote s).head? = some 0x22 := rfl
  unfold readScalar
  rw [if_pos hquoted]
  show (readDoubleQuoted (s.flatMap yamlEscape ++ utf8 "\"")).map Node.string = _
  rw [hbody]
  rfl

/-- An escape has no control character, and nothing but ASCII unless the character stands for itself. -/
theorem mem_yamlEscape {c b : UInt8} (hb : b ∈ yamlEscape c) : 0x20 ≤ b ∧ (b < 0x80 ∨ b = c) := by
  have hascii : ∀ {s : Bytes}, (∀ x ∈ s, 0x20 ≤ x ∧ x < 0x80) → b ∈ s → 0x20 ≤ b ∧ (b < 0x80 ∨ b = c) :=
    fun hs hmem => ⟨(hs b hmem).1, .inl (hs b hmem).2⟩
  have hdigit : ∀ n < 16, 0x20 ≤ hex n ∧ hex n < 0x80 := by decide
  unfold yamlEscape at hb
  split_ifs at hb with hbackslash hquote hlf hcr htab hcontrol
  · exact hascii (by decide +kernel) hb
  · exact hascii (by decide +kernel) hb
  · exact hascii (by decide +kernel) hb
  · exact hascii (by decide +kernel) hb
  · exact hascii (by decide +kernel) hb
  · have hlt : c.toNat < 32 := UInt8.lt_iff_toNat_lt.mp hcontrol
    rcases List.mem_append.mp hb with hletter | hnumber
    · exact hascii (by decide +kernel) hletter
    · rcases List.mem_pair.mp hnumber with rfl | rfl
      · exact ⟨(hdigit _ (by omega)).1, .inl (hdigit _ (by omega)).2⟩
      · exact ⟨(hdigit _ (by omega)).1, .inl (hdigit _ (by omega)).2⟩
  · rw [List.mem_singleton.mp hb]
    exact ⟨UInt8.not_lt.mp hcontrol, .inr rfl⟩

/-- A quoted scalar stays on its line. -/
theorem lf_not_mem_yamlQuote (s : Bytes) : 0x0A ∉ yamlQuote s := by
  intro hmem
  unfold yamlQuote at hmem
  rcases List.mem_append.mp hmem with hmem | hclose
  · rcases List.mem_append.mp hmem with hopen | hbody
    · exact absurd hopen (by decide)
    · obtain ⟨c, -, hc⟩ := List.mem_flatMap.mp hbody
      exact absurd (mem_yamlEscape hc).1 (by decide)
  · exact absurd hclose (by decide)

/-! ## UTF-8 -/

/-- Only ASCII is escaped. -/
theorem yamlEscape_high {b : UInt8} (h : 0x80 ≤ b) : yamlEscape b = [b] := by
  revert h
  revert b
  apply every_byte
  decide +kernel

theorem wellFormed_escaped {s : Bytes} (h : WellFormed s) : WellFormed (s.flatMap yamlEscape) := by
  refine h.scalar_induction (P := fun s => WellFormed (s.flatMap yamlEscape)) wellFormed_nil ?_
  intro cp s hcp _ ih
  rw [List.flatMap_append]
  refine WellFormed.append ?_ ih
  by_cases hascii : cp < 0x80
  -- what is escaped is ASCII
  · refine wellFormed_ascii fun b hb => ?_
    obtain ⟨c, hc, hb⟩ := List.mem_flatMap.mp hb
    rcases (mem_yamlEscape hb).2 with hlt | rfl
    · exact hlt
    · rw [encodeScalar, if_pos hascii, List.mem_singleton] at hc
      rw [hc]
      exact UInt8.lt_iff_toNat_lt.mpr ((toNat_ofNat (by omega)).trans_lt hascii)
  -- no byte of a longer encoding is escaped
  · have hplain : ∀ b ∈ encodeScalar cp, yamlEscape b = [b] := by
      intro b hb
      have hlead : ¬ b < 0x80 := fun hlt => hascii (mem_encodeScalar_ascii hcp hlt hb ▸ UInt8.lt_iff_toNat_lt.mp hlt)
      exact yamlEscape_high (UInt8.not_lt.mp hlead)
    rw [List.flatMap_congr hplain, List.flatMap_singleton', ← List.append_nil (encodeScalar cp)]
    exact wellFormed_nil.cons hcp

/-- What is quoted stays UTF-8. -/
theorem wellFormed_yamlQuote {s : Bytes} (h : WellFormed s) : WellFormed (yamlQuote s) :=
  ((wellFormed_utf8 _).append (wellFormed_escaped h)).append (wellFormed_utf8 _)

/-! ## Columns -/

section Document

variable (typeText : LogicalType → Bytes)

/-- `description: ""`. -/
def noDescription : Bytes × Node := (utf8 "description", .string [])

/-- `tests`, of a key column. -/
def keyTests : List Bytes := [utf8 "not_null", utf8 "unique"]

def columnEntries (c : ColumnMeta) : List (Bytes × Node) :=
  [(utf8 "name", .string c.name), (utf8 "data_type", .string (typeText c.type)), noDescription] ++
    if c.isPk then [(utf8 "tests", .sequence (keyTests.map .word))] else []

/-- The tests stand in a block of their own. -/
def testsTree : RoseTree Token :=
  .node ⟨12, .key (utf8 "tests")⟩ (keyTests.map fun test => .node ⟨14, .dash⟩ [.node ⟨16, .scalar (.word test)⟩ []])

def columnTrees (c : ColumnMeta) : List (RoseTree Token) :=
  [entryTree 12 (utf8 "name") (.string c.name), entryTree 12 (utf8 "data_type") (.string (typeText c.type)),
    entryTree 12 (utf8 "description") (.string [])] ++ if c.isPk then [testsTree] else []

theorem means_tests : Means 14 (keyTests.map fun test => .node ⟨14, .dash⟩ [.node ⟨16, .scalar (.word test)⟩ []])
    (.sequence (keyTests.map .word)) :=
  means_sequence (by decide) (by decide) fun test _ => means_scalar 16 (.word test)

theorem means_column (c : ColumnMeta) : Means 12 (columnTrees typeText c) (.mapping (columnEntries typeText c)) := by
  have hdistinct : [utf8 "name", utf8 "data_type", utf8 "description", utf8 "tests"].Nodup := by decide
  unfold columnTrees columnEntries
  split_ifs
  · exact means_mapping (.scalar (.scalar (.scalar (.cons (by decide) means_tests .nil)))) (List.cons_ne_nil _ _)
      hdistinct
  · exact means_mapping (.scalar (.scalar (.scalar .nil))) (List.cons_ne_nil _ _)
      (hdistinct.sublist (List.sublist_append_left [_, _, _] [_]))

/-- A line with a quoted scalar. -/
theorem lexes_quoted {lead key : Bytes} {tokens : List Token} {column : Nat} (h : Leads lead tokens column key)
    (s : Bytes) :
    Lexes (lead ++ yamlQuote s ++ utf8 "\n") (tokens ++ (entryTree column key (.string s)).labels) := by
  have hlf : utf8 "\n" = [0x0A] := by decide
  rw [hlf]
  exact h.line (readScalar_yamlQuote s) (lf_not_mem_yamlQuote s)

/-- A description, behind blanks. -/
theorem lexes_description {text : Bytes} {n : Nat}
    (h : text = List.replicate n 0x20 ++ (utf8 "description" ++ [0x3A, 0x20]) ++ yamlQuote [] ++ utf8 "\n") :
    Lexes text (entryTree n (utf8 "description") (.string [])).labels := by
  rw [h]
  exact lexes_quoted (leads_key rfl (by decide) (by decide +kernel)) []

/-- The lines of the tests. -/
theorem lexes_tests : Lexes (utf8 "            tests:\n" ++ utf8 "              - not_null\n" ++
    utf8 "              - unique\n") testsTree.labels := by
  have hkey := @lexes_key (utf8 "tests") 12 (by decide) (by decide +kernel)
  have hfirst := @lexes_item (utf8 "not_null") 14 (by decide) (by decide +kernel)
  have hsecond := @lexes_item (utf8 "unique") 14 (by decide) (by decide +kernel)
  have htext : utf8 "            tests:\n" ++ utf8 "              - not_null\n" ++ utf8 "              - unique\n" =
      (List.replicate 12 0x20 ++ (utf8 "tests" ++ [0x3A]) ++ [0x0A]) ++
        (List.replicate 14 0x20 ++ (0x2D :: 0x20 :: utf8 "not_null") ++ [0x0A]) ++
        (List.replicate 14 0x20 ++ (0x2D :: 0x20 :: utf8 "unique") ++ [0x0A]) := by decide
  rw [htext]
  exact (hkey.append hfirst).append hsecond

/-- The lines of a column. -/
theorem lexes_column (c : ColumnMeta) :
    Lexes (columnYaml typeText c) (RoseTree.node ⟨10, .dash⟩ (columnTrees typeText c)).labels := by
  have hname : Leads (utf8 "          - name: ") [⟨10, .dash⟩] 12 (utf8 "name") :=
    leads_item (by decide) (by decide) (by decide +kernel)
  have htype : Leads (utf8 "            data_type: ") [] 12 (utf8 "data_type") :=
    leads_key (by decide) (by decide) (by decide +kernel)
  have hdescription : Lexes (utf8 "            description: \"\"\n")
      (entryTree 12 (utf8 "description") (.string [])).labels := lexes_description (by decide)
  have hlines := ((lexes_quoted hname c.name).append (lexes_quoted htype (typeText c.type))).append hdescription
  unfold columnYaml columnTrees
  split_ifs
  · exact hlines.append lexes_tests
  · exact hlines.append lexes_nil

/-! ## Tables -/

def columnsNode (columns : List ColumnMeta) : Node :=
  .sequence (columns.map fun c => .mapping (columnEntries typeText c))

def tableEntries (t : TableMeta) : List (Bytes × Node) :=
  [(utf8 "name", .string t.name), noDescription, (utf8 "columns", columnsNode typeText t.columns)]

/-- The columns, in a block of their own unless there are none. -/
def columnsTree (columns : List ColumnMeta) : RoseTree Token :=
  if columns.isEmpty then entryTree 8 (utf8 "columns") (.sequence [])
  else .node ⟨8, .key (utf8 "columns")⟩ (columns.map fun c => .node ⟨10, .dash⟩ (columnTrees typeText c))

def tableTrees (t : TableMeta) : List (RoseTree Token) :=
  [entryTree 8 (utf8 "name") (.string t.name), entryTree 8 (utf8 "description") (.string []),
    columnsTree typeText t.columns]

theorem entries_columns (columns : List ColumnMeta) :
    Entries 8 [columnsTree typeText columns] [(utf8 "columns", columnsNode typeText columns)] := by
  unfold columnsTree
  split_ifs with hempty
  · obtain rfl := List.isEmpty_iff.mp hempty
    exact .scalar .nil
  · have hne : columns ≠ [] := fun h => hempty (List.isEmpty_iff.mpr h)
    exact .cons (by decide) (means_sequence hne (by decide) fun c _ => means_column typeText c) .nil

theorem means_table (t : TableMeta) : Means 8 (tableTrees typeText t) (.mapping (tableEntries typeText t)) := by
  have hdistinct : [utf8 "name", utf8 "description", utf8 "columns"].Nodup := by decide
  exact means_mapping (.scalar (.scalar (entries_columns typeText t.columns))) (List.cons_ne_nil _ _) hdistinct

theorem lexes_columns (columns : List ColumnMeta) :
    Lexes (if columns.isEmpty then utf8 "        columns: []\n"
      else utf8 "        columns:\n" ++ columns.flatMap (columnYaml typeText))
      (columnsTree typeText columns).labels := by
  unfold columnsTree
  split_ifs with hempty
  · have htext : utf8 "        columns: []\n" =
        List.replicate 8 0x20 ++ (utf8 "columns" ++ [0x3A, 0x20]) ++ [0x5B, 0x5D] ++ [0x0A] := by decide
    rw [htext]
    exact (leads_key rfl (by decide) (by decide +kernel)).line rfl (by decide)
  · have htext : utf8 "        columns:\n" = List.replicate 8 0x20 ++ (utf8 "columns" ++ [0x3A]) ++ [0x0A] := by decide
    have hkey := @lexes_key (utf8 "columns") 8 (by decide) (by decide +kernel)
    rw [htext, RoseTree.labels, labelsAll_map]
    exact hkey.append (lexes_flatMap fun c _ => lexes_column typeText c)

/-- The lines of a table. -/
theorem lexes_table (t : TableMeta) :
    Lexes (tableYaml typeText t) (RoseTree.node ⟨6, .dash⟩ (tableTrees typeText t)).labels := by
  have hname : Leads (utf8 "      - name: ") [⟨6, .dash⟩] 8 (utf8 "name") :=
    leads_item (by decide) (by decide) (by decide +kernel)
  have hdescription : Lexes (utf8 "        description: \"\"\n")
      (entryTree 8 (utf8 "description") (.string [])).labels := lexes_description (by decide)
  have hlines := ((lexes_quoted hname t.name).append hdescription).append (lexes_columns typeText t.columns)
  have hlabels : (RoseTree.node ⟨6, .dash⟩ (tableTrees typeText t)).labels =
      [⟨6, .dash⟩] ++ (entryTree 8 (utf8 "name") (.string t.name)).labels ++
        (entryTree 8 (utf8 "description") (.string [])).labels ++ (columnsTree typeText t.columns).labels := by
    rw [RoseTree.labels, tableTrees, RoseTree.labelsAll, RoseTree.labelsAll, RoseTree.labelsAll, RoseTree.labelsAll,
      List.append_nil]
    simp only [List.append_assoc, List.cons_append, List.nil_append]
  rw [hlabels]
  exact hlines

/-! ## The document -/

def sourceEntries (catalogName : Bytes) (tables : List TableMeta) : List (Bytes × Node) :=
  [(utf8 "name", .string catalogName), (utf8 "schema", .string (utf8 "main")), noDescription,
    (utf8 "tables", .sequence (tables.map fun t => .mapping (tableEntries typeText t)))]

def documentEntries (catalogName : Bytes) (tables : List TableMeta) : List (Bytes × Node) :=
  [(utf8 "version", .word (utf8 "2")),
    (utf8 "sources", .sequence [.mapping (sourceEntries typeText catalogName tables)])]

/-- The tables; where there are none, the empty sequence stands on a line of its own. -/
def tablesTrees (tables : List TableMeta) : List (RoseTree Token) :=
  if tables.isEmpty then [.node ⟨6, .scalar (.sequence [])⟩ []]
  else tables.map fun t => .node ⟨6, .dash⟩ (tableTrees typeText t)

def sourceTrees (catalogName : Bytes) (tables : List TableMeta) : List (RoseTree Token) :=
  [entryTree 4 (utf8 "name") (.string catalogName), entryTree 4 (utf8 "schema") (.string (utf8 "main")),
    entryTree 4 (utf8 "description") (.string []), .node ⟨4, .key (utf8 "tables")⟩ (tablesTrees typeText tables)]

def documentTrees (catalogName : Bytes) (tables : List TableMeta) : List (RoseTree Token) :=
  [entryTree 0 (utf8 "version") (.word (utf8 "2")),
    .node ⟨0, .key (utf8 "sources")⟩ [.node ⟨2, .dash⟩ (sourceTrees typeText catalogName tables)]]

theorem means_tables (tables : List TableMeta) :
    Means 6 (tablesTrees typeText tables) (.sequence (tables.map fun t => .mapping (tableEntries typeText t))) := by
  unfold tablesTrees
  split_ifs with hempty
  · obtain rfl := List.isEmpty_iff.mp hempty
    exact means_scalar 6 _
  · have hne : tables ≠ [] := fun h => hempty (List.isEmpty_iff.mpr h)
    exact means_sequence hne (by decide) fun t _ => means_table typeText t

theorem means_source (catalogName : Bytes) (tables : List TableMeta) :
    Means 4 (sourceTrees typeText catalogName tables) (.mapping (sourceEntries typeText catalogName tables)) := by
  have hdistinct : [utf8 "name", utf8 "schema", utf8 "description", utf8 "tables"].Nodup := by decide
  exact means_mapping (.scalar (.scalar (.scalar (.cons (by decide) (means_tables typeText tables) .nil))))
    (List.cons_ne_nil _ _) hdistinct

theorem means_document (catalogName : Bytes) (tables : List TableMeta) :
    Means 0 (documentTrees typeText catalogName tables) (.mapping (documentEntries typeText catalogName tables)) := by
  have hdistinct : [utf8 "version", utf8 "sources"].Nodup := by decide
  have hsources : Means 2 [.node ⟨2, .dash⟩ (sourceTrees typeText catalogName tables)]
      (.sequence [.mapping (sourceEntries typeText catalogName tables)]) :=
    @means_sequence Unit 2 4 [()] (fun _ => sourceTrees typeText catalogName tables)
      (fun _ => .mapping (sourceEntries typeText catalogName tables)) (List.cons_ne_nil _ _) (by decide)
      fun _ _ => means_source typeText catalogName tables
  exact means_mapping (.scalar (.cons (by decide) hsources .nil)) (List.cons_ne_nil _ _) hdistinct

theorem lexes_tables (tables : List TableMeta) :
    Lexes (if tables.isEmpty then utf8 "      []\n" else tables.flatMap (tableYaml typeText))
      (RoseTree.labelsAll (tablesTrees typeText tables)) := by
  unfold tablesTrees
  split_ifs with hempty
  · have htext : utf8 "      []\n" = List.replicate 6 0x20 ++ [0x5B, 0x5D] ++ [0x0A] := by decide
    rw [htext]
    exact lexes_empty 6
  · rw [labelsAll_map]
    exact lexes_flatMap fun t _ => lexes_table typeText t

theorem lexes_document (catalogName : Bytes) (tables : List TableMeta) :
    Lexes (sourcesYaml typeText catalogName tables)
      (RoseTree.labelsAll (documentTrees typeText catalogName tables)) := by
  have hversion : Lexes (utf8 "version: 2\n") (entryTree 0 (utf8 "version") (.word (utf8 "2"))).labels := by
    have htext : utf8 "version: 2\n" = (utf8 "version" ++ [0x3A, 0x20]) ++ utf8 "2" ++ [0x0A] := by decide
    rw [htext]
    exact (@leads_key _ (utf8 "version") 0 rfl (by decide) (by decide +kernel)).line
      (readScalar_word (by decide) (by decide +kernel)) (by decide)
  have hblank : Lexes (utf8 "\n") [] := by
    have htext : utf8 "\n" = [] ++ [0x0A] := by decide
    rw [htext]
    exact lexes_line List.not_mem_nil rfl
  have hsources : Lexes (utf8 "sources:\n") [⟨0, .key (utf8 "sources")⟩] := by
    have htext : utf8 "sources:\n" = List.replicate 0 0x20 ++ (utf8 "sources" ++ [0x3A]) ++ [0x0A] := by decide
    rw [htext]
    exact lexes_key 0 (by decide) (by decide +kernel)
  have hname : Leads (utf8 "  - name: ") [⟨2, .dash⟩] 4 (utf8 "name") :=
    leads_item (by decide) (by decide) (by decide +kernel)
  have hschema : Leads (utf8 "    schema: ") [] 4 (utf8 "schema") :=
    leads_key (by decide) (by decide) (by decide +kernel)
  have hdescription : Lexes (utf8 "    description: \"\"\n") (entryTree 4 (utf8 "description") (.string [])).labels :=
    lexes_description (by decide)
  have htables : Lexes (utf8 "    tables:\n") [⟨4, .key (utf8 "tables")⟩] := by
    have htext : utf8 "    tables:\n" = List.replicate 4 0x20 ++ (utf8 "tables" ++ [0x3A]) ++ [0x0A] := by decide
    rw [htext]
    exact lexes_key 4 (by decide) (by decide +kernel)
  -- the lines in their order, and the tokens of the tree in the same order
  have hlines := ((((((hversion.append hblank).append hsources).append (lexes_quoted hname catalogName)).append
    (lexes_quoted hschema (utf8 "main"))).append hdescription).append htables).append (lexes_tables typeText tables)
  have hlabels : RoseTree.labelsAll (documentTrees typeText catalogName tables) =
      (entryTree 0 (utf8 "version") (.word (utf8 "2"))).labels ++ [] ++ [⟨0, .key (utf8 "sources")⟩] ++
        ([⟨2, .dash⟩] ++ (entryTree 4 (utf8 "name") (.string catalogName)).labels) ++
        ([] ++ (entryTree 4 (utf8 "schema") (.string (utf8 "main"))).labels) ++
        (entryTree 4 (utf8 "description") (.string [])).labels ++ [⟨4, .key (utf8 "tables")⟩] ++
        RoseTree.labelsAll (tablesTrees typeText tables) := by
    simp only [documentTrees, sourceTrees, RoseTree.labels, RoseTree.labelsAll, List.append_nil, List.append_assoc,
      List.cons_append, List.nil_append]
  rw [hlabels]
  exact hlines

/-! ## Reading the document -/

/-- A column, as the document should have it: with tests if it is the key of its table. -/
def ColumnMeta.dbt (c : ColumnMeta) : DbtColumn where
  name := c.name
  dataType := typeText c.type
  tests := if c.isPk then keyTests else []

def TableMeta.dbt (t : TableMeta) : DbtTable where
  name := t.name
  columns := t.columns.map (ColumnMeta.dbt typeText)

theorem dbtColumn_entries (c : ColumnMeta) :
    dbtColumn (.mapping (columnEntries typeText c)) = some (c.dbt typeText) := by
  unfold columnEntries ColumnMeta.dbt
  split_ifs
  · rfl
  · rfl

theorem dbtTable_entries (t : TableMeta) : dbtTable (.mapping (tableEntries typeText t)) = some (t.dbt typeText) := by
  have hcolumns : (t.columns.map fun c => Node.mapping (columnEntries typeText c)).mapM dbtColumn =
      some (t.columns.map (ColumnMeta.dbt typeText)) := mapM_map_some fun c => dbtColumn_entries typeText c
  show (((t.columns.map fun c => Node.mapping (columnEntries typeText c)).mapM dbtColumn).bind fun columns =>
    some (DbtTable.mk t.name columns)) = _
  rw [hcolumns]
  rfl

theorem dbtSource_entries (catalogName : Bytes) (tables : List TableMeta) :
    dbtSource (.mapping (sourceEntries typeText catalogName tables)) =
      some ⟨catalogName, utf8 "main", tables.map (TableMeta.dbt typeText)⟩ := by
  have htables : (tables.map fun t => Node.mapping (tableEntries typeText t)).mapM dbtTable =
      some (tables.map (TableMeta.dbt typeText)) := mapM_map_some fun t => dbtTable_entries typeText t
  show (((tables.map fun t => Node.mapping (tableEntries typeText t)).mapM dbtTable).bind fun tables =>
    some (DbtSource.mk catalogName (utf8 "main") tables)) = _
  rw [htables]
  rfl

theorem dbtSources_sourcesYaml (catalogName : Bytes) (tables : List TableMeta) :
    dbtSources (sourcesYaml typeText catalogName tables) =
      some [⟨catalogName, utf8 "main", tables.map (TableMeta.dbt typeText)⟩] := by
  have hread := read_of (lexes_document typeText catalogName tables) (means_document typeText catalogName tables)
  unfold dbtSources
  rw [hread]
  show ([Node.mapping (sourceEntries typeText catalogName tables)].mapM dbtSource) = _
  rw [List.mapM_cons, dbtSource_entries]
  rfl

/-! ## The listed tables -/

/-- The single-column key of a table, if it has one. -/
def TableListRow.key (row : TableListRow) : Option Bytes := if row.pkColumn.isEmpty then none else some row.pkColumn

/-- A listed table, as the document should have it. -/
def dbtTableOf (row : TableListRow) (columns : TableColumns) : DbtTable where
  name := row.tableName
  columns := (columns.names.zip columns.types).map fun c =>
    { name := c.1, dataType := typeText c.2, tests := if row.key = some c.1 then keyTests else [] }

theorem isPk_iff {row : TableListRow} {name : Bytes} :
    (!row.pkColumn.isEmpty && decide (row.pkColumn = name)) = true ↔ row.key = some name := by
  unfold TableListRow.key
  split_ifs with hempty
  · rw [hempty]
    exact iff_of_false Bool.false_ne_true not_false
  · rw [Option.some_inj, Bool.eq_false_of_not_eq_true hempty]
    exact decide_eq_true_iff

theorem dbt_tableMeta (row : TableListRow) (columns : TableColumns) :
    (tableMeta row columns).dbt typeText = dbtTableOf typeText row columns := by
  unfold TableMeta.dbt dbtTableOf tableMeta
  rw [List.map_map]
  refine congrArg (DbtTable.mk row.tableName) (List.map_congr_left ?_)
  intro c _
  exact congrArg (DbtColumn.mk c.1 (typeText c.2)) (if_congr isPk_iff rfl rfl)

theorem dbt_tableMetas (tables : List (TableListRow × TableColumns)) :
    (tables.map fun t => tableMeta t.1 t.2).map (TableMeta.dbt typeText) =
      tables.map fun t => dbtTableOf typeText t.1 t.2 := by
  rw [List.map_map]
  exact List.map_congr_left fun t _ => dbt_tableMeta typeText t.1 t.2

theorem mapM_ok_iff_pairs {α β γ ε : Type} {f : α → Except ε β} {g : α → β → γ} {xs : List α} {zs : List γ} :
    (xs.mapM fun x => do .ok (g x (← f x))) = .ok zs ↔
      ∃ pairs : List (α × β), xs = pairs.map Prod.fst ∧ (∀ p ∈ pairs, f p.1 = .ok p.2) ∧
        zs = pairs.map fun p => g p.1 p.2 := by
  constructor
  · intro h
    induction xs generalizing zs with
    | nil =>
        cases h
        exact ⟨[], rfl, List.forall_mem_nil _, rfl⟩
    | cons x xs ih =>
        rw [List.mapM_cons] at h
        rcases hx : f x with e | y
        · rw [hx] at h
          cases h
        · rcases hxs : xs.mapM fun x => do .ok (g x (← f x)) with e | zs'
          · rw [hx, hxs] at h
            cases h
          · rw [hx, hxs] at h
            cases h
            obtain ⟨pairs, rfl, hpairs, rfl⟩ := ih hxs
            exact ⟨(x, y) :: pairs, rfl, List.forall_mem_cons.mpr ⟨hx, hpairs⟩, rfl⟩
  · rintro ⟨pairs, rfl, hpairs, rfl⟩
    induction pairs with
    | nil => rfl
    | cons p pairs ih =>
        obtain ⟨hp, hpairs⟩ := List.forall_mem_cons.mp hpairs
        rw [List.map_cons, List.mapM_cons, hp, ih hpairs]
        rfl

/-- `collectTableMetadata` pairs every listed table with its columns. -/
theorem collectTableMetadata_ok_iff {server : Metadata} {listed : Except Bytes (List TableListRow)}
    {noneEncoding : NoneEncoding} {metadata : List TableMeta} :
    collectTableMetadata server listed noneEncoding = .ok metadata ↔
      ∃ tables : List (TableListRow × TableColumns), listed = .ok (tables.map Prod.fst) ∧
        (∀ t ∈ tables, loadTableSchema server noneEncoding false t.1.tableName = .ok t.2) ∧
        metadata = tables.map fun t => tableMeta t.1 t.2 := by
  unfold collectTableMetadata
  rcases listed with e | rows
  · constructor
    · intro h
      cases h
    · rintro ⟨tables, hlisted, -⟩
      cases hlisted
  · simp only [Except.ok.injEq]
    exact mapM_ok_iff_pairs

/-- What `firebird_generate_dbt_sources` returns: the text for the listed tables, each with its columns. -/
theorem buildSourcesYaml_ok_iff {server : Metadata} {listed : Except Bytes (List TableListRow)} {catalogName : Bytes}
    {noneEncoding : NoneEncoding} {text : Bytes} :
    buildSourcesYaml typeText server listed catalogName noneEncoding = .ok text ↔
      ∃ tables : List (TableListRow × TableColumns), listed = .ok (tables.map Prod.fst) ∧
        (∀ t ∈ tables, loadTableSchema server noneEncoding false t.1.tableName = .ok t.2) ∧
        text = sourcesYaml typeText catalogName (tables.map fun t => tableMeta t.1 t.2) := by
  unfold buildSourcesYaml
  constructor
  · intro h
    rcases hmetadata : collectTableMetadata server listed noneEncoding with e | metadata
    · rw [hmetadata] at h
      cases h
    · rw [hmetadata] at h
      cases h
      obtain ⟨tables, hlisted, hloaded, rfl⟩ := collectTableMetadata_ok_iff.mp hmetadata
      exact ⟨tables, hlisted, hloaded, rfl⟩
  · rintro ⟨tables, hlisted, hloaded, rfl⟩
    rw [collectTableMetadata_ok_iff.mpr ⟨tables, hlisted, hloaded, rfl⟩]
    rfl

/-! ## The document is UTF-8 -/

section WellFormed

variable {typeText}

/-- A line with a quoted scalar. -/
theorem wellFormed_quotedLine (lead : String) {s : Bytes} (h : WellFormed s) :
    WellFormed (utf8 lead ++ yamlQuote s ++ utf8 "\n") :=
  ((wellFormed_utf8 lead).append (wellFormed_yamlQuote h)).append (wellFormed_utf8 _)

theorem wellFormed_flatMap {α : Type} {f : α → Bytes} {xs : List α} (h : ∀ x ∈ xs, WellFormed (f x)) :
    WellFormed (xs.flatMap f) := by
  induction xs with
  | nil => exact wellFormed_nil
  | cons x xs ih =>
      obtain ⟨hx, hxs⟩ := List.forall_mem_cons.mp h
      exact hx.append (ih hxs)

theorem wellFormed_columnYaml (htype : ∀ type, WellFormed (typeText type)) {c : ColumnMeta}
    (hname : WellFormed c.name) : WellFormed (columnYaml typeText c) := by
  unfold columnYaml
  refine WellFormed.append (((wellFormed_quotedLine _ hname).append (wellFormed_quotedLine _ (htype c.type))).append
    (wellFormed_utf8 _)) ?_
  split_ifs
  · exact ((wellFormed_utf8 _).append (wellFormed_utf8 _)).append (wellFormed_utf8 _)
  · exact wellFormed_nil

theorem wellFormed_tableYaml (htype : ∀ type, WellFormed (typeText type)) {t : TableMeta} (hname : WellFormed t.name)
    (hcolumns : ∀ c ∈ t.columns, WellFormed c.name) : WellFormed (tableYaml typeText t) := by
  unfold tableYaml
  refine WellFormed.append ((wellFormed_quotedLine _ hname).append (wellFormed_utf8 _)) ?_
  split_ifs
  · exact wellFormed_utf8 _
  · exact (wellFormed_utf8 _).append (wellFormed_flatMap fun c hc => wellFormed_columnYaml htype (hcolumns c hc))

/-- **The document is UTF-8** where the names in it are. -/
theorem wellFormed_sourcesYaml (htype : ∀ type, WellFormed (typeText type)) {catalogName : Bytes}
    (hcatalog : WellFormed catalogName) {tables : List TableMeta} (htables : ∀ t ∈ tables, WellFormed t.name)
    (hcolumns : ∀ t ∈ tables, ∀ c ∈ t.columns, WellFormed c.name) :
    WellFormed (sourcesYaml typeText catalogName tables) := by
  have hhead := ((wellFormed_utf8 "version: 2\n").append (wellFormed_utf8 "\n")).append (wellFormed_utf8 "sources:\n")
  have hsource := (hhead.append (wellFormed_quotedLine "  - name: " hcatalog)).append
    (wellFormed_quotedLine "    schema: " (wellFormed_utf8 "main"))
  unfold sourcesYaml
  refine WellFormed.append ((hsource.append (wellFormed_utf8 _)).append (wellFormed_utf8 _)) ?_
  split_ifs
  · exact wellFormed_utf8 _
  · exact wellFormed_flatMap fun t ht => wellFormed_tableYaml htype (htables t ht) (hcolumns t ht)

end WellFormed

/-- The names of a listed table and of its columns are UTF-8. -/
def NamesWellFormed (t : TableListRow × TableColumns) : Prop :=
  WellFormed t.1.tableName ∧ ∀ name ∈ t.2.names, WellFormed name

/-- **The document denotes the listed tables**, with tests on the single-column keys and nowhere else. It is what
    `BuildSourcesYaml` returns for these tables, and UTF-8 where the names in it are. -/
theorem sourcesYaml_denotes (catalogName : Bytes) :
    (∀ tables : List (TableListRow × TableColumns),
      dbtSources (sourcesYaml typeText catalogName (tables.map fun t => tableMeta t.1 t.2)) =
        some [⟨catalogName, utf8 "main", tables.map fun t => dbtTableOf typeText t.1 t.2⟩]) ∧
    (∀ (server : Metadata) (listed : Except Bytes (List TableListRow)) (noneEncoding : NoneEncoding) (text : Bytes),
      buildSourcesYaml typeText server listed catalogName noneEncoding = .ok text ↔
        ∃ tables : List (TableListRow × TableColumns), listed = .ok (tables.map Prod.fst) ∧
          (∀ t ∈ tables, loadTableSchema server noneEncoding false t.1.tableName = .ok t.2) ∧
          text = sourcesYaml typeText catalogName (tables.map fun t => tableMeta t.1 t.2)) ∧
    ((∀ type, WellFormed (typeText type)) → WellFormed catalogName →
      ∀ tables : List (TableListRow × TableColumns), (∀ t ∈ tables, NamesWellFormed t) →
        WellFormed (sourcesYaml typeText catalogName (tables.map fun t => tableMeta t.1 t.2))) := by
  refine ⟨?_, fun server listed noneEncoding text => buildSourcesYaml_ok_iff typeText, ?_⟩
  · intro tables
    rw [dbtSources_sourcesYaml, dbt_tableMetas]
  · intro htype hcatalog tables hnames
    refine wellFormed_sourcesYaml htype hcatalog ?_ ?_
    · intro metadata hmetadata
      obtain ⟨t, ht, rfl⟩ := List.mem_map.mp hmetadata
      exact (hnames t ht).1
    · intro metadata hmetadata c hc
      obtain ⟨t, ht, rfl⟩ := List.mem_map.mp hmetadata
      obtain ⟨column, hcolumn, rfl⟩ := List.mem_map.mp hc
      exact (hnames t ht).2 column.1 (List.of_mem_zip hcolumn).1

end Document

end FirebirdScan
