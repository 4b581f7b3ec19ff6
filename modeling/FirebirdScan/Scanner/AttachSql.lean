import FirebirdScan.Query.Quoting
import FirebirdScan.Scanner.ScanBind
import Mathlib.Data.List.Forall2

/-!
# `Scanner.AttachSql` — the script of views (`firebird_attach_sql`)

The function lists the relations of a database and returns one statement for each, which creates a view over
`firebird_scan`. The listing connects with the named parameters, the views have the connection string alone.

`denotes_rows` reads the script, and `attachSql_reads_same_iff` says when its views connect as the listing did.
-/

namespace FirebirdScan

open FirebirdConnectionInfo SqlText

/-! ## The function -/

/-- The arguments, as `ToString` writes them. -/
structure AttachInput where
  inputs : List Bytes
  overrides : ConnectionOverrides := {}
  schema : Option Bytes := none
  overwrite : Option Bool := none

structure FirebirdAttachBindData where
  connectionString : Bytes
  connInfo : FirebirdConnectionInfo
  targetSchema : Bytes
  overwrite : Bool

/-- `FirebirdAttachBind`. The schema is a positional argument or a named one, which wins. -/
def firebirdAttachBind (input : AttachInput) : Except ScanBindError FirebirdAttachBindData :=
  match input.inputs with
  | [] => .error (.binder (utf8 "firebird_attach_sql(connection_string [, schema='fb'])"))
  | connectionString :: positional =>
      (parseConnection connectionString).map fun info =>
        { connectionString
          connInfo := input.overrides.apply info
          targetSchema := input.schema.getD (positional.headD (utf8 "fb"))
          overwrite := input.overwrite.getD true }

/-- The relations that are listed. -/
def attachRelationsSql : Bytes :=
  utf8 ("SELECT TRIM(r.RDB$RELATION_NAME)   FROM RDB$RELATIONS r  WHERE r.RDB$SYSTEM_FLAG = 0 " ++
    "  AND (r.RDB$RELATION_TYPE IS NULL OR r.RDB$RELATION_TYPE <> 3)  ORDER BY r.RDB$RELATION_NAME")

def schemaStatement (bind : FirebirdAttachBindData) : Bytes :=
  utf8 "CREATE SCHEMA IF NOT EXISTS " ++ quoteIdent bind.targetSchema ++ utf8 ";"

def viewVerb (overwrite : Bool) : Bytes :=
  if overwrite then utf8 "CREATE OR REPLACE VIEW " else utf8 "CREATE VIEW IF NOT EXISTS "

def viewStatement (bind : FirebirdAttachBindData) (tbl : Bytes) : Bytes :=
  viewVerb bind.overwrite ++ quoteIdent bind.targetSchema ++ utf8 "." ++ quoteIdent tbl ++
    utf8 " AS SELECT * FROM firebird_scan(" ++ scannerSqlLiteral bind.connectionString ++ utf8 ", " ++
    scannerSqlLiteral tbl ++ utf8 ");"

/-- What a connection returns for a query of one text column, or throws. -/
abbrev NameServer := FirebirdConnectionInfo → Bytes → Except Bytes (List Bytes)

/-- `FirebirdAttachInitGlobal`. -/
def firebirdAttachInitGlobal (server : NameServer) (bind : FirebirdAttachBindData) : Except Bytes (List Bytes) := do
  let tables ← server bind.connInfo attachRelationsSql
  .ok (schemaStatement bind :: tables.map (viewStatement bind))

/-- The loop of `FirebirdAttachFunction`, with so many rows left in the chunk. -/
def attachLoop (stmts : List Bytes) : Nat → Nat → List Bytes × Nat
  | 0, cursor => ([], cursor)
  | room + 1, cursor =>
      match stmts[cursor]? with
      | some stmt => (stmt :: (attachLoop stmts room (cursor + 1)).1, (attachLoop stmts room (cursor + 1)).2)
      | none => ([], cursor)

/-- `FirebirdAttachFunction`; a chunk has `STANDARD_VECTOR_SIZE` rows. -/
def firebirdAttachFunction (stmts : List Bytes) (cursor : Nat) : List Bytes × Nat := attachLoop stmts 2048 cursor

/-- The rows of some calls, one after the other. -/
def attachCalls (stmts : List Bytes) : Nat → Nat → List Bytes
  | 0, _ => []
  | calls + 1, cursor =>
      let chunk := firebirdAttachFunction stmts cursor
      chunk.1 ++ attachCalls stmts calls chunk.2

/-- The rows of as many calls as there are statements. -/
def attachRows (stmts : List Bytes) : List Bytes := attachCalls stmts stmts.length 0

/-! ## Every statement is a row -/

theorem attachLoop_eq (stmts : List Bytes) (room cursor : Nat) :
    (attachLoop stmts room cursor).1 = (stmts.drop cursor).take room ∧
      stmts.drop (attachLoop stmts room cursor).2 = stmts.drop (cursor + room) := by
  induction room generalizing cursor with
  | zero => exact ⟨List.take_zero.symm, rfl⟩
  | succ room ih =>
      obtain ⟨hrows, hrest⟩ := ih (cursor + 1)
      rcases hstmt : stmts[cursor]? with _ | stmt
      · have hlen : stmts.length ≤ cursor := List.getElem?_eq_none_iff.mp hstmt
        have hdrop : stmts.drop cursor = [] := List.drop_of_length_le hlen
        have hbeyond : stmts.drop (cursor + (room + 1)) = [] := List.drop_of_length_le (by omega)
        rw [attachLoop, hstmt, hbeyond]
        exact ⟨by rw [hdrop, List.take_nil], hdrop⟩
      · obtain ⟨hlt, hget⟩ := List.getElem?_eq_some_iff.mp hstmt
        rw [attachLoop, hstmt, List.drop_eq_getElem_cons hlt, List.take_succ_cons, hget]
        refine ⟨congrArg (stmt :: ·) hrows, hrest.trans ?_⟩
        rw [Nat.add_right_comm, Nat.add_assoc]

/-- A run returns the statements in order, a chunk for every call. -/
theorem attachCalls_eq (stmts : List Bytes) (calls cursor : Nat) :
    attachCalls stmts calls cursor = (stmts.drop cursor).take (calls * 2048) := by
  induction calls generalizing cursor with
  | zero => rw [Nat.zero_mul, List.take_zero, attachCalls]
  | succ calls ih =>
      obtain ⟨hrows, hrest⟩ := attachLoop_eq stmts 2048 cursor
      rw [attachCalls, ih, firebirdAttachFunction, hrows, hrest, Nat.succ_mul, Nat.add_comm (calls * 2048),
        List.take_add, List.drop_drop]

/-- **Every statement is a row**, once and in its place. -/
theorem attachRows_eq (stmts : List Bytes) : attachRows stmts = stmts := by
  unfold attachRows
  rw [attachCalls_eq, List.drop_zero]
  exact List.take_of_length_le (Nat.le_mul_of_pos_right _ (by omega))

/-! ## Reading the script -/

/-- A view over a call of `firebird_scan` with two strings. -/
structure ViewStatement where
  overwrite : Bool
  schema : Bytes
  name : Bytes
  connectionString : Bytes
  relation : Bytes

/-- The statements of a script. -/
inductive AttachStatement where
  | createSchema (schema : Bytes)
  | createView (view : ViewStatement)

def semicolon : Lexeme := .symbol 0x3B

def viewVerbLexemes (overwrite : Bool) : List Lexeme :=
  if overwrite then [keyword "CREATE", keyword "OR", keyword "REPLACE", keyword "VIEW"]
  else [keyword "CREATE", keyword "VIEW", keyword "IF", keyword "NOT", keyword "EXISTS"]

/-- How SQL writes a statement. -/
def AttachStatement.lexemes : AttachStatement → List Lexeme
  | .createSchema schema =>
      [keyword "CREATE", keyword "SCHEMA", keyword "IF", keyword "NOT", keyword "EXISTS", .ident schema, semicolon]
  | .createView view =>
      viewVerbLexemes view.overwrite ++
        [.ident view.schema, .symbol 0x2E, .ident view.name, keyword "AS", keyword "SELECT", .symbol 0x2A,
          keyword "FROM", keyword "firebird_scan", lparen, .string view.connectionString, comma,
          .string view.relation, rparen, semicolon]

/-- The text is the statement. -/
def Denotes (text : Bytes) (statement : AttachStatement) : Prop := lex text = some statement.lexemes

/-- Statements that are written alike are the same. -/
theorem AttachStatement.lexemes_injective : Function.Injective AttachStatement.lexemes := by
  intro s t h
  -- the second lexeme tells the three forms apart
  rcases s with schema | ⟨_ | _, schema, name, connectionString, relation⟩ <;>
    rcases t with schema' | ⟨_ | _, schema', name', connectionString', relation'⟩ <;>
    cases h <;> rfl

theorem denotes_unique : Relator.RightUnique Denotes := by
  intro text s t hs ht
  exact AttachStatement.lexemes_injective (Option.some.inj (hs.symm.trans ht))

/-- A quoted token in front of a text that begins with a delimiter. -/
theorem lex_quoted_cons (q : Quote) (s : Bytes) {rest : Bytes} {us : List Lexeme} (hrest : lex rest = some us)
    (hapart : Apart rest) : lex (quoted q.byte s ++ rest) = some (q.lexeme s :: us) :=
  lex_append (lex_quoted q s) hrest hapart

theorem denotes_schemaStatement (bind : FirebirdAttachBindData) :
    Denotes (schemaStatement bind) (.createSchema bind.targetSchema) := by
  have hverb : Whole (utf8 "CREATE SCHEMA IF NOT EXISTS ")
      [keyword "CREATE", keyword "SCHEMA", keyword "IF", keyword "NOT", keyword "EXISTS"] := by decide
  have hend : lex (utf8 ";") = some [semicolon] := by decide
  unfold Denotes schemaStatement
  rw [List.append_assoc]
  exact hverb.lex_append (lex_quoted_cons .double bind.targetSchema hend (by decide))

theorem whole_viewVerb (overwrite : Bool) : Whole (viewVerb overwrite) (viewVerbLexemes overwrite) := by
  cases overwrite <;> decide

/-- The view that a relation gets. -/
def viewOf (bind : FirebirdAttachBindData) (tbl : Bytes) : ViewStatement where
  overwrite := bind.overwrite
  schema := bind.targetSchema
  name := tbl
  connectionString := bind.connectionString
  relation := tbl

theorem denotes_viewStatement (bind : FirebirdAttachBindData) (tbl : Bytes) :
    Denotes (viewStatement bind tbl) (.createView (viewOf bind tbl)) := by
  have hdot : Whole (utf8 ".") [.symbol 0x2E] := by decide
  have hcall : Whole (utf8 " AS SELECT * FROM firebird_scan(")
      [keyword "AS", keyword "SELECT", .symbol 0x2A, keyword "FROM", keyword "firebird_scan", lparen] := by decide
  have hcomma : Whole (utf8 ", ") [comma] := by decide
  have hend : lex (utf8 ");") = some [rparen, semicolon] := by decide
  have hrelation := lex_quoted_cons .single tbl hend (by decide)
  have hconnection := lex_quoted_cons .single bind.connectionString (hcomma.lex_append hrelation)
    (Apart.front (by decide) (by decide) _)
  have hname := lex_quoted_cons .double tbl (hcall.lex_append hconnection) (Apart.front (by decide) (by decide) _)
  have hschema := lex_quoted_cons .double bind.targetSchema (hdot.lex_append hname)
    (Apart.front (by decide) (by decide) _)
  have htext := (whole_viewVerb bind.overwrite).lex_append hschema
  unfold Denotes viewStatement scannerSqlLiteral
  rw [pushQuoted_eq, pushQuoted_eq]
  simp only [List.append_assoc] at htext ⊢
  exact htext

/-- The rows of a script, and what they are: the schema, and in order one view for each relation. -/
theorem denotes_rows (bind : FirebirdAttachBindData) (tables : List Bytes) :
    List.Forall₂ Denotes (attachRows (schemaStatement bind :: tables.map (viewStatement bind)))
      (.createSchema bind.targetSchema :: (tables.map (viewOf bind)).map .createView) := by
  rw [attachRows_eq]
  refine .cons (denotes_schemaStatement bind) ?_
  induction tables with
  | nil => exact .nil
  | cons tbl tables ih => exact .cons (denotes_viewStatement bind tbl) ih

/-! ## The connections of the views -/

/-- What the script is for: it creates the schema and, for each relation, one view of its name in the schema, over a
    call for this relation whose bind arrives at the connection of the listing. -/
def ReadsSameDatabase (keepalive : Option Int64) (bind : FirebirdAttachBindData) (tables rows : List Bytes) : Prop :=
  ∃ views : List ViewStatement,
    List.Forall₂ Denotes rows (.createSchema bind.targetSchema :: views.map .createView) ∧
    views.map ViewStatement.name = tables ∧
    ∀ view ∈ views, view.schema = bind.targetSchema ∧ view.relation = view.name ∧
      (firebirdScanBind keepalive [view.connectionString, view.relation] {}).map BoundScan.connInfo = .ok bind.connInfo

/-- The script is what it is; only the connections are in question. -/
theorem readsSameDatabase_iff {keepalive : Option Int64} {bind : FirebirdAttachBindData} {tables : List Bytes} :
    ReadsSameDatabase keepalive bind tables
        (attachRows (schemaStatement bind :: tables.map (viewStatement bind))) ↔
      ∀ tbl ∈ tables, (firebirdScanBind keepalive [bind.connectionString, tbl] {}).map BoundScan.connInfo =
        .ok bind.connInfo := by
  constructor
  · rintro ⟨views, hrows, -, hviews⟩ tbl htbl
    -- a text denotes one statement, so the views are those of the tables
    have hsame := denotes_unique.forall₂ hrows (denotes_rows bind tables)
    have hcreate := (List.cons.inj hsame).2
    have hinj : Function.Injective AttachStatement.createView := fun v w h => AttachStatement.createView.inj h
    obtain rfl : views = tables.map (viewOf bind) := hinj.list_map hcreate
    exact (hviews (viewOf bind tbl) (List.mem_map_of_mem htbl)).2.2
  · intro h
    refine ⟨tables.map (viewOf bind), denotes_rows bind tables, ?_, ?_⟩
    · rw [List.map_map]
      exact List.map_id tables
    · intro view hview
      obtain ⟨tbl, htbl, rfl⟩ := List.mem_map.mp hview
      exact ⟨rfl, rfl, h tbl htbl⟩

/-- The arguments of a bind that does not throw. -/
theorem firebirdAttachBind_ok {input : AttachInput} {bind : FirebirdAttachBindData}
    (h : firebirdAttachBind input = .ok bind) :
    ∃ info, parse bind.connectionString = .ok info ∧ bind.connInfo = input.overrides.apply info := by
  unfold firebirdAttachBind at h
  split at h
  · cases h
  · rename_i connectionString positional _
    rcases hconnection : parseConnection connectionString with e | info
    · rw [hconnection] at h
      cases h
    · rw [hconnection] at h
      cases h
      exact ⟨info, parseConnection_ok_iff.mp hconnection, rfl⟩

/-- A keepalive of zero is none. -/
theorem keepalive_zero_iff {keepalive : Option Int64} :
    ReadableKeepalive keepalive ∧ keepalive.getD 0 = 0 ↔ ∀ secs ∈ keepalive, secs = 0 := by
  rw [getD_eq_self_iff]
  refine and_iff_right_of_imp ?_
  intro h secs hsecs
  rw [h secs hsecs]
  decide

theorem connInfo_eq_iff {overrides : ConnectionOverrides} {info : FirebirdConnectionInfo} {secs : Int64}
    (hinterval : info.dummyPacketIntervalSecs = 0) :
    { info with dummyPacketIntervalSecs := secs } = overrides.apply info ↔ overrides.Redundant info ∧ secs = 0 := by
  rw [← ConnectionOverrides.apply_eq_self_iff]
  constructor
  · intro h
    have hsecs : secs = info.dummyPacketIntervalSecs := congrArg FirebirdConnectionInfo.dummyPacketIntervalSecs h
    subst hsecs
    exact ⟨h.symm, hinterval⟩
  · rintro ⟨happly, rfl⟩
    rw [happly, ← hinterval]

/-- A view connects as the listing did. -/
theorem view_connection_iff {keepalive : Option Int64} {connStr tbl : Bytes} {overrides : ConnectionOverrides}
    {info : FirebirdConnectionInfo} (hparse : parse connStr = .ok info) :
    (firebirdScanBind keepalive [connStr, tbl] {}).map BoundScan.connInfo = .ok (overrides.apply info) ↔
      overrides.Redundant info ∧ ReadableNoneEncoding info ∧ ∀ secs ∈ keepalive, secs = 0 := by
  have hcharset : ReadableCharset {} := fun charset h => nomatch h
  have hbind := @firebirdScanBind_connInfo_iff keepalive connStr tbl {} info (overrides.apply info) hparse
  refine hbind.trans ?_
  show _ ∧ _ ∧ _ ∧ { info with dummyPacketIntervalSecs := keepalive.getD 0 } = overrides.apply info ↔ _
  rw [connInfo_eq_iff (parse_interval hparse), ← keepalive_zero_iff]
  tauto

/-- Had the views the named parameters, they would connect as the listing did. -/
theorem view_with_overrides_iff {keepalive : Option Int64} {connStr tbl : Bytes} {overrides : ConnectionOverrides}
    {info : FirebirdConnectionInfo} (hparse : parse connStr = .ok info) :
    (firebirdScanBind keepalive [connStr, tbl] { overrides }).map BoundScan.connInfo = .ok (overrides.apply info) ↔
      ReadableCharset overrides ∧ ReadableNoneEncoding info ∧ ∀ secs ∈ keepalive, secs = 0 := by
  have hinterval : (overrides.apply info).dummyPacketIntervalSecs = 0 := (parse_interval hparse :)
  have hsame : { overrides.apply info with dummyPacketIntervalSecs := keepalive.getD 0 } = overrides.apply info ↔
      keepalive.getD 0 = 0 := by
    constructor
    · intro h
      exact (congrArg FirebirdConnectionInfo.dummyPacketIntervalSecs h).trans hinterval
    · intro h
      rw [h, ← hinterval]
  rw [firebirdScanBind_connInfo_iff hparse, hsame, ← keepalive_zero_iff]
  tauto

theorem firebirdAttachInitGlobal_ok {server : NameServer} {bind : FirebirdAttachBindData} {tables : List Bytes}
    (hlisted : server bind.connInfo attachRelationsSql = .ok tables) :
    firebirdAttachInitGlobal server bind = .ok (schemaStatement bind :: tables.map (viewStatement bind)) := by
  unfold firebirdAttachInitGlobal
  rw [hlisted]
  rfl

/-- **The views read what was listed**, unless there are none, exactly where the named parameters say what the
    connection string says, its preference for `CHARACTER SET NONE` can be read, and the session of the views has no
    keepalive. -/
theorem attachSql_reads_same_iff {server : NameServer} {input : AttachInput} {bind : FirebirdAttachBindData}
    {info : FirebirdConnectionInfo} {tables : List Bytes} (hbind : firebirdAttachBind input = .ok bind)
    (hparse : parse bind.connectionString = .ok info) (hlisted : server bind.connInfo attachRelationsSql = .ok tables)
    (keepalive : Option Int64) :
    (∃ stmts, firebirdAttachInitGlobal server bind = .ok stmts ∧
        ReadsSameDatabase keepalive bind tables (attachRows stmts)) ↔
      tables = [] ∨ input.overrides.Redundant info ∧ ReadableNoneEncoding info ∧ ∀ secs ∈ keepalive, secs = 0 := by
  obtain ⟨info', hparse', hconnInfo⟩ := firebirdAttachBind_ok hbind
  obtain rfl : info' = info := Except.ok.inj (hparse'.symm.trans hparse)
  have hview (tbl : Bytes) := @view_connection_iff keepalive bind.connectionString tbl input.overrides info' hparse
  have hinit := firebirdAttachInitGlobal_ok hlisted
  constructor
  · rintro ⟨stmts, hstmts, hreads⟩
    obtain rfl := Except.ok.inj (hinit.symm.trans hstmts)
    rw [readsSameDatabase_iff, hconnInfo] at hreads
    rcases tables with _ | ⟨tbl, tables⟩
    · exact .inl rfl
    · exact .inr ((hview tbl).mp (hreads tbl List.mem_cons_self))
  · intro h
    refine ⟨_, hinit, ?_⟩
    rw [readsSameDatabase_iff, hconnInfo]
    intro tbl htbl
    rcases h with rfl | hcondition
    · exact absurd htbl List.not_mem_nil
    · exact (hview tbl).mpr hcondition

/-! ## A user that is named -/

/-- A database with one table. -/
def employeesOnly : NameServer := fun _ _ => .ok [utf8 "EMPLOYEE"]

/-- A call that names its user. -/
def attachAs (user : Bytes) : AttachInput where
  inputs := [utf8 "/erp.fdb"]
  overrides := { user := some user }

/-- What the bind of the call makes of it. -/
def boundAs (user : Bytes) : FirebirdAttachBindData where
  connectionString := utf8 "/erp.fdb"
  connInfo := { database := utf8 "/erp.fdb", user }
  targetSchema := utf8 "fb"
  overwrite := true

theorem parse_erp : parse (utf8 "/erp.fdb") = .ok { database := utf8 "/erp.fdb" } := by
  rfl

theorem attachAs_bound (user : Bytes) : firebirdAttachBind (attachAs user) = .ok (boundAs user) := by
  unfold firebirdAttachBind attachAs
  simp only [parseConnection_ok_iff.mpr parse_erp]
  rfl

theorem employeesOnly_listed (info : FirebirdConnectionInfo) :
    employeesOnly info attachRelationsSql = .ok [utf8 "EMPLOYEE"] := rfl

/-- The user that the connection string has by default may be named. -/
theorem attachSql_reads_same_sysdba :
    ∃ stmts, firebirdAttachInitGlobal employeesOnly (boundAs (utf8 "SYSDBA")) = .ok stmts ∧
      ReadsSameDatabase (some 0) (boundAs (utf8 "SYSDBA")) [utf8 "EMPLOYEE"] (attachRows stmts) := by
  refine (attachSql_reads_same_iff (attachAs_bound (utf8 "SYSDBA")) parse_erp (employeesOnly_listed _)
    (some 0)).mpr (.inr ⟨?_, .inl rfl, ?_⟩)
  · exact ConnectionOverrides.apply_eq_self_iff.mp rfl
  · rintro secs hsecs
    exact (Option.some.inj hsecs).symm

/-- The views of `APP_READONLY` connect as `SYSDBA`. -/
theorem attachSql_forgets_user :
    ∃ stmts, firebirdAttachBind (attachAs (utf8 "APP_READONLY")) = .ok (boundAs (utf8 "APP_READONLY")) ∧
      firebirdAttachInitGlobal employeesOnly (boundAs (utf8 "APP_READONLY")) = .ok stmts ∧
      ¬ReadsSameDatabase (some 0) (boundAs (utf8 "APP_READONLY")) [utf8 "EMPLOYEE"] (attachRows stmts) := by
  refine ⟨_, attachAs_bound _, firebirdAttachInitGlobal_ok (employeesOnly_listed _), ?_⟩
  intro hreads
  have hview := readsSameDatabase_iff.mp hreads (utf8 "EMPLOYEE") List.mem_cons_self
  have hconnection := @view_connection_iff (some 0) _ (utf8 "EMPLOYEE") (attachAs (utf8 "APP_READONLY")).overrides _
    parse_erp
  exact absurd ((hconnection.mp hview).1.user _ rfl) (by decide)

end FirebirdScan
