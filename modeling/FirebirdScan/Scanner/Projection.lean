import FirebirdScan.Client.AppendValue
import FirebirdScan.Scanner.OpenCursor
import FirebirdScan.Scanner.TemporalCompare

/-!
# `Scanner.Projection` — from the columns of a cursor to those of the output (`FirebirdScanFunction`)

Four lists of columns have to agree: the source columns, the column ids the planner asks for, the columns of
the cursor, and the projection the output takes of them. The builder writes one expression for each column id
(`columns_build`), the character sets go back by position (`overrideCharsets_eq`), each cell of a row goes into
the vector at its position (`appendRow_shows`), and the output refers to the vectors.

`scanChunk_aligned` puts them together: what a column of the output shows is the column that was asked for.
-/

namespace FirebirdScan

open SqlText SqlText.Select

/-! ## The server -/

/-- A result column: its descriptor, and its cell in a row of the relation. -/
structure ResultColumn (ρ : Type) where
  desc : FirebirdColumnDesc
  cell : ρ → Fetched desc.sqltype

/-- What `FirebirdAppendValue` makes of the cell in a row. -/
def ResultColumn.append {ρ : Type} (D : FetchApi) (col : ResultColumn ρ) (row : ρ) (type : LogicalType)
    (noneEncoding : NoneEncoding) : Appended :=
  firebirdAppendValue D col.desc (col.cell row) type noneEncoding

/-- `OverrideCharsetId`. -/
def ResultColumn.overrideCharsetId {ρ : Type} (col : ResultColumn ρ) (csId : Int16) : ResultColumn ρ where
  desc := { col.desc with characterSetId := csId }
  cell := col.cell

/-- What the server has for a relation with rows `ρ`: its columns by name, and their texts, which are `NULL`
    where the columns are. -/
structure SelectServer (ρ : Type) where
  column : Bytes → ResultColumn ρ
  castVarchar : Bytes → ResultColumn ρ
  castNull : ResultColumn ρ
  star : List (ResultColumn ρ)
  castVarchar_eq_none : ∀ name row, (castVarchar name).cell row = none ↔ (column name).cell row = none
  castNull_eq_none : ∀ row, castNull.cell row = none

namespace SelectServer

variable {ρ : Type} (S : SelectServer ρ)

/-- The result column of an item: a column, the text of a column, or the `NULL` in the place of a row id. -/
def item (ts : List Lexeme) : Option (ResultColumn ρ) :=
  match ts with
  | [.ident name] => some (S.column name)
  | [_, _, .ident name, _, _, _, _, _, _] =>
      if ts = columnLexemes name true then some (S.castVarchar name) else none
  | [cast, lpar, null, as, type, rpar] =>
      if [cast, lpar, null, as, type, rpar] =
          [keyword "CAST", lparen, keyword "NULL", keyword "AS", keyword "BIGINT", rparen] then
        some S.castNull
      else none
  | _ => none

/-- The result columns of a statement, one for each item in order; `none` is a statement that is refused. -/
def columns (sql : Bytes) : Option (List (ResultColumn ρ)) := do
  let ts ← lex sql
  let select ← Select.parse ts
  if select.items = [[.symbol 0x2A]] then some S.star else select.items.mapM S.item

end SelectServer

/-! ## The source -/

/-- `FirebirdBindData`, with the types of the columns. -/
structure TypedBindData extends ScanBindData where
  columnTypes : List LogicalType

/-- A flat vector: `none` is an element that was set to `NULL`. -/
structure FlatVector where
  type : LogicalType
  data : List (Option Element) := []

namespace TypedBindData

variable {ρ : Type} (bind : TypedBindData)

/-- One round of the loop at the end of `OpenNextPartitionCursor`. -/
def overrideCharset (src : Nat) (col : ResultColumn ρ) : ResultColumn ρ :=
  if src = columnIdentifierRowId then col
  else
    match bind.columnDescs[src]? with
    | none => col
    | some desc => if desc.characterSetId ≥ 0 then col.overrideCharsetId desc.characterSetId else col

/-- The loop: the character set that the catalog knows replaces what the cursor was described with. -/
def overrideCharsets : List Nat → List (ResultColumn ρ) → List (ResultColumn ρ)
  | src :: columnIds, col :: cols => bind.overrideCharset src col :: overrideCharsets columnIds cols
  | _, cols => cols

/-- The columns of a partition's cursor. -/
def cursorColumns (S : SelectServer ρ) (api : DuckdbApi) (columnIds : List Nat)
    (filters : List (Nat × TableFilter)) (spec : PartitionSpec) : Option (List (ResultColumn ρ)) :=
  (S.columns (bind.partitionQuery api columnIds filters spec).sql).map (bind.overrideCharsets columnIds)

/-- The type of the vector for a column id. -/
def fetchType (cid : Nat) : LogicalType :=
  if cid = columnIdentifierRowId then ⟨.bigint, 0, 0⟩ else bind.columnTypes.getD cid ⟨.sqlNull, 0, 0⟩

/-- A cell, at the end of its vector. -/
def appendCell (D : FetchApi) (col : ResultColumn ρ) (row : ρ) (target : FlatVector) :
    Except AppendError FlatVector :=
  match col.append D row target.type bind.noneEncoding with
  | .setNull => .ok { target with data := target.data ++ [none] }
  | .element e => .ok { target with data := target.data ++ [some e] }
  | .throws error => .error error

/-- The loop over the columns of the fetch chunk. -/
def appendRow (D : FetchApi) (row : ρ) :
    List (ResultColumn ρ) → List FlatVector → Except AppendError (List FlatVector)
  | col :: cols, target :: targets => do
      let filled ← bind.appendCell D col row target
      let rest ← appendRow D row cols targets
      return filled :: rest
  | _, targets => .ok targets

/-- What a call of `FirebirdScanFunction` returns for the rows it takes. A row comes with the columns of the
    cursor it was fetched from: a call may go on with the cursor of the next partition. -/
def scanChunk (D : FetchApi) (columnIds projectionIds : List Nat)
    (fetched : List (List (ResultColumn ρ) × ρ)) : Except AppendError (List FlatVector) := do
  let chunk ← fetched.foldlM (fun chunk (cols, row) => bind.appendRow D row cols chunk)
    (columnIds.map fun cid => { type := bind.fetchType cid })
  -- `Reference`, or `ReferenceColumns`
  return if projectionIds = [] then chunk else projectionIds.filterMap (chunk[·]?)

/-! ## What the output is to show -/

/-- A source column as the server delivers it: a `DECFLOAT` column is asked for as text. -/
def sourceColumn (S : SelectServer ρ) (cid : Nat) : ResultColumn ρ :=
  if bind.isDecfloat cid then S.castVarchar (bind.columnNames.getD cid [])
  else S.column (bind.columnNames.getD cid [])

/-- The character set of a source column: the one in the catalog, or the one reported for the cursor where the
    catalog knows none. -/
def charsetId (cid : Nat) (reported : Int16) : Int16 :=
  match bind.columnDescs[cid]? with
  | none => reported
  | some desc => if desc.characterSetId ≥ 0 then desc.characterSetId else reported

/-- A source column, to be decoded with its own character set. -/
def decodedColumn (S : SelectServer ρ) (cid : Nat) : ResultColumn ρ :=
  (bind.sourceColumn S cid).overrideCharsetId (bind.charsetId cid (bind.sourceColumn S cid).desc.characterSetId)

/-- The slot shows the source column in the row: a row id is `NULL`, any other value is decoded, and a `NULL`
    is `NULL`. -/
structure Shows (D : FetchApi) (S : SelectServer ρ) (cid : Nat) (row : ρ) (slot : Option Element) : Prop where
  rowId : cid = columnIdentifierRowId → slot = none
  decoded : cid ≠ columnIdentifierRowId →
    (bind.decodedColumn S cid).append D row (bind.fetchType cid) bind.noneEncoding = slot.elim .setNull .element
  null : (S.column (bind.columnNames.getD cid [])).cell row = none → slot = none

/-- The vector shows the source column: it has the declared type, and an element for each row. -/
structure ShowsColumn (D : FetchApi) (S : SelectServer ρ) (rows : List ρ) (cid : Nat) (v : FlatVector) : Prop where
  type : v.type = bind.fetchType cid
  data : List.Forall₂ (bind.Shows D S cid) rows v.data

/-- The source columns of the output. -/
def selectedIds (columnIds projectionIds : List Nat) : List Nat :=
  if projectionIds = [] then columnIds else projectionIds.map fun p => columnIds.getD p 0

end TypedBindData

/-! ## The columns of the cursor -/

section Columns

variable {ρ : Type} {S : SelectServer ρ} {api : DuckdbApi}

/-- The result column of a column id. -/
def TypedBindData.resultColumn (bind : TypedBindData) (S : SelectServer ρ) (cid : Nat) : ResultColumn ρ :=
  if cid = columnIdentifierRowId then S.castNull else bind.sourceColumn S cid

variable {bind : TypedBindData}

theorem item_columnLexemes (name : Bytes) (decfloat : Bool) :
    S.item (columnLexemes name decfloat) = some (if decfloat then S.castVarchar name else S.column name) := by
  cases decfloat with
  | false => rfl
  | true => exact if_pos rfl

/-- An item is the column it was written for. -/
theorem item_resultColumn (columnIds : List Nat) (spec : PartitionSpec) (cid : Nat) :
    S.item ((bind.buildArgs columnIds spec).item cid) = some (bind.resultColumn S cid) := by
  unfold BuildArgs.item TypedBindData.resultColumn
  split_ifs with hrow
  · rfl
  · exact item_columnLexemes _ _

theorem mapM_eq_map {α β : Type} {f : α → Option β} {g : α → β} (h : ∀ a, f a = some (g a)) (as : List α) :
    as.mapM f = some (as.map g) := by
  induction as with
  | nil => rfl
  | cons a as ih =>
      rw [List.mapM_cons, h, ih]
      rfl

/-- **The columns of the result** are those asked for, in order. -/
theorem columns_build {columnIds : List Nat} (hne : columnIds ≠ []) {filters : List (Nat × TableFilter)}
    {spec : PartitionSpec} {cols : List (ResultColumn ρ)}
    (h : S.columns (build api (bind.buildArgs columnIds spec) filters).sql = some cols) :
    cols = columnIds.map (bind.resultColumn S) := by
  obtain ⟨tail, htext, htail⟩ := build_sql_apart api (bind.buildArgs columnIds spec) filters
  obtain ⟨item, items, hitems, hread, hselect⟩ :=
    BuildArgs.selectClause_fragment (a := bind.buildArgs columnIds spec)
  obtain ⟨ts, hts, hparsed⟩ := Option.bind_eq_some_iff.mp h
  obtain ⟨select, hparse, hcols⟩ := Option.bind_eq_some_iff.mp hparsed
  -- what follows the table does not matter for the items
  rw [htext] at hts
  have hlex := hselect.lexes
  rw [lexemes_inl] at hlex
  obtain ⟨vs, -, rfl⟩ := lex_append_inv hlex htail hts
  simp only [List.cons_append, List.append_assoc, List.nil_append] at hparse
  have hids : (bind.buildArgs columnIds spec).items = columnIds.map (bind.buildArgs columnIds spec).item := if_neg hne
  rw [parse_items_eq hread hparse, ← hitems, hids] at hcols
  have hnostar : columnIds.map (bind.buildArgs columnIds spec).item ≠ [[.symbol 0x2A]] := by
    intro hstar
    have hone : ∃ cid, (bind.buildArgs columnIds spec).item cid = [.symbol 0x2A] := by
      obtain ⟨cid, cids, rfl⟩ := List.exists_cons_of_ne_nil hne
      exact ⟨cid, (List.cons.inj hstar).1⟩
    obtain ⟨cid, hcid⟩ := hone
    have hitem := @item_resultColumn ρ S bind columnIds spec cid
    rw [hcid] at hitem
    cases hitem
  have hmap : (columnIds.map (bind.buildArgs columnIds spec).item).mapM S.item =
      some (columnIds.map (bind.resultColumn S)) := by
    rw [List.mapM_map]
    exact mapM_eq_map (item_resultColumn columnIds spec) columnIds
  rw [if_neg hnostar, hmap] at hcols
  exact (Option.some.inj hcols).symm

/-- The character sets go back to the columns they belong to. -/
theorem overrideCharsets_eq (columnIds : List Nat) (f : Nat → ResultColumn ρ) :
    bind.overrideCharsets columnIds (columnIds.map f) =
      columnIds.map fun cid => bind.overrideCharset cid (f cid) := by
  induction columnIds with
  | nil => rfl
  | cons cid columnIds ih =>
      rw [List.map_cons, TypedBindData.overrideCharsets, ih]
      rfl

theorem cursorColumns_eq {columnIds : List Nat} {filters : List (Nat × TableFilter)}
    {spec : PartitionSpec} {cols : List (ResultColumn ρ)}
    (h : bind.cursorColumns S api columnIds filters spec = some cols) (hne : columnIds ≠ []) :
    cols = columnIds.map fun cid => bind.overrideCharset cid (bind.resultColumn S cid) := by
  obtain ⟨raw, hraw, rfl⟩ := Option.map_eq_some_iff.mp h
  rw [columns_build hne hraw, overrideCharsets_eq]

/-! ## The rows of a call -/

variable {D : FetchApi}

/-- For a source column the override sets the character set that the output is to be decoded with. -/
theorem overrideCharset_eq {cid : Nat} (hrow : cid ≠ columnIdentifierRowId) (col : ResultColumn ρ) :
    bind.overrideCharset cid col = col.overrideCharsetId (bind.charsetId cid col.desc.characterSetId) := by
  unfold TypedBindData.overrideCharset TypedBindData.charsetId
  rw [if_neg hrow]
  cases bind.columnDescs[cid]? with
  | none => rfl
  | some desc =>
      dsimp only
      split_ifs
      · rfl
      · rfl

/-- A source column that is `NULL` is fetched as `NULL`, as text too. -/
theorem sourceColumn_null {cid : Nat} {row : ρ}
    (h : (S.column (bind.columnNames.getD cid [])).cell row = none) : (bind.sourceColumn S cid).cell row = none := by
  by_cases hdec : bind.isDecfloat cid = true
  · have hcol : bind.sourceColumn S cid = S.castVarchar (bind.columnNames.getD cid []) := if_pos hdec
    rw [hcol]
    exact (S.castVarchar_eq_none _ row).mpr h
  · have hcol : bind.sourceColumn S cid = S.column (bind.columnNames.getD cid []) := if_neg hdec
    rw [hcol]
    exact h

/-- The slot that one cell fills. -/
theorem appendCell_shows {cid : Nat} {row : ρ} {target filled : FlatVector} (htype : target.type = bind.fetchType cid)
    (h : bind.appendCell D (bind.overrideCharset cid (bind.resultColumn S cid)) row target = .ok filled) :
    filled.type = bind.fetchType cid ∧ ∃ slot, filled.data = target.data ++ [slot] ∧ bind.Shows D S cid row slot := by
  by_cases hrow : cid = columnIdentifierRowId
  · have hcol : bind.overrideCharset cid (bind.resultColumn S cid) = S.castNull := by
      unfold TypedBindData.overrideCharset TypedBindData.resultColumn
      rw [if_pos hrow, if_pos hrow]
    have happend : S.castNull.append D row target.type bind.noneEncoding = .setNull := by
      rw [ResultColumn.append, S.castNull_eq_none]
      rfl
    rw [hcol, TypedBindData.appendCell, happend] at h
    obtain rfl := Except.ok.inj h
    exact ⟨htype, none, rfl, fun _ => rfl, fun hne => absurd hrow hne, fun _ => rfl⟩
  · have hcol : bind.overrideCharset cid (bind.resultColumn S cid) = bind.decodedColumn S cid := by
      have hsource : bind.resultColumn S cid = bind.sourceColumn S cid := if_neg hrow
      rw [hsource]
      exact overrideCharset_eq hrow _
    rw [hcol, TypedBindData.appendCell, htype] at h
    cases happend : (bind.decodedColumn S cid).append D row (bind.fetchType cid) bind.noneEncoding with
    | throws error =>
        rw [happend] at h
        cases h
    | setNull =>
        rw [happend] at h
        obtain rfl := Except.ok.inj h
        exact ⟨rfl, none, rfl, fun _ => rfl, fun _ => happend, fun _ => rfl⟩
    | element e =>
        rw [happend] at h
        obtain rfl := Except.ok.inj h
        refine ⟨rfl, some e, rfl, fun h' => absurd h' hrow, fun _ => happend, fun hnull => ?_⟩
        -- a `NULL` is not written as an element
        have hsetNull : (bind.decodedColumn S cid).append D row (bind.fetchType cid) bind.noneEncoding = .setNull := by
          have hcell : (bind.decodedColumn S cid).cell row = none := sourceColumn_null hnull
          rw [ResultColumn.append, hcell]
          rfl
        rw [hsetNull] at happend
        cases happend

/-- **A row** adds to each vector a slot that shows the vector's column. -/
theorem appendRow_shows {row : ρ} {done : List ρ} {columnIds : List Nat} {chunk out : List FlatVector}
    (hchunk : List.Forall₂ (bind.ShowsColumn D S done) columnIds chunk)
    (h : bind.appendRow D row (columnIds.map fun cid => bind.overrideCharset cid (bind.resultColumn S cid)) chunk =
      .ok out) :
    List.Forall₂ (bind.ShowsColumn D S (done ++ [row])) columnIds out := by
  induction hchunk generalizing out with
  | nil =>
      obtain rfl := Except.ok.inj h
      exact .nil
  | @cons cid target columnIds targets htarget _ ih =>
      rw [List.map_cons, TypedBindData.appendRow] at h
      cases hcell : bind.appendCell D (bind.overrideCharset cid (bind.resultColumn S cid)) row target with
      | error e =>
          rw [hcell] at h
          cases h
      | ok filled =>
          cases hrest : bind.appendRow D row
              (columnIds.map fun cid => bind.overrideCharset cid (bind.resultColumn S cid)) targets with
          | error e =>
              rw [hcell, hrest] at h
              cases h
          | ok rest =>
              rw [hcell, hrest] at h
              obtain rfl := Except.ok.inj h
              obtain ⟨htype, slot, hdata, hshows⟩ := appendCell_shows htarget.type hcell
              refine .cons ⟨htype, ?_⟩ (ih hrest)
              rw [hdata]
              exact List.rel_append htarget.data (.cons hshows .nil)

/-- Before the first row. -/
theorem emptyChunk_shows (columnIds : List Nat) :
    List.Forall₂ (bind.ShowsColumn D S []) columnIds (columnIds.map fun cid => { type := bind.fetchType cid }) := by
  induction columnIds with
  | nil => exact .nil
  | cons cid columnIds ih => exact .cons ⟨rfl, .nil⟩ ih

/-- Without columns there is nothing to fill. -/
theorem appendRow_nil (row : ρ) (cols : List (ResultColumn ρ)) : bind.appendRow D row cols [] = .ok [] := by
  cases cols <;> rfl

/-- **The rows of a call**, from the cursors of one partition after the other. -/
theorem foldlM_appendRow_shows {columnIds : List Nat} {filters : List (Nat × TableFilter)}
    {fetched : List (List (ResultColumn ρ) × ρ)}
    (hfetched : ∀ r ∈ fetched, ∃ spec, bind.cursorColumns S api columnIds filters spec = some r.1) {done : List ρ}
    {chunk out : List FlatVector} (hchunk : List.Forall₂ (bind.ShowsColumn D S done) columnIds chunk)
    (h : fetched.foldlM (fun chunk (cols, row) => bind.appendRow D row cols chunk) chunk = .ok out) :
    List.Forall₂ (bind.ShowsColumn D S (done ++ fetched.map Prod.snd)) columnIds out := by
  induction fetched generalizing done chunk with
  | nil =>
      obtain rfl := Except.ok.inj h
      rw [List.map_nil, List.append_nil]
      exact hchunk
  | cons r fetched ih =>
      obtain ⟨cols, row⟩ := r
      rw [List.foldlM_cons] at h
      cases hrow : bind.appendRow D row cols chunk with
      | error e =>
          simp only [hrow] at h
          cases h
      | ok next =>
          simp only [hrow] at h
          have hnext : List.Forall₂ (bind.ShowsColumn D S (done ++ [row])) columnIds next := by
            by_cases hne : columnIds = []
            · subst hne
              cases hchunk
              rw [appendRow_nil] at hrow
              obtain rfl := Except.ok.inj hrow
              exact .nil
            · obtain ⟨spec, hspec⟩ := hfetched (cols, row) List.mem_cons_self
              have hcols : cols = _ := cursorColumns_eq hspec hne
              rw [hcols] at hrow
              exact appendRow_shows hchunk hrow
          have hall := ih (fun r' hr' => hfetched r' (List.mem_cons_of_mem _ hr')) hnext h
          rw [List.append_assoc] at hall
          exact hall

end Columns

/-! ## The output -/

/-- The vectors at valid positions show what is at these positions. -/
theorem forall₂_select {α β : Type} {R : α → β → Prop} {as : List α} {bs : List β} (h : List.Forall₂ R as bs)
    (d : α) (positions : List Nat) (hpos : ∀ p ∈ positions, p < as.length) :
    List.Forall₂ R (positions.map fun p => as.getD p d) (positions.filterMap (bs[·]?)) := by
  induction positions with
  | nil => exact .nil
  | cons p positions ih =>
      have hlt := hpos p List.mem_cons_self
      have hlt' : p < bs.length := h.length_eq ▸ hlt
      have hget : bs[p]? = some bs[p] := List.getElem?_eq_getElem hlt'
      have hgetD : as.getD p d = as[p] := by
        rw [List.getD_eq_getElem?_getD, List.getElem?_eq_getElem hlt, Option.getD_some]
      rw [List.map_cons, List.filterMap_cons_some hget, hgetD]
      exact .cons (h.get hlt hlt') (ih fun q hq => hpos q (List.mem_cons_of_mem _ hq))

/-- **Every column of the output shows the source column that was asked for.** Whatever column ids the planner
    asks for, and whatever positions of them the output takes: the output has one vector for each, of the
    declared type, and the vector has an element for each row, decoded with the character set of its source
    column; a row id and a `NULL` are `NULL`. -/
theorem scanChunk_aligned {ρ : Type} (S : SelectServer ρ) (D : FetchApi) (api : DuckdbApi) (bind : TypedBindData)
    (columnIds projectionIds : List Nat) (filters : List (Nat × TableFilter))
    (hpositions : ∀ p ∈ projectionIds, p < columnIds.length) (fetched : List (List (ResultColumn ρ) × ρ))
    (hfetched : ∀ r ∈ fetched, ∃ spec, bind.cursorColumns S api columnIds filters spec = some r.1)
    {out : List FlatVector} (h : bind.scanChunk D columnIds projectionIds fetched = .ok out) :
    List.Forall₂ (bind.ShowsColumn D S (fetched.map Prod.snd)) (TypedBindData.selectedIds columnIds projectionIds) out := by
  unfold TypedBindData.scanChunk at h
  cases hchunk : fetched.foldlM (fun chunk (cols, row) => bind.appendRow D row cols chunk)
      (columnIds.map fun cid => { type := bind.fetchType cid }) with
  | error e =>
      rw [hchunk] at h
      cases h
  | ok chunk =>
      rw [hchunk] at h
      obtain rfl := Except.ok.inj h
      have hall := foldlM_appendRow_shows hfetched (emptyChunk_shows columnIds) hchunk
      rw [List.nil_append] at hall
      unfold TypedBindData.selectedIds
      by_cases hproj : projectionIds = []
      · rw [if_pos hproj, if_pos hproj]
        exact hall
      · rw [if_neg hproj, if_neg hproj]
        exact forall₂_select hall 0 projectionIds hpositions

/-- A table with a number and a text of `CHARACTER SET NONE`. -/
def personData : TypedBindData where
  columnNames := [utf8 "ID", utf8 "CITY"]
  columnDescs := [{ name := utf8 "ID", sqltype := .long },
    { name := utf8 "CITY", sqltype := .varying, characterSetId := 0 }]
  tableName := utf8 "PERSON"
  columnTypes := [⟨.integer, 0, 0⟩, ⟨.varchar, 0, 0⟩]

/-- Its one row; the cursor is described with another character set. -/
def personServer : SelectServer Unit where
  column name :=
    if name = utf8 "ID" then
      { desc := { name, sqltype := .long }, cell := fun _ => some (.long 7) }
    else { desc := { name, sqltype := .varying, characterSetId := 4 }, cell := fun _ => some (.varying 1 [0xE9]) }
  castVarchar name :=
    { desc := { name, sqltype := .varying, characterSetId := 4 }, cell := fun _ => some (.varying 1 [0x37]) }
  castNull := { desc := { name := [], sqltype := .int64 }, cell := fun _ => none }
  star := []
  castVarchar_eq_none name row := by
    refine iff_of_false nofun ?_
    by_cases h : name = utf8 "ID"
    · rw [if_pos h]
      exact nofun
    · rw [if_neg h]
      exact nofun
  castNull_eq_none _ := rfl

/-- The columns of the cursor, for the city, a row id, and the number. -/
def personColumns : List (ResultColumn Unit) :=
  (personData.cursorColumns personServer .v1_5 [1, columnIdentifierRowId, 0] [] {}).getD []

/-- The number and the city of the one row, in an output that leaves out the row id. -/
theorem scanChunk_aligned_person :
    List.Forall₂ (personData.ShowsColumn plainFetchApi personServer [()]) [0, 1]
      [⟨⟨.integer, 0, 0⟩, [some (.int32 7)]⟩, ⟨⟨.varchar, 0, 0⟩, [some (.string (utf8 "é"))]⟩] :=
  scanChunk_aligned personServer plainFetchApi .v1_5 personData [1, columnIdentifierRowId, 0] [2, 0] [] (by decide)
    [(personColumns, ())]
    (fun r hr => ⟨{}, by obtain rfl := List.mem_singleton.mp hr; rfl⟩) (by rfl)

end FirebirdScan
