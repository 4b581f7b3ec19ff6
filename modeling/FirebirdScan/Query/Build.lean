import FirebirdScan.Query.Faithful
import Mathlib.Data.List.Infix

/-!
# `Query.Build` — the `SELECT` statement of a scan, and the filters it leaves out

`FirebirdQueryBuilder::Build` turns each filter DuckDB hands over into a condition of the `WHERE` clause, or
records it as residual. A residual filter on a column the planner was told it may push is applied by nobody.

- `filterStep` is one round of the filter loop. `pushable` describes the shapes and constants the translators
  take (`translateFilter_isSome`), so `Translatable` says which filters a round does not leave residual.
- `build_no_filter_lost` puts the rounds together: nothing is residual exactly when every filter is
  translatable, and then the `WHERE` clause is read as a condition that holds on exactly the rows on which
  every filter holds, as long as no filter contains a cast.
-/

namespace FirebirdScan

open SearchCondition

/-! ## The builder -/

/-- `COLUMN_IDENTIFIER_ROW_ID`. -/
def columnIdentifierRowId : Nat := 2 ^ 64 - 1

/-- The arguments of `Build`. The types of the columns are not read. -/
structure BuildArgs where
  tableName : Bytes
  allColumnNames : List Bytes
  columnIds : List Nat
  limit : Option UInt64 := none
  extraPredicate : Bytes := []
  columnDescs : Option (List FirebirdColumnDesc) := none
  noneEncoding : NoneEncoding := .win1252
  offset : Option UInt64 := none
  paginationOrderBy : Bytes := []

/-- `FirebirdQueryBuilder::Result`. -/
structure BuildResult where
  sql : Bytes
  residualFilterIndices : List Nat
  residualFilterReasons : List String
  params : List Value
  pushedFilterSql : List Bytes

/-- `IsNoneTextColumnGated`. -/
def isNoneTextColumnGated (desc : FirebirdColumnDesc) (mode : NoneEncoding) : Bool :=
  if mode = .strict then false else desc.isNoneText

/-- `FirebirdScanSupportsPushdownType`, over the bind data it reads. -/
def firebirdScanSupportsPushdownType (columnDescs : List FirebirdColumnDesc) (noneEncoding : NoneEncoding)
    (colIdx : Nat) : Bool :=
  match columnDescs[colIdx]? with
  | none => true
  | some desc => if noneEncoding = .strict then true else !desc.isNoneText

namespace BuildArgs

variable (a : BuildArgs)

/-- `(*column_descs)[cid]`, under the test that guards it. -/
def desc (cid : Nat) : Option FirebirdColumnDesc := a.columnDescs.bind (·[cid]?)

/-- The expression for a source column, in the projection and in the filters alike. The caller passes
    column ids within `allColumnNames`. -/
def columnText (cid : Nat) : Bytes :=
  columnSql (a.allColumnNames.getD cid []) ((a.desc cid).any fun d => isDecfloatType d.sqltype)

/-- One entry of the `SELECT` list. -/
def projection (cid : Nat) : Bytes :=
  if cid = columnIdentifierRowId then utf8 "CAST(NULL AS BIGINT)" else a.columnText cid

def selectClause : Bytes :=
  utf8 "SELECT " ++
    (if a.columnIds = [] then utf8 "*" else (utf8 ", ").intercalate (a.columnIds.map a.projection)) ++
    utf8 " FROM " ++ quoteIdent a.tableName

/-- The source column of a filter, or the reason it has none. -/
def sourceColumn (projectedCol : Nat) : Except String Nat :=
  match a.columnIds[projectedCol]? with
  | none => .error "UNSUPPORTED_PROJECTION_MAPPING"
  | some sourceCol =>
      if sourceCol = columnIdentifierRowId ∨ sourceCol ≥ a.allColumnNames.length then
        .error "ROWID_OR_INVALID_COLUMN"
      else .ok sourceCol

/-- What the filter loop makes of one filter: a fragment with the extended parameters, or the reason the
    filter is residual. -/
def pushFilter (api : DuckdbApi) (params : List Value) (entry : Nat × TableFilter) :
    Except String (Bytes × List Value) :=
  match a.sourceColumn entry.1 with
  | .error reason => .error reason
  | .ok sourceCol =>
      if (a.desc sourceCol).any fun d => isNoneTextColumnGated d a.noneEncoding then
        .error "NONE_CHARSET"
      else
        match translateFilter api (a.columnText sourceCol) entry.2 params with
        | none => .error "UNSUPPORTED_OP"
        | some r => .ok r

end BuildArgs

/-- The variables of the filter loop. -/
structure FilterLoop where
  filterIdx : Nat := 0
  conds : List Bytes := []
  residualFilterIndices : List Nat := []
  residualFilterReasons : List String := []
  params : List Value := []
  pushedFilterSql : List Bytes := []

/-- One round of the filter loop; a residual filter leaves the parameters as they were. -/
def filterStep (api : DuckdbApi) (a : BuildArgs) (st : FilterLoop) (entry : Nat × TableFilter) :
    FilterLoop :=
  match a.pushFilter api st.params entry with
  | .error reason =>
      { st with
        filterIdx := st.filterIdx + 1
        residualFilterIndices := st.residualFilterIndices ++ [st.filterIdx]
        residualFilterReasons := st.residualFilterReasons ++ [reason] }
  | .ok (frag, params) =>
      { st with
        filterIdx := st.filterIdx + 1
        conds := st.conds ++ [utf8 "(" ++ frag ++ utf8 ")"]
        params := params
        pushedFilterSql := st.pushedFilterSql ++ [frag] }

/-- ` WHERE (c₁) AND (c₂) …`. -/
def whereClause (conds : List Bytes) : Bytes :=
  if conds = [] then [] else utf8 " WHERE " ++ (utf8 " AND ").intercalate conds

/-- The partition predicate. Whether a `WHERE` is there already is decided by searching the text. -/
def partitionClause (sql extraPredicate : Bytes) : Bytes :=
  if extraPredicate = [] then []
  else
    (if utf8 " WHERE " <:+: sql then utf8 " AND " else utf8 " WHERE ") ++
      utf8 "(" ++ extraPredicate ++ utf8 ")"

/-- The digits of an `idx_t` written to the stream. -/
def idxText (n : UInt64) : Bytes := utf8 (toString n.toNat)

/-- `ORDER BY … ROWS …`. -/
def rowsClause (a : BuildArgs) : Bytes :=
  match a.limit with
  | none => []
  | some limit =>
      utf8 " ORDER BY " ++ a.paginationOrderBy ++
        match a.offset with
        | some offset => utf8 " ROWS " ++ idxText (offset + 1) ++ utf8 " TO " ++ idxText (offset + limit)
        | none => utf8 " ROWS " ++ idxText limit

/-- `FirebirdQueryBuilder::Build`. -/
def build (api : DuckdbApi) (a : BuildArgs) (filters : List (Nat × TableFilter)) : BuildResult :=
  let loop := filters.foldl (filterStep api a) {}
  let sql := a.selectClause ++ whereClause loop.conds
  { sql := sql ++ partitionClause sql a.extraPredicate ++ rowsClause a
    residualFilterIndices := loop.residualFilterIndices
    residualFilterReasons := loop.residualFilterReasons
    params := loop.params
    pushedFilterSql := loop.pushedFilterSql }

/-! ## The filters the translators take -/

/-- A constant that can be bound or inlined. -/
def constantPushable (v : Value) : Bool := isBindableType v.type || (safeLiteralInline v).isSome

/-- A constant an `IN` list of a bound expression may hold. -/
def listItemPushable (e : Expression) : Bool :=
  (tryGetConstant e).any fun v => !v.isNull && constantPushable v

mutual
/-- The bound expressions with a translation: a comparison between the column and a non-`NULL` constant, an
    `IN` list of at least one, a `NULL` test of the column, and nonempty `AND`s and `OR`s of these. -/
def Expression.pushable : Expression → Bool
  | .boundComparison type left right =>
      (isColumnSubject left != isColumnSubject right) && (compareOf type).isSome &&
        listItemPushable (if isColumnSubject left then right else left)
  | .boundOperator .compareIn (subject :: item :: items) =>
      isColumnSubject subject && (item :: items).all listItemPushable
  | .boundOperator .operatorIsNull [child] => isColumnSubject child
  | .boundOperator .operatorIsNotNull [child] => isColumnSubject child
  | .boundConjunction type children =>
      (connectiveOf type).isSome && !children.isEmpty && Expression.allPushable children
  | _ => false

def Expression.allPushable : List Expression → Bool
  | [] => true
  | e :: es => e.pushable && Expression.allPushable es
end

mutual
/-- The filters with a translation. -/
def TableFilter.pushable (api : DuckdbApi) : TableFilter → Bool
  | .constantComparison type constant => (compareOf type).isSome && constantPushable constant
  | .isNull => true
  | .isNotNull => true
  | .conjunctionAnd fs => !fs.isEmpty && TableFilter.allPushable api fs
  | .conjunctionOr fs => !fs.isEmpty && TableFilter.allPushable api fs
  | .inFilter values => values.all constantPushable
  | .optionalFilter (some f) => f.pushable api
  | .expressionFilter (some e) => (api = .v2_0) && e.pushable
  | _ => false

def TableFilter.allPushable (api : DuckdbApi) : List TableFilter → Bool
  | [] => true
  | f :: fs => f.pushable api && TableFilter.allPushable api fs
end

section Pushable

variable {columnName : Bytes}

theorem comparisonToSql_isSome (type : ExpressionType) :
    (comparisonToSql type).isSome = (compareOf type).isSome := by
  cases type <;> rfl

theorem compareOf_flip_isSome (type : ExpressionType) :
    (compareOf (flipComparisonExpression type)).isSome = (compareOf type).isSome := by
  cases type <;> rfl

theorem emitComparison_isSome (op : Bytes) (c : Value) (params : List Value) :
    (emitComparison columnName op c params).isSome = constantPushable c := by
  unfold emitComparison constantPushable
  cases isBindableType c.type <;> simp

theorem emitInItems_isSome (vs : List Value) :
    ∀ (first : Bool) (acc : Bytes) (params : List Value),
      (emitInItems first acc vs params).isSome = vs.all constantPushable := by
  induction vs with
  | nil => intro first acc params; rfl
  | cons v vs ih =>
      intro first acc params
      rw [List.all_cons, constantPushable]
      cases hb : isBindableType v.type with
      | true => simp [emitInItems, hb, ih]
      | false =>
          cases hl : safeLiteralInline v with
          | none => simp [emitInItems, hb, hl]
          | some lit => simp [emitInItems, hb, hl, ih]

theorem emitInList_isSome (vs params : List Value) :
    (emitInList columnName vs params).isSome = vs.all constantPushable := by
  cases vs with
  | nil => rfl
  | cons v vs => simp [emitInList, emitInItems_isSome]

/-- The conjunction loop succeeds when every child does. -/
theorem conjoin_isSome {α : Type} {translate : α → List Value → Option (Bytes × List Value)}
    {ok : α → Bool} (sep : Bytes) {children : List α}
    (hchild : ∀ c ∈ children, ∀ params, (translate c params).isSome = ok c) :
    ∀ acc params, (conjoin translate sep acc children params).isSome = children.all ok := by
  induction children with
  | nil => intro acc params; rfl
  | cons c cs ih =>
      intro acc params
      have hc := hchild c (by simp) params
      rw [List.all_cons, conjoin]
      cases hpart : translate c params with
      | none => simp [← hc, hpart]
      | some r => simp [← hc, hpart, ih (fun d hd => hchild d (by simp [hd]))]

theorem conjoin_ne_nil {α : Type} {translate : α → List Value → Option (Bytes × List Value)} {sep : Bytes}
    {children : List α} {acc out : Bytes} {params params' : List Value} (hacc : acc ≠ [])
    (h : conjoin translate sep acc children params = some (out, params')) : out ≠ [] := by
  induction children generalizing acc params with
  | nil =>
      obtain ⟨rfl, -⟩ := Prod.mk.inj (Option.some.inj h)
      exact hacc
  | cons c cs ih =>
      cases hpart : translate c params with
      | none => simp [conjoin, hpart] at h
      | some r =>
          rw [conjoin, hpart] at h
          exact ih (appendPart_ne_nil _ _ _) h

/-- A conjunction is translated when it has children and every one of them is. -/
theorem conjunction_isSome {α : Type} {translate : α → List Value → Option (Bytes × List Value)}
    {ok : α → Bool} {sep : Bytes} {children : List α}
    (hchild : ∀ c ∈ children, ∀ params, (translate c params).isSome = ok c) (params : List Value) :
    ((conjoin translate sep [] children params).bind nonemptyFragment).isSome =
      (!children.isEmpty && children.all ok) := by
  cases children with
  | nil => rfl
  | cons c cs =>
      have hsome := conjoin_isSome sep hchild [] params
      cases hloop : conjoin translate sep [] (c :: cs) params with
      | none => simp [← hsome, hloop]
      | some r =>
          obtain ⟨out, ps⟩ := r
          have hne : out ≠ [] := by
            rw [conjoin] at hloop
            cases hpart : translate c params with
            | none => simp [hpart] at hloop
            | some r =>
                rw [hpart] at hloop
                exact conjoin_ne_nil (appendPart_ne_nil _ _ _) hloop
          simp [← hsome, hloop, nonemptyFragment, hne]

theorem allPushable_eq (es : List Expression) :
    Expression.allPushable es = es.all Expression.pushable := by
  induction es with
  | nil => rfl
  | cons e es ih => simp [Expression.allPushable, ih]

theorem allPushable_filters_eq (api : DuckdbApi) (fs : List TableFilter) :
    TableFilter.allPushable api fs = fs.all (TableFilter.pushable api) := by
  induction fs with
  | nil => rfl
  | cons f fs ih => simp [TableFilter.allPushable, ih]

theorem translateComparison_isSome (type : ExpressionType) (left right : Expression)
    (params : List Value) :
    (translateComparison columnName type left right params).isSome =
      (Expression.boundComparison type left right).pushable := by
  have hflip : (comparisonToSql
      (if isColumnSubject left then type else flipComparisonExpression type)).isSome =
        (compareOf type).isSome := by
    rw [comparisonToSql_isSome]
    split_ifs
    · rfl
    · exact compareOf_flip_isSome type
  simp only [translateComparison, Expression.pushable, listItemPushable, ← hflip]
  by_cases hsides : isColumnSubject left = isColumnSubject right
  · simp [hsides]
  rw [if_neg hsides]
  cases hc : tryGetConstant (if isColumnSubject left then right else left) with
  | none => simp
  | some c =>
      cases hop : comparisonToSql
          (if isColumnSubject left then type else flipComparisonExpression type) with
      | none => simp
      | some op =>
          cases hn : c.isNull with
          | true => simp [hn]
          | false => simp [hn, emitComparison_isSome, hsides]

theorem inListValues_all (es : List Expression) :
    ((inListValues es).any fun vs => vs.all constantPushable) = es.all listItemPushable := by
  induction es with
  | nil => rfl
  | cons e es ih =>
      rw [List.all_cons, ← ih, listItemPushable, inListValues]
      cases hc : tryGetConstant e with
      | none => rfl
      | some v =>
          cases hn : v.isNull with
          | true => simp [hn]
          | false => cases hes : inListValues es <;> simp [hn]

theorem translateInList_isSome (children : List Expression) (params : List Value) :
    (translateInList columnName children params).isSome =
      (Expression.boundOperator .compareIn children).pushable := by
  rcases children with _ | ⟨subject, _ | ⟨item, items⟩⟩
  · rfl
  · rfl
  · rw [translateInList, Expression.pushable, ← inListValues_all]
    cases isColumnSubject subject with
    | false => rfl
    | true => cases inListValues (item :: items) <;> simp [emitInList_isSome]

/-- **Which bound expressions are translated**: the pushable ones, whatever the column's text and the
    parameters collected so far. -/
theorem translateFilterExpression_isSome (e : Expression) :
    ∀ params, (translateFilterExpression columnName e params).isSome = e.pushable := by
  induction e using Expression.tree_induction with
  | boundComparison type left right =>
      intro params
      exact translateComparison_isSome type left right params
  | boundOperator type children =>
      intro params
      cases type with
      | compareIn => exact translateInList_isSome children params
      | operatorIsNull =>
          rcases children with _ | ⟨c, _ | _⟩
          · rfl
          · cases h : isColumnSubject c <;> simp [translateFilterExpression, Expression.pushable, h]
          · rfl
      | operatorIsNotNull =>
          rcases children with _ | ⟨c, _ | _⟩
          · rfl
          · cases h : isColumnSubject c <;> simp [translateFilterExpression, Expression.pushable, h]
          · rfl
      | _ => rfl
  | boundConjunction type children ih =>
      intro params
      rw [Expression.pushable, allPushable_eq, translateFilterExpression]
      cases hsep : conjunctionSeparator type with
      | none =>
          have hk : connectiveOf type = none := by cases type <;> first | rfl | cases hsep
          simp [hk]
      | some sep =>
          have hk : (connectiveOf type).isSome = true := by cases type <;> first | rfl | cases hsep
          simp only [translateExpressions_eq_conjoin, conjunction_isSome ih, hk, Bool.true_and]
  | _ =>
      intro params
      rfl

variable (columnName) in
/-- **Which filters are translated**: the pushable ones. -/
theorem translateFilter_isSome (api : DuckdbApi) (f : TableFilter) :
    ∀ params, (translateFilter api columnName f params).isSome = f.pushable api := by
  induction f using TableFilter.tree_induction with
  | constantComparison type c =>
      intro params
      rw [TableFilter.pushable, ← comparisonToSql_isSome, translateFilter]
      cases comparisonToSql type <;> simp [emitComparison_isSome]
  | conjunctionAnd fs ih =>
      intro params
      rw [TableFilter.pushable, allPushable_filters_eq, translateFilter, translateFilters_eq_conjoin,
        conjunction_isSome ih]
  | conjunctionOr fs ih =>
      intro params
      rw [TableFilter.pushable, allPushable_filters_eq, translateFilter, translateFilters_eq_conjoin,
        conjunction_isSome ih]
  | inFilter values =>
      intro params
      exact emitInList_isSome values params
  | optionalSome f ih =>
      intro params
      exact ih params
  | expressionFilter e =>
      intro params
      cases e with
      | none => simp [translateFilter, TableFilter.pushable]
      | some e =>
          cases api with
          | v1_5 => rfl
          | v2_0 => simp [translateFilter, TableFilter.pushable, translateFilterExpression_isSome]
  | _ =>
      intro params
      rfl

end Pushable

/-! ## The filter loop -/

section Loop

variable {api : DuckdbApi} {a : BuildArgs}

/-- The filter has a source column, and a shape with a translation. -/
def Translatable (api : DuckdbApi) (a : BuildArgs) (entry : Nat × TableFilter) : Prop :=
  (∃ src, a.sourceColumn entry.1 = .ok src) ∧ entry.2.pushable api = true

/-- The column of the filter is one the planner is told it may push. -/
def Supported (a : BuildArgs) (entry : Nat × TableFilter) : Prop :=
  ∀ src, a.columnIds[entry.1]? = some src →
    firebirdScanSupportsPushdownType (a.columnDescs.getD []) a.noneEncoding src = true

/-- The builder gates exactly the columns the planner is told not to push. -/
theorem gated_eq_not_supported (src : Nat) :
    ((a.desc src).any fun d => isNoneTextColumnGated d a.noneEncoding) =
      !firebirdScanSupportsPushdownType (a.columnDescs.getD []) a.noneEncoding src := by
  unfold BuildArgs.desc firebirdScanSupportsPushdownType isNoneTextColumnGated
  cases a.columnDescs with
  | none => simp
  | some descs =>
      simp only [Option.bind_some, Option.getD_some]
      cases descs[src]? with
      | none => rfl
      | some d => by_cases h : a.noneEncoding = .strict <;> simp [h]

theorem sourceColumn_ok {projectedCol src : Nat} (h : a.sourceColumn projectedCol = .ok src) :
    a.columnIds[projectedCol]? = some src := by
  unfold BuildArgs.sourceColumn at h
  cases hid : a.columnIds[projectedCol]? with
  | none => simp [hid] at h
  | some cid =>
      simp only [hid] at h
      split_ifs at h with hrow
      rw [Except.ok.inj h]

variable (api) in
/-- On a supported column the loop's answer depends on the filter alone. -/
theorem pushFilter_ok_iff {entry : Nat × TableFilter} (hsup : Supported a entry) (params : List Value) :
    (∃ r, a.pushFilter api params entry = .ok r) ↔ Translatable api a entry := by
  unfold BuildArgs.pushFilter Translatable
  cases hsrc : a.sourceColumn entry.1 with
  | error reason => simp
  | ok src =>
      have hopen := gated_eq_not_supported (a := a) src
      rw [hsup src (sourceColumn_ok hsrc), Bool.not_true] at hopen
      have hsome := translateFilter_isSome (a.columnText src) api entry.2 params
      simp only [hopen, Bool.false_eq_true, if_false, ← hsome]
      cases translateFilter api (a.columnText src) entry.2 params <;> simp

/-- One round leaves a filter residual exactly when the filter is not translatable. -/
theorem filterStep_residual {entry : Nat × TableFilter} (hsup : Supported a entry) (st : FilterLoop) :
    (filterStep api a st entry).residualFilterIndices = [] ↔
      st.residualFilterIndices = [] ∧ Translatable api a entry := by
  rw [← pushFilter_ok_iff api hsup st.params, filterStep]
  cases a.pushFilter api st.params entry <;> simp

variable (api) in
theorem foldl_filterStep_residual {filters : List (Nat × TableFilter)}
    (hsup : ∀ entry ∈ filters, Supported a entry) (st : FilterLoop) :
    (filters.foldl (filterStep api a) st).residualFilterIndices = [] ↔
      st.residualFilterIndices = [] ∧ ∀ entry ∈ filters, Translatable api a entry := by
  induction filters generalizing st with
  | nil => simp
  | cons entry filters ih =>
      rw [List.foldl_cons, ih (fun e he => hsup e (by simp [he])),
        filterStep_residual (hsup entry (by simp)), and_assoc, List.forall_mem_cons]

/-! ## The rows -/

variable {S : Server} {D : DuckDb}

/-- The row passes the filter. -/
def Passes (D : DuckDb) (a : BuildArgs) (row : Nat → Value) (entry : Nat × TableFilter) : Prop :=
  ∀ src, a.columnIds[entry.1]? = some src → D.filter (row src) entry.2 = .true

/-- On this row the server and DuckDB compare the filter's column with its constants alike. -/
def AgreesOn (S : Server) (D : DuckDb) (a : BuildArgs) (row : Nat → Value) (entry : Nat × TableFilter) :
    Prop :=
  ∀ src, a.columnIds[entry.1]? = some src → AgreesAt S D (row src) entry.2.constants

/-- A translatable filter adds one condition, and that condition is true on the rows that pass. -/
theorem filterStep_translatable {entry : Nat × TableFilter} (hsup : Supported a entry)
    (htr : Translatable api a entry) (hcast : entry.2.castFree = true) (st : FilterLoop) :
    ∃ lexemes added t,
      (filterStep api a st entry).conds = st.conds ++ [render a.columnText lexemes] ∧
      (filterStep api a st entry).params = st.params ++ added ∧
      Says S.algebra .primary lexemes added t ∧
      ∀ row, AgreesOn S D a row entry → (t row = .true ↔ Passes D a row entry) := by
  obtain ⟨⟨frag, params'⟩, hpush⟩ := (pushFilter_ok_iff api hsup st.params).mpr htr
  obtain ⟨⟨src, hsrc⟩, -⟩ := htr
  have htrans : translateFilter api (a.columnText src) entry.2 st.params = some (frag, params') := by
    simp only [BuildArgs.pushFilter, hsrc] at hpush
    split_ifs at hpush
    cases h : translateFilter api (a.columnText src) entry.2 st.params with
    | none => simp [h] at hpush
    | some r => simpa [h] using hpush
  obtain ⟨lexemes, added, t, rfl, rfl, hs, ht⟩ := translateFilter_renders (S := S) (D := D) entry.2 htrans
  -- the loop puts the fragment in parentheses, which makes any phrase an operand of `AND`
  refine ⟨_, added, t, ?_, ?_, hs.paren, fun row hagree => ?_⟩
  · simp [filterStep, hpush, tokenText]
  · simp [filterStep, hpush]
  · have hid := sourceColumn_ok hsrc
    have hrow : t row = D.ignoringCasts.filter (row src) entry.2 := ht row (hagree src hid)
    rw [hrow, filter_castFree _ _ hcast]
    constructor
    · intro hpass src' hsrc'
      rwa [← Option.some.inj (hid.symm.trans hsrc')]
    · intro hpass
      exact hpass src hid

/-- The conditions of a nonempty filter list, joined by `AND`, are a condition that is true on the rows that
    pass every filter. -/
theorem foldl_filterStep_where {filters : List (Nat × TableFilter)} :
    ∀ (entry : Nat × TableFilter) (st : FilterLoop),
      (∀ e ∈ entry :: filters, Supported a e) → (∀ e ∈ entry :: filters, Translatable api a e) →
      (∀ e ∈ entry :: filters, e.2.castFree = true) →
      ∃ conds lexemes added t,
        ((entry :: filters).foldl (filterStep api a) st).conds = st.conds ++ conds ∧
        conds ≠ [] ∧ (utf8 " AND ").intercalate conds = render a.columnText lexemes ∧
        ((entry :: filters).foldl (filterStep api a) st).params = st.params ++ added ∧
        Says S.algebra (.chain .and) lexemes added t ∧
        ∀ row, (∀ e ∈ entry :: filters, AgreesOn S D a row e) →
          (t row = .true ↔ ∀ e ∈ entry :: filters, Passes D a row e) := by
  induction filters with
  | nil =>
      intro entry st hsup htr hcast
      obtain ⟨lexemes, added, t, hconds, hparams, hs, ht⟩ :=
        filterStep_translatable (S := S) (D := D) (hsup entry (by simp)) (htr entry (by simp))
          (hcast entry (by simp)) st
      refine ⟨[render a.columnText lexemes], lexemes, added, t, hconds, by simp, by simp, hparams,
        hs.single .and, fun row hagree => ?_⟩
      simpa using ht row (hagree entry (by simp))
  | cons next filters ih =>
      intro entry st hsup htr hcast
      obtain ⟨lexemes, added, t, hconds, hparams, hs, ht⟩ :=
        filterStep_translatable (S := S) (D := D) (hsup entry (by simp)) (htr entry (by simp))
          (hcast entry (by simp)) st
      obtain ⟨conds', lexemes', added', t', hconds', hne', hjoin', hparams', hs', ht'⟩ :=
        ih next (filterStep api a st entry) (fun e he => hsup e (by simp [List.mem_cons.mp he]))
          (fun e he => htr e (by simp [List.mem_cons.mp he]))
          (fun e he => hcast e (by simp [List.mem_cons.mp he]))
      -- the parameters of the first filter come first, as its placeholders do
      refine ⟨render a.columnText lexemes :: conds', _, added ++ added', _, ?_, by simp, ?_, ?_,
        hs.cons .and hs', fun row hagree => ?_⟩
      · rw [List.foldl_cons, hconds', hconds, List.append_assoc, List.singleton_append]
      · obtain ⟨c, cs, rfl⟩ := List.exists_cons_of_ne_nil hne'
        have hsep := render_separator a.columnText .and
        rw [separator] at hsep
        rw [List.intercalate_cons_cons, hjoin', ← hsep]
        simp
      · rw [List.foldl_cons, hparams', hparams, List.append_assoc]
      · have hfirst := ht row (hagree entry (by simp))
        have hrest := ht' row fun e he => hagree e (by simp [List.mem_cons.mp he])
        rw [List.forall_mem_cons, ← hfirst, ← hrest]
        exact Truth.and_eq_true

end Loop

/-! ## No filter is lost -/

/-- **No filter is lost, if every filter is translatable.** On columns the planner may push, nothing is left
    residual exactly when each filter has a source column and a pushable shape; and then, casts aside, the
    statement's `WHERE` clause is true on exactly the rows that pass every filter. -/
theorem build_no_filter_lost {api : DuckdbApi} {a : BuildArgs} {filters : List (Nat × TableFilter)}
    (hsup : ∀ entry ∈ filters, Supported a entry) :
    ((build api a filters).residualFilterIndices = [] ↔ ∀ entry ∈ filters, Translatable api a entry) ∧
    ∀ (S : Server) (D : DuckDb), filters ≠ [] → (∀ entry ∈ filters, Translatable api a entry) →
      (∀ entry ∈ filters, entry.2.castFree = true) →
      ∃ lexemes cond tail,
        (build api a filters).sql =
          a.selectClause ++ utf8 " WHERE " ++ render a.columnText lexemes ++ tail ∧
        read lexemes = some cond ∧
        ∀ row, (∀ entry ∈ filters, AgreesOn S D a row entry) →
          (cond.eval S.algebra row (build api a filters).params = some (.true, []) ↔
            ∀ entry ∈ filters, Passes D a row entry) := by
  refine ⟨?_, fun S D hne htr hcast => ?_⟩
  · have hloop := foldl_filterStep_residual api hsup {}
    rw [and_iff_right rfl] at hloop
    exact hloop
  · obtain ⟨entry, rest, rfl⟩ := List.exists_cons_of_ne_nil hne
    obtain ⟨conds, lexemes, added, t, hconds, hcne, hjoin, hparams, hs, ht⟩ :=
      foldl_filterStep_where (S := S) (D := D) entry {} hsup htr hcast
    obtain ⟨cond, hread, heval⟩ := hs.whole.read
    rw [List.nil_append] at hconds hparams
    refine ⟨lexemes, cond, partitionClause (a.selectClause ++ whereClause conds) a.extraPredicate ++
      rowsClause a, ?_, hread, fun row hagree => ?_⟩
    · rw [← hjoin]
      simp only [build, hconds, whereClause, hcne, if_false, List.append_assoc]
    · have hrow := ht row hagree
      simp only [build, hparams, heval row, Option.some.injEq, Prod.mk.injEq, and_true]
      exact hrow

/-- A table with one `TIMESTAMP WITH TIME ZONE` column. -/
def zonedArgs : BuildArgs where
  tableName := utf8 "T"
  allColumnNames := [utf8 "AT"]
  columnIds := [0]
  columnDescs := some [{ name := utf8 "AT", sqltype := .timestampTz }]

/-- `AT IS NOT NULL` on that table. -/
theorem build_no_filter_lost_isNotNull :
    ((build .v2_0 zonedArgs [(0, .isNotNull)]).residualFilterIndices = [] ↔
      ∀ entry ∈ [(0, TableFilter.isNotNull)], Translatable .v2_0 zonedArgs entry) ∧
    ∀ (S : Server) (D : DuckDb), [(0, TableFilter.isNotNull)] ≠ [] →
      (∀ entry ∈ [(0, TableFilter.isNotNull)], Translatable .v2_0 zonedArgs entry) →
      (∀ entry ∈ [(0, TableFilter.isNotNull)], entry.2.castFree = true) →
      ∃ lexemes cond tail,
        (build .v2_0 zonedArgs [(0, .isNotNull)]).sql =
          zonedArgs.selectClause ++ utf8 " WHERE " ++ render zonedArgs.columnText lexemes ++ tail ∧
        read lexemes = some cond ∧
        ∀ row, (∀ entry ∈ [(0, TableFilter.isNotNull)], AgreesOn S D zonedArgs row entry) →
          (cond.eval S.algebra row (build .v2_0 zonedArgs [(0, .isNotNull)]).params = some (.true, []) ↔
            ∀ entry ∈ [(0, TableFilter.isNotNull)], Passes D zonedArgs row entry) :=
  build_no_filter_lost (by
    intro entry hentry src hsrc
    obtain rfl := List.mem_singleton.mp hentry
    obtain rfl : 0 = src := Option.some.inj hsrc
    rfl)

/-- **A comparison with a `TIMESTAMPTZ` constant is lost**: the column may be pushed, the filter is the
    planner's only copy, and the builder leaves it residual. -/
theorem build_loses_timestamptz_filter :
    Supported zonedArgs (0, .constantComparison .compareEqual (.other ⟨.timestampTz, 0, 0⟩ rfl 0)) ∧
    (build .v1_5 zonedArgs
      [(0, .constantComparison .compareEqual (.other ⟨.timestampTz, 0, 0⟩ rfl 0))]).residualFilterIndices =
        [0] ∧
    (build .v1_5 zonedArgs
      [(0, .constantComparison .compareEqual (.other ⟨.timestampTz, 0, 0⟩ rfl 0))]).residualFilterReasons =
        ["UNSUPPORTED_OP"] := by
  refine ⟨?_, by decide, by decide⟩
  intro src hsrc
  obtain rfl : 0 = src := Option.some.inj hsrc
  rfl

end FirebirdScan
