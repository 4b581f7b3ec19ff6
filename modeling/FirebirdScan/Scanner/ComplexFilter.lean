import FirebirdScan.Lib.LikeWidth
import FirebirdScan.Query.Build
import FirebirdScan.Scanner.NoneCharset

/-!
# `Scanner.ComplexFilter` — predicates lifted out of the plan (`FirebirdScanPushdownComplexFilter`)

DuckDB offers the scan its list of bound predicates. The hook looks for four shapes, appends the SQL of those
it takes to the bind data, and erases them from the list: nobody checks an erased predicate again.

`pushdownOf` is what one round of the loop makes of a predicate, and `pushdownComplexFilter_eq` the loop: the
predicates are independent of one another. The two results are about the shapes whose text is inlined:
`like_pushdown_agrees_iff` on `LIKE`, and `none_pushdown_exact` on literals re-encoded for columns of
`CHARACTER SET NONE`.
-/

namespace FirebirdScan

/-! ## The bind data -/

/-- `ExtraPredicate`. -/
structure ExtraPredicate where
  sql : Bytes
  params : List Value := []
deriving DecidableEq

/-- `FirebirdBindData`, the fields the hook reads or writes. -/
structure FirebirdBindData where
  columnNames : List Bytes
  columnDescs : List FirebirdColumnDesc
  noneEncoding : NoneEncoding := .win1252
  nonePushdown : Bool := false
  extraPredicates : List ExtraPredicate := []
  gatedComplexReasons : List String := []

namespace FirebirdBindData

variable (bind : FirebirdBindData)

/-- `resolve_src_col`: the source column of a projected one, unless that is the row id or out of range. -/
def resolveSrcCol (colIds : List Nat) (projectedCol : Nat) : Option Nat :=
  match colIds[projectedCol]? with
  | none => none
  | some src => if src = columnIdentifierRowId ∨ src ≥ bind.columnNames.length then none else some src

/-- `is_none_text_gated`. -/
def isNoneTextGated (src : Nat) : Bool :=
  (bind.columnDescs[src]?).any fun desc => isNoneTextColumnGated desc bind.noneEncoding

/-- `is_decfloat`. -/
def isDecfloat (src : Nat) : Bool := (bind.columnDescs[src]?).any fun desc => isDecfloatType desc.sqltype

/-- `col_expr`. -/
def colExpr (src : Nat) : Bytes := columnSql (bind.columnNames.getD src []) (bind.isDecfloat src)

/-- `NonePushdownActive`. -/
def nonePushdownActive : Bool :=
  bind.nonePushdown && (bind.noneEncoding = .win1252 || bind.noneEncoding = .iso8859_1)

end FirebirdBindData

/-- `IsNoneCharVarcharColumn`. -/
def isNoneCharVarcharColumn (desc : FirebirdColumnDesc) : Bool :=
  desc.characterSetId = 0 && (desc.sqltype = .text || desc.sqltype = .varying)

/-- `NonePushdownIntroducer`. -/
def nonePushdownIntroducer (mode : NoneEncoding) : Bytes :=
  if mode = .iso8859_1 then utf8 "_ISO8859_1 " else utf8 "_WIN1252 "

/-! ## The shapes -/

/-- A constant that is not `NULL` and a `VARCHAR`. -/
def varcharConstant : Expression → Option String
  | .boundConstant (.varchar s) => some s
  | _ => none

/-- A constant that is not `NULL` and can be bound. -/
def bindableConstant : Expression → Option Value
  | .boundConstant v => if v.isNull then none else if isBindableType v.type then some v else none
  | _ => none

/-- The children of an `IN` operator: a column, and at least one item. -/
def columnAndItems {α : Type} (item : Expression → Option α) : List Expression → Option (Nat × List α)
  | .boundColumnRef col _ :: e :: es => ((e :: es).mapM item).map fun items => (col, items)
  | _ => none

/-- `TryExtractLikePrefix`. -/
def tryExtractLikePrefix : Expression → Option (Nat × String)
  | .boundFunction name [.boundColumnRef col _, rhs] =>
      if name = "~~" then
        match varcharConstant rhs with
        | none => none
        | some pattern =>
            match utf8 pattern with
            | [] => none
            -- `%` and `_`
            | first :: _ => if first = 0x25 ∨ first = 0x5F then none else some (col, pattern)
      else none
  | _ => none

/-- `TryExtractInList`. -/
def tryExtractInList : Expression → Option (Nat × List String)
  | .boundOperator .compareIn children => columnAndItems varcharConstant children
  | _ => none

/-- `TryExtractEquality`; the column may stand on either side. -/
def tryExtractEquality : Expression → Option (Nat × String)
  | .boundComparison .compareEqual (.boundColumnRef col _) rhs => (varcharConstant rhs).map fun v => (col, v)
  | .boundComparison .compareEqual lhs (.boundColumnRef col _) => (varcharConstant lhs).map fun v => (col, v)
  | _ => none

/-- `TryExtractNotIn`: v2.0 has `NOT` around an `IN` as well. -/
def tryExtractNotIn (api : DuckdbApi) : Expression → Option (Nat × List Value)
  | .boundOperator .compareNotIn children => columnAndItems bindableConstant children
  | .boundOperator .operatorNot [.boundOperator .compareIn children] =>
      if api = .v2_0 then columnAndItems bindableConstant children else none
  | _ => none

/-- `TryExtractNotBoolColumn`. -/
def tryExtractNotBoolColumn : Expression → Option Nat
  | .boundOperator .operatorNot [.boundColumnRef col returnType] =>
      if returnType.id = .boolean then some col else none
  | _ => none

/-! ## The hook -/

/-- What becomes of a predicate: it stays in DuckDB, it stays and the reason `NONE_CHARSET` is recorded, or
    it is pushed. -/
inductive Pushdown where
  | keep
  | gate
  | push (predicate : ExtraPredicate)
deriving DecidableEq

section Hook

variable (api : DuckdbApi) (bind : FirebirdBindData) (colIds : List Nat)

/-- `col LIKE 'prefix%'`. -/
def likePushdown (e : Expression) : Option Pushdown :=
  (tryExtractLikePrefix e).map fun (col, pattern) =>
    match bind.resolveSrcCol colIds col with
    | none => .keep
    | some src =>
        if bind.isNoneTextGated src then .gate
        else
          .push { sql := bind.colExpr src ++ utf8 " LIKE " ++ sqlLiteral (utf8 pattern) ++
                    utf8 " ESCAPE '\\'" }

/-- `col = 'lit'` or `col IN ('a', …)`: the column, whether it is an `IN`, and the literals. -/
def noneShape (e : Expression) : Option (Nat × Bool × List String) :=
  match tryExtractInList e with
  | some (col, values) => some (col, true, values)
  | none => (tryExtractEquality e).map fun (col, value) => (col, false, [value])

/-- The SQL for re-encoded literals. -/
def noneSql (colExpr introducer : Bytes) (isIn : Bool) (encoded : List Bytes) : Bytes :=
  if isIn then
    colExpr ++ utf8 " IN (" ++ (utf8 ", ").intercalate (encoded.map fun b => introducer ++ sqlLiteral b) ++
      utf8 ")"
  else colExpr ++ utf8 " = " ++ introducer ++ sqlLiteral (encoded.headD [])

/-- The opt-in for text of `CHARACTER SET NONE`: once the shape matches, no other is tried. -/
def nonePushdown (e : Expression) : Option Pushdown :=
  (noneShape e).map fun (col, isIn, values) =>
    match bind.resolveSrcCol colIds col with
    | none => .keep
    | some src =>
        if !bind.nonePushdownActive then .keep
        else
          match bind.columnDescs[src]? with
          | none => .keep
          | some desc =>
              if !isNoneCharVarcharColumn desc then
                if bind.isNoneTextGated src then .gate else .keep
              else
                match values.mapM fun v => NoneCharset.tryEncodeNoneLiteral (utf8 v) bind.noneEncoding with
                | none => .gate
                | some encoded =>
                    .push { sql := noneSql (bind.colExpr src) (nonePushdownIntroducer bind.noneEncoding)
                              isIn encoded }

/-- The SQL for a list of `n` parameters. -/
def notInSql (colExpr : Bytes) (n : Nat) : Bytes :=
  colExpr ++ utf8 " NOT IN (" ++ (utf8 ", ").intercalate (List.replicate n (utf8 "?")) ++ utf8 ")"

/-- `col NOT IN (?, …)`. -/
def notInPushdown (e : Expression) : Option Pushdown :=
  (tryExtractNotIn api e).map fun (col, values) =>
    match bind.resolveSrcCol colIds col with
    | none => .keep
    | some src =>
        if bind.isNoneTextGated src then .gate
        else
          .push { sql := notInSql (bind.colExpr src) values.length, params := values }

/-- `NOT bool_col`. -/
def notBoolPushdown (e : Expression) : Option Pushdown :=
  (tryExtractNotBoolColumn e).map fun col =>
    match bind.resolveSrcCol colIds col with
    | none => .keep
    | some src =>
        if bind.isDecfloat src then .keep
        else .push { sql := utf8 "NOT " ++ quoteIdent (bind.columnNames.getD src []) }

/-- One round of the loop: the first shape that matches decides. -/
def pushdownOf (e : Expression) : Pushdown :=
  (likePushdown bind colIds e <|> nonePushdown bind colIds e <|> notInPushdown api bind colIds e <|>
    notBoolPushdown bind colIds e).getD .keep

/-- The effect of one round on the bind data and on the filters kept. -/
def pushdownStep (st : FirebirdBindData × List Expression) (e : Expression) :
    FirebirdBindData × List Expression :=
  match pushdownOf api st.1 colIds e with
  | .keep => (st.1, st.2 ++ [e])
  | .gate =>
      ({ st.1 with gatedComplexReasons := st.1.gatedComplexReasons ++ ["NONE_CHARSET"] }, st.2 ++ [e])
  | .push predicate =>
      ({ st.1 with extraPredicates := st.1.extraPredicates ++ [predicate] }, st.2)

/-- `FirebirdScanPushdownComplexFilter`: the bind data and the filters left to DuckDB. -/
def pushdownComplexFilter (filters : List Expression) : FirebirdBindData × List Expression :=
  filters.foldl (pushdownStep api colIds) (bind, [])

end Hook

/-! ## The loop -/

/-- What the hook appends to the predicates, for one filter. -/
def Pushdown.predicate : Pushdown → Option ExtraPredicate
  | .push predicate => some predicate
  | _ => none

/-- What it appends to the reasons. -/
def Pushdown.reason : Pushdown → Option String
  | .gate => some "NONE_CHARSET"
  | _ => none

section Loop

variable {api : DuckdbApi} {bind : FirebirdBindData} {colIds : List Nat}

/-- Whatever a round decides other than to keep the predicate, one of the shapes decided it. -/
theorem pushdownOf_shape {e : Expression} {p : Pushdown} (h : pushdownOf api bind colIds e = p) (hp : p ≠ .keep) :
    likePushdown bind colIds e = some p ∨ nonePushdown bind colIds e = some p ∨
      notInPushdown api bind colIds e = some p ∨ notBoolPushdown bind colIds e = some p := by
  unfold pushdownOf at h
  rcases hlike : likePushdown bind colIds e with _ | p'
  · rcases hnone : nonePushdown bind colIds e with _ | p'
    · rcases hnotIn : notInPushdown api bind colIds e with _ | p'
      · rcases hnot : notBoolPushdown bind colIds e with _ | p'
        · simp only [hlike, hnone, hnotIn, hnot] at h
          exact absurd h.symm hp
        · simp only [hlike, hnone, hnotIn, hnot] at h
          exact .inr (.inr (.inr (congrArg some h)))
      · simp only [hlike, hnone, hnotIn] at h
        exact .inr (.inr (.inl (congrArg some h)))
    · simp only [hlike, hnone] at h
      exact .inr (.inl (congrArg some h))
  · simp only [hlike] at h
    exact .inl (congrArg some h)

/-- What is pushed for a `LIKE`. -/
theorem likePushdown_push {e : Expression} {ep : ExtraPredicate}
    (h : likePushdown bind colIds e = some (.push ep)) :
    ∃ col pattern src, tryExtractLikePrefix e = some (col, pattern) ∧ bind.resolveSrcCol colIds col = some src ∧
      bind.isNoneTextGated src = false ∧
      ep = { sql := bind.colExpr src ++ utf8 " LIKE " ++ sqlLiteral (utf8 pattern) ++ utf8 " ESCAPE '\\'" } := by
  obtain ⟨⟨col, pattern⟩, hshape, hpush⟩ := Option.map_eq_some_iff.mp h
  cases hsrc : bind.resolveSrcCol colIds col with
  | none => simp only [hsrc, reduceCtorEq] at hpush
  | some src =>
      simp only [hsrc] at hpush
      split_ifs at hpush with hgate
      exact ⟨col, pattern, src, hshape, hsrc, Bool.eq_false_iff.mpr hgate, (Pushdown.push.inj hpush).symm⟩

/-- What is pushed for re-encoded literals. -/
theorem nonePushdown_push {e : Expression} {ep : ExtraPredicate}
    (h : nonePushdown bind colIds e = some (.push ep)) :
    ∃ col isIn values src encoded, noneShape e = some (col, isIn, values) ∧
      bind.resolveSrcCol colIds col = some src ∧ bind.nonePushdownActive = true ∧
      ep = { sql := noneSql (bind.colExpr src) (nonePushdownIntroducer bind.noneEncoding) isIn encoded } := by
  obtain ⟨⟨col, isIn, values⟩, hshape, hpush⟩ := Option.map_eq_some_iff.mp h
  cases hsrc : bind.resolveSrcCol colIds col with
  | none => simp only [hsrc, reduceCtorEq] at hpush
  | some src =>
      cases hdesc : bind.columnDescs[src]? with
      | none =>
          simp only [hsrc, hdesc] at hpush
          split_ifs at hpush
      | some desc =>
          simp only [hsrc, hdesc] at hpush
          split_ifs at hpush with hinactive hother
          cases hencode : values.mapM fun v => NoneCharset.tryEncodeNoneLiteral (utf8 v) bind.noneEncoding with
          | none => simp only [hencode, reduceCtorEq] at hpush
          | some encoded =>
              simp only [hencode] at hpush
              refine ⟨col, isIn, values, src, encoded, hshape, hsrc, ?_, (Pushdown.push.inj hpush).symm⟩
              rw [Bool.not_eq_true, Bool.not_eq_false'] at hinactive
              exact hinactive

/-- What is pushed for a `NOT IN`. -/
theorem notInPushdown_push {e : Expression} {ep : ExtraPredicate}
    (h : notInPushdown api bind colIds e = some (.push ep)) :
    ∃ col values src, tryExtractNotIn api e = some (col, values) ∧ bind.resolveSrcCol colIds col = some src ∧
      bind.isNoneTextGated src = false ∧
      ep = { sql := notInSql (bind.colExpr src) values.length, params := values } := by
  obtain ⟨⟨col, values⟩, hshape, hpush⟩ := Option.map_eq_some_iff.mp h
  cases hsrc : bind.resolveSrcCol colIds col with
  | none => simp only [hsrc, reduceCtorEq] at hpush
  | some src =>
      simp only [hsrc] at hpush
      split_ifs at hpush with hgate
      exact ⟨col, values, src, hshape, hsrc, Bool.eq_false_iff.mpr hgate, (Pushdown.push.inj hpush).symm⟩

/-- What is pushed for the negation of a column. -/
theorem notBoolPushdown_push {e : Expression} {ep : ExtraPredicate}
    (h : notBoolPushdown bind colIds e = some (.push ep)) :
    ∃ col src, tryExtractNotBoolColumn e = some col ∧ bind.resolveSrcCol colIds col = some src ∧
      bind.isDecfloat src = false ∧ ep = { sql := utf8 "NOT " ++ quoteIdent (bind.columnNames.getD src []) } := by
  obtain ⟨col, hshape, hpush⟩ := Option.map_eq_some_iff.mp h
  cases hsrc : bind.resolveSrcCol colIds col with
  | none => simp only [hsrc, reduceCtorEq] at hpush
  | some src =>
      simp only [hsrc] at hpush
      split_ifs at hpush with hdec
      exact ⟨col, src, hshape, hsrc, Bool.eq_false_iff.mpr hdec, (Pushdown.push.inj hpush).symm⟩

/-- A round does not look at what earlier rounds wrote. -/
theorem pushdownOf_results (predicates : List ExtraPredicate) (reasons : List String) (e : Expression) :
    pushdownOf api { bind with extraPredicates := predicates, gatedComplexReasons := reasons } colIds e =
      pushdownOf api bind colIds e := rfl

theorem foldl_pushdownStep (predicates : List ExtraPredicate) (reasons : List String)
    (kept filters : List Expression) :
    filters.foldl (pushdownStep api colIds)
      ({ bind with extraPredicates := predicates, gatedComplexReasons := reasons }, kept) =
    ({ bind with
        extraPredicates := predicates ++ filters.filterMap fun e => (pushdownOf api bind colIds e).predicate
        gatedComplexReasons := reasons ++ filters.filterMap fun e => (pushdownOf api bind colIds e).reason },
      kept ++ filters.filter fun e => (pushdownOf api bind colIds e).predicate.isNone) := by
  induction filters generalizing predicates reasons kept with
  | nil => simp
  | cons e filters ih =>
      rw [List.foldl_cons, pushdownStep, pushdownOf_results]
      cases h : pushdownOf api bind colIds e <;>
        simp [ih, h, Pushdown.predicate, Pushdown.reason]

/-- **The hook, filter by filter**: a predicate and a reason for each filter that has one, and the filters
    without a predicate stay in DuckDB. -/
theorem pushdownComplexFilter_eq (filters : List Expression) :
    pushdownComplexFilter api bind colIds filters =
      ({ bind with
          extraPredicates :=
            bind.extraPredicates ++ filters.filterMap fun e => (pushdownOf api bind colIds e).predicate
          gatedComplexReasons :=
            bind.gatedComplexReasons ++ filters.filterMap fun e => (pushdownOf api bind colIds e).reason },
        filters.filter fun e => (pushdownOf api bind colIds e).predicate.isNone) := by
  have h := @foldl_pushdownStep api bind colIds bind.extraPredicates
    bind.gatedComplexReasons [] filters
  rw [List.nil_append] at h
  exact h

end Loop

/-! ## `LIKE` -/

/-- The characters of a `LIKE` pattern that are not literals. -/
def sqlWildcards : Like.Wildcards Char where
  any := '%'
  one := '_'
  escape := '\\'
  one_ne_any := by decide
  escape_ne_any := by decide
  escape_ne_one := by decide

/-- DuckDB's `value ~~ pattern`, which has no escape character. -/
def duckdbLike (pattern : String) (value : List Char) : Bool :=
  Like.accepts (sqlWildcards.plain pattern.toList) value

/-- The server's `value LIKE pattern ESCAPE '\'`; `none` is its error for an escape character that escapes
    nothing. -/
def serverLike (pattern : String) (value : List Char) : Option Bool :=
  (sqlWildcards.escaped pattern.toList).map fun items => Like.accepts items value

/-- The answers agree on every value of a `VARCHAR(n)` column. -/
def VarcharAgrees (n : Nat) (pattern : String) : Prop :=
  ∀ value : List Char, value.length ≤ n → serverLike pattern value = some (duckdbLike pattern value)

/-- The answers agree on every value of a `CHAR(n)` column, which DuckDB has without its trailing blanks. -/
def CharAgrees (n : Nat) (pattern : String) : Prop :=
  ∀ stored : List Char, stored.length = n →
    serverLike pattern stored = some (duckdbLike pattern (PadSpace.rtrim ' ' stored))

/-- The server's lexer on ` LIKE '…' ESCAPE '…'`: the two literals. -/
def readLike (s : Bytes) : Option (Bytes × Bytes) := do
  let s ← s.dropPrefix? (utf8 " LIKE ")
  let (pattern, s) ← readQuoted 0x27 s
  let s ← s.dropPrefix? (utf8 " ESCAPE ")
  let (escape, s) ← readQuoted 0x27 s
  if s = [] then some (pattern, escape) else none

theorem dropPrefix?_append (p s : Bytes) : (p ++ s).dropPrefix? p = some s :=
  List.dropPrefix?_eq_some_iff.mpr ⟨p, rfl, by simp⟩

/-- The text the hook emits is read as the pattern and the escape character. -/
theorem readLike_emitted (pattern : Bytes) :
    readLike (utf8 " LIKE " ++ sqlLiteral pattern ++ utf8 " ESCAPE '\\'") = some (pattern, utf8 "\\") := by
  have hesc : utf8 " ESCAPE '\\'" = utf8 " ESCAPE " ++ (quoted 0x27 (utf8 "\\") ++ []) := by decide
  have hend : (utf8 " ESCAPE " ++ (quoted 0x27 (utf8 "\\") ++ [])).head? ≠ some 0x27 := by decide
  have hpattern := readQuoted_quoted 0x27 pattern hend
  have hescape := @readQuoted_quoted 0x27 (utf8 "\\") [] (by simp)
  simp only [readLike, List.append_assoc, dropPrefix?_append, sqlLiteral, hesc, hpattern, hescape,
    Option.bind_eq_bind, Option.bind_some, if_pos]

/-- A pattern that is taken starts with a character that is no wildcard. -/
theorem tryExtractLikePrefix_start {e : Expression} {col : Nat} {pattern : String}
    (h : tryExtractLikePrefix e = some (col, pattern)) : ∃ c ∈ pattern.toList, c ≠ '%' := by
  unfold tryExtractLikePrefix at h
  split at h
  · split_ifs at h
    split at h
    · cases h
    · split at h
      · cases h
      next hutf8 =>
        split_ifs at h with hfirst
        obtain ⟨-, heq⟩ := Prod.mk.inj (Option.some.inj h)
        rw [heq] at hutf8
        cases hlist : pattern.toList with
        | nil => simp [utf8, Utf8.ofString, hlist] at hutf8
        | cons c cs =>
            refine ⟨c, by simp, ?_⟩
            rintro rfl
            -- `%` is one byte in UTF-8
            have hpercent : Utf8.encodeScalar '%'.toNat = [0x25] := by decide
            rw [utf8, Utf8.ofString, hlist, List.map_cons, Utf8.encode_cons, hpercent] at hutf8
            exact hfirst (.inl (List.cons.inj hutf8).1.symm)
  · cases h

/-- **A pushed `LIKE` agrees with DuckDB exactly when there is no backslash to escape.** The pattern is taken
    whatever it contains, the text is read as that pattern with the escape character, and the server's answer
    on every value is DuckDB's exactly when the pattern has no backslash. If the column is a `CHAR`, DuckDB
    has the value without its trailing blanks; then the pattern has to be open as well, that is, end in `%`
    after a character other than `_` or a blank. A column of width `n` has room for fewer values: it also agrees on a
    pattern that matches none of them, and a `CHAR(n)` on a pattern of `n` characters that does not end in a blank. -/
theorem like_pushdown_agrees_iff {api : DuckdbApi} {bind : FirebirdBindData} {colIds : List Nat}
    {e : Expression} {col src : Nat} {pattern : String}
    (hlike : tryExtractLikePrefix e = some (col, pattern)) (hsrc : bind.resolveSrcCol colIds col = some src)
    (hgate : bind.isNoneTextGated src = false) :
    (∃ text, pushdownOf api bind colIds e = .push { sql := bind.colExpr src ++ text } ∧
      readLike text = some (utf8 pattern, utf8 "\\")) ∧
    ((∀ value, serverLike pattern value = some (duckdbLike pattern value)) ↔ '\\' ∉ pattern.toList) ∧
    ((∀ stored, serverLike pattern stored = some (duckdbLike pattern (PadSpace.rtrim ' ' stored))) ↔
      '\\' ∉ pattern.toList ∧ sqlWildcards.Open ' ' pattern.toList) ∧
    (∀ n, VarcharAgrees n pattern ↔
      '\\' ∉ pattern.toList ∨ ∃ items ∈ sqlWildcards.escaped pattern.toList, n < Like.minLength items) ∧
    ∀ n, CharAgrees n pattern ↔
      ∃ items ∈ sqlWildcards.escaped pattern.toList,
        ¬Like.Fills n items ∧ ¬sqlWildcards.FitsTrimmed ' ' n pattern.toList ∨
        '\\' ∉ pattern.toList ∧ (sqlWildcards.Open ' ' pattern.toList ∨
          Like.minLength (sqlWildcards.plain pattern.toList) = n ∧ sqlWildcards.Closed ' ' pattern.toList) := by
  have hstart := tryExtractLikePrefix_start hlike
  refine ⟨⟨_, ?_, readLike_emitted (utf8 pattern)⟩, ?_, ?_, ?_, ?_⟩
  · simp [pushdownOf, likePushdown, hlike, hsrc, hgate]
  · exact Like.escaped_agrees_iff (w := sqlWildcards) pattern.toList
  · exact Like.escaped_rtrim_agrees_iff (w := sqlWildcards) hstart
  · exact fun n => Like.escaped_agrees_upTo_iff (w := sqlWildcards) n pattern.toList
  · exact fun n => Like.escaped_rtrim_agrees_at_iff (w := sqlWildcards) (by decide) hstart

/-- A table with one `VARCHAR` column. -/
def pathBind : FirebirdBindData where
  columnNames := [utf8 "PATH"]
  columnDescs := [{ name := utf8 "PATH", sqltype := .varying, characterSetId := 4 }]

/-- `PATH LIKE pattern`. -/
def pathLike (pattern : String) : Expression :=
  .boundFunction "~~" [.boundColumnRef 0 ⟨.varchar, 0, 0⟩, .boundConstant (.varchar pattern)]

/-- `PATH LIKE 'a%'` is pushed, and agrees with DuckDB, on a value with a backslash too. -/
theorem like_pushdown_agrees_iff_prefix :
    serverLike "a%" "a\\b".toList = some (duckdbLike "a%" "a\\b".toList) :=
  ((@like_pushdown_agrees_iff .v1_5 pathBind [0] (pathLike "a%") 0 0 "a%" (by decide) (by decide)
    (by decide)).2.1).mpr (by decide) _

/-- **`PATH LIKE 'a\_b%'` is pushed, and loses the path `a\xb`**: DuckDB reads the backslash as a character and `_` as
    a wildcard, the server reads both as an underscore. -/
theorem like_pushdown_loses_backslash :
    pushdownOf .v1_5 pathBind [0] (pathLike "a\\_b%") =
      .push { sql := utf8 "\"PATH\" LIKE 'a\\_b%' ESCAPE '\\'" } ∧
    duckdbLike "a\\_b%" "a\\xb".toList = true ∧ serverLike "a\\_b%" "a\\xb".toList = some false := by
  decide

/-! ## Literals for `CHARACTER SET NONE` -/

section None

variable {api : DuckdbApi} {bind : FirebirdBindData} {colIds : List Nat}

/-- A predicate of that shape is no `LIKE`. -/
theorem likePushdown_of_noneShape {e : Expression} {shape : Nat × Bool × List String}
    (hshape : noneShape e = some shape) : likePushdown bind colIds e = none := by
  cases e <;> first | rfl | simp [noneShape, tryExtractInList, tryExtractEquality] at hshape

/-- An `=` or `IN` with a literal that cannot be re-encoded is not pushed. -/
theorem pushdownOf_unencodable {e : Expression} {col : Nat} {isIn : Bool} {values : List String} {v : String}
    (hshape : noneShape e = some (col, isIn, values)) (hv : v ∈ values)
    (hfail : NoneCharset.tryEncodeNoneLiteral (utf8 v) bind.noneEncoding = none) :
    (pushdownOf api bind colIds e).predicate = none := by
  have hlike : likePushdown bind colIds e = none := likePushdown_of_noneShape hshape
  have hall : (values.mapM fun v => NoneCharset.tryEncodeNoneLiteral (utf8 v) bind.noneEncoding) = none := by
    clear hshape
    induction values with
    | nil => simp at hv
    | cons u values ih =>
        rcases List.mem_cons.mp hv with rfl | hv
        · simp [hfail]
        · simp [ih hv]
  obtain ⟨p, hp, hpred⟩ : ∃ p, nonePushdown bind colIds e = some p ∧ p.predicate = none := by
    simp only [nonePushdown, hshape, Option.map_some, hall]
    refine ⟨_, rfl, ?_⟩
    -- the four ways out of the shape before the literals count
    split
    · rfl
    split
    · rfl
    split
    · rfl
    split <;> [split_ifs <;> rfl; rfl]
  have hround : pushdownOf api bind colIds e = p := by simp [pushdownOf, hlike, hp]
  rw [hround, hpred]

/-- **Re-encoded literals select exactly the rows whose decoded value is the literal.** In both modes: what
    `TryEncodeNoneLiteral` returns decodes to the literal, and no other stored bytes do; every stored byte
    string decodes to well-formed UTF-8; and a filter with a literal it cannot encode is pushed nowhere, with
    none of its literals, and stays with DuckDB, whatever the other filters are. -/
theorem none_pushdown_exact {mode : NoneEncoding} (hmode : NoneCharset.Transcodes mode) :
    (∀ literal encoded, NoneCharset.tryEncodeNoneLiteral literal mode = some encoded →
      NoneCharset.noneToUtf8 mode encoded = literal ∧
      ∀ stored, NoneCharset.noneToUtf8 mode stored = literal ↔ stored = encoded) ∧
    (∀ stored, Utf8.WellFormed (NoneCharset.noneToUtf8 mode stored)) ∧
    ∀ (api : DuckdbApi) (bind : FirebirdBindData) (colIds : List Nat) (e : Expression) (col : Nat)
      (isIn : Bool) (values : List String), bind.noneEncoding = mode →
      noneShape e = some (col, isIn, values) →
      (∃ v ∈ values, NoneCharset.tryEncodeNoneLiteral (utf8 v) mode = none) →
      ∀ before after : List Expression,
        (pushdownComplexFilter api bind colIds (before ++ e :: after)).1.extraPredicates =
          (pushdownComplexFilter api bind colIds (before ++ after)).1.extraPredicates ∧
        e ∈ (pushdownComplexFilter api bind colIds (before ++ e :: after)).2 := by
  refine ⟨fun literal encoded h => ?_, NoneCharset.noneToUtf8_wellFormed mode, ?_⟩
  · have hdecode := ((NoneCharset.tryEncodeNoneLiteral_eq_some hmode).mp h).1
    refine ⟨hdecode, fun stored => ⟨fun hs => ?_, fun hs => by rw [hs, hdecode]⟩⟩
    exact NoneCharset.noneToUtf8_injective hmode (hs.trans hdecode.symm)
  · rintro api bind colIds e col isIn values rfl hshape ⟨v, hv, hfail⟩ before after
    have hnone := @pushdownOf_unencodable api bind colIds e col isIn values v hshape hv hfail
    -- the rounds are independent, so this one adds nothing to what the others push
    rw [pushdownComplexFilter_eq, pushdownComplexFilter_eq]
    refine ⟨?_, ?_⟩
    · simp [List.filterMap_append, hnone]
    · simp [hnone]

end None

/-- A table with one `CHARACTER SET NONE` column, and the opt-in. -/
def cityBind : FirebirdBindData where
  columnNames := [utf8 "CITY"]
  columnDescs := [{ name := utf8 "CITY", sqltype := .varying, characterSetId := 0 }]
  nonePushdown := true

/-- `CITY IN ('São', 'Минск')`. -/
def cityIn : Expression :=
  .boundOperator .compareIn
    [.boundColumnRef 0 ⟨.varchar, 0, 0⟩, .boundConstant (.varchar "São"), .boundConstant (.varchar "Минск")]

/-- The euro sign selects the byte `0x80` under Windows-1252; the Cyrillic name keeps the whole list in
    DuckDB. -/
theorem none_pushdown_exact_win1252 :
    (∀ stored, NoneCharset.noneToUtf8 .win1252 stored = utf8 "€" ↔ stored = [0x80]) ∧
    (pushdownComplexFilter .v1_5 cityBind [0] [cityIn]).1.extraPredicates =
      (pushdownComplexFilter .v1_5 cityBind [0] []).1.extraPredicates ∧
    cityIn ∈ (pushdownComplexFilter .v1_5 cityBind [0] [cityIn]).2 :=
  ⟨((none_pushdown_exact (.inl rfl)).1 (utf8 "€") [0x80] (by decide)).2,
    (none_pushdown_exact (.inl rfl)).2.2 .v1_5 cityBind [0] cityIn 0 true ["São", "Минск"] rfl (by decide)
      ⟨"Минск", by decide, by decide⟩ [] []⟩

end FirebirdScan
