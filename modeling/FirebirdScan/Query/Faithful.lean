import FirebirdScan.Query.Meaning
import FirebirdScan.Sql

/-!
# `Query.Faithful` — translation preserves meaning, casts aside

The translators replace the column by its plain text, whatever casts stand around it. So a fragment means
what the filter means with its casts left out (`translateFilterExpression_renders`,
`translateFilter_renders`), and it means what the filter means exactly when leaving the casts out changes
nothing (`translateFilter_faithful_iff`).
-/

namespace FirebirdScan

open SearchCondition

/-! ## Bound expressions -/

section Translation

variable {κ : Type} {S : Server} {D : DuckDb} {columnText : κ → Bytes} {col : κ}

theorem translateExpressions_eq_conjoin (columnName sep acc : Bytes) (es : List Expression)
    (params : List Value) :
    translateExpressions columnName sep acc es params =
      conjoin (translateFilterExpression columnName) sep acc es params := by
  induction es generalizing acc params with
  | nil => rfl
  | cons e es ih =>
      simp only [translateExpressions, conjoin]
      cases translateFilterExpression columnName e params with
      | none => rfl
      | some r => exact ih _ _

theorem expressions_eq (x : Value) (k : Connective) (es : List Expression) :
    D.expressions x k es = combine k (D.expression x) es := by
  induction es with
  | nil => rfl
  | cons e es ih => simp [DuckDb.expressions, combine, ih]

theorem constantsList_eq (es : List Expression) :
    Expression.constantsList es = es.flatMap Expression.constants := by
  induction es with
  | nil => rfl
  | cons e es ih => simp [Expression.constantsList, ih]

/-- Without casts, the subject of a translated predicate is the column. -/
theorem operand_subject {e : Expression} (h : isColumnSubject e = true) (x : Value) :
    D.ignoringCasts.operand x e = x := by
  induction e using Expression.tree_induction with
  | boundRef i => rfl
  | boundColumnRef i t => rfl
  | boundCast target tryCast child ih => exact ih h
  | _ => simp [isColumnSubject] at h

theorem tryGetConstant_eq_some {e : Expression} {v : Value} (h : tryGetConstant e = some v) :
    e = .boundConstant v := by
  cases e <;> simp only [tryGetConstant, Option.some.injEq, reduceCtorEq] at h
  exact congrArg _ h

theorem inListValues_eq_some {es : List Expression} {vs : List Value} (h : inListValues es = some vs) :
    es = vs.map .boundConstant := by
  induction es generalizing vs with
  | nil => simpa [inListValues] using h.symm
  | cons e es ih =>
      cases hc : tryGetConstant e with
      | none => simp [inListValues, hc] at h
      | some v =>
          simp only [inListValues, hc] at h
          split_ifs at h with hn
          obtain ⟨ws, hws, rfl⟩ := Option.map_eq_some_iff.mp h
          rw [tryGetConstant_eq_some hc, ih hws, List.map_cons]

/-- A flipped comparison asks the same question with its operands exchanged. -/
theorem compareOf_flip {type : ExpressionType} {op : CompareOp}
    (h : compareOf (flipComparisonExpression type) = some op) : compareOf type = some op.flip := by
  cases type <;> simp only [compareOf, flipComparisonExpression, Option.some.injEq, reduceCtorEq] at h <;>
    subst h <;> rfl

theorem test_flip (op : CompareOp) (a b : Value) :
    D.algebra.test op.flip a b = D.algebra.test op b a := by
  simp only [Algebra.test, DuckDb.algebra, D.compare_flip, Bool.or_comm]

theorem translateComparison_renders {type : ExpressionType} {left right : Expression} {frag : Bytes}
    {params params' : List Value}
    (h : translateComparison (columnText col) type left right params = some (frag, params')) :
    Renders S D columnText col (.chain .or) frag params params' (left.constants ++ right.constants)
      (fun x => D.ignoringCasts.expression x (.boundComparison type left right)) := by
  simp only [translateComparison] at h
  split_ifs at h with hsides hleft
  -- column on the left: the operator as written
  · cases hc : tryGetConstant right with
    | none => simp [hc] at h
    | some c =>
        cases hop : comparisonToSql type with
        | none => simp [hc, hop] at h
        | some sql =>
            simp only [hc, hop] at h
            split_ifs at h with hnull
            obtain ⟨op, htype, rfl⟩ := comparisonToSql_eq_some hop
            obtain rfl := tryGetConstant_eq_some hc
            refine (emitComparison_renders h).top.weaken (by simp [Expression.constants]) fun x => ?_
            simp only [DuckDb.expression, htype, operand_subject hleft]
            rfl
  -- column on the right: exactly one side is the column, and the operator is flipped
  · have hright : isColumnSubject right = true := by
      cases hr : isColumnSubject right with
      | true => rfl
      | false => exact absurd ((Bool.eq_false_iff.mpr hleft).trans hr.symm) hsides
    cases hc : tryGetConstant left with
    | none => simp [hc] at h
    | some c =>
        cases hop : comparisonToSql (flipComparisonExpression type) with
        | none => simp [hc, hop] at h
        | some sql =>
            simp only [hc, hop] at h
            split_ifs at h with hnull
            obtain ⟨op, htype, rfl⟩ := comparisonToSql_eq_some hop
            obtain rfl := tryGetConstant_eq_some hc
            refine (emitComparison_renders h).top.weaken (by simp [Expression.constants]) fun x => ?_
            simp only [DuckDb.expression, compareOf_flip htype, operand_subject hright, test_flip]
            rfl

theorem translateInList_renders {children : List Expression} {frag : Bytes} {params params' : List Value}
    (h : translateInList (columnText col) children params = some (frag, params')) :
    Renders S D columnText col (.chain .or) frag params params' (children.flatMap Expression.constants)
      (fun x => D.ignoringCasts.expression x (.boundOperator .compareIn children)) := by
  cases children with
  | nil => simp [translateInList] at h
  | cons subject items =>
      cases items with
      | nil => simp [translateInList] at h
      | cons item items =>
          simp only [translateInList] at h
          split_ifs at h with hsub
          obtain ⟨values, hvalues, hemit⟩ := Option.bind_eq_some_iff.mp h
          rw [inListValues_eq_some hvalues]
          refine (emitInList_renders hemit).top.weaken ?_ fun x => ?_
          -- the items are constants, so they are among the constants of the children
          · intro c hc
            simp only [List.flatMap_cons, List.mem_append, List.mem_flatMap, List.mem_map]
            exact .inr ⟨_, ⟨c, hc, rfl⟩, by simp [Expression.constants]⟩
          · simp only [DuckDb.expression, DuckDb.operator, operand_subject hsub, List.map_map]
            rw [show (D.ignoringCasts.operand x) ∘ Expression.boundConstant = id from rfl, List.map_id]
            rfl

/-- `IS NULL` and `IS NOT NULL` of the column. -/
theorem isNull_renders (negated : Bool) (params cs : List Value) {m : Value → Truth}
    (hm : ∀ x : Value, (Truth.ofBool x.isNull).negateIf negated = m x) :
    Renders S D columnText col (.chain .or)
      (columnText col ++ if negated then utf8 " IS NOT NULL" else utf8 " IS NULL") params params cs m := by
  refine ⟨_, _, _, ?_, (List.append_nil _).symm, (says_isNull negated).top, fun row _ => hm (row col)⟩
  cases negated <;> simp only [render_cons, tokenText] <;> rfl

/-- **What a bound expression's fragment means**: the expression, with the casts left out. -/
theorem translateFilterExpression_renders (e : Expression) :
    ∀ {params : List Value} {frag : Bytes} {params' : List Value},
    translateFilterExpression (columnText col) e params = some (frag, params') →
    Renders S D columnText col (.chain .or) frag params params' e.constants
      (fun x => D.ignoringCasts.expression x e) := by
  induction e using Expression.tree_induction with
  | boundComparison type left right =>
      intro params frag params' h
      rw [translateFilterExpression] at h
      exact translateComparison_renders h
  | boundConjunction type children ih =>
      intro params frag params' h
      rw [translateFilterExpression] at h
      obtain ⟨k, hk, hsep⟩ : ∃ k, connectiveOf type = some k ∧
          conjunctionSeparator type = some (separator k) := by
        cases type <;> simp only [conjunctionSeparator, reduceCtorEq] at h <;> exact ⟨_, rfl, rfl⟩
      -- any other type of conjunction has no separator and was refused above
      simp only [hsep, translateExpressions_eq_conjoin] at h
      refine (conjunction_renders k ih h).weaken ?_ fun x => ?_
      · intro c hc
        rwa [Expression.constants, constantsList_eq]
      · simp only [DuckDb.expression, hk, expressions_eq]
  | boundOperator type children =>
      intro params frag params' h
      rw [Expression.constants, constantsList_eq]
      cases type with
      | compareIn =>
          rw [translateFilterExpression] at h
          exact translateInList_renders h
      | operatorIsNull =>
          obtain _ | ⟨child, _ | _⟩ := children <;> simp only [translateFilterExpression, reduceCtorEq] at h
          split_ifs at h with hsub
          obtain ⟨rfl, rfl⟩ := Prod.mk.inj (Option.some.inj h)
          refine isNull_renders false _ _ fun x => ?_
          simp [DuckDb.expression, DuckDb.operator, operand_subject hsub, Truth.negateIf]
      | operatorIsNotNull =>
          obtain _ | ⟨child, _ | _⟩ := children <;> simp only [translateFilterExpression, reduceCtorEq] at h
          split_ifs at h with hsub
          obtain ⟨rfl, rfl⟩ := Prod.mk.inj (Option.some.inj h)
          refine isNull_renders true _ _ fun x => ?_
          simp [DuckDb.expression, DuckDb.operator, operand_subject hsub, Truth.negateIf]
      | _ => simp [translateFilterExpression] at h
  | _ =>
      intro params frag params' h
      simp [translateFilterExpression] at h

/-! ## `TableFilter` trees -/

theorem translateFilters_eq_conjoin (api : DuckdbApi) (columnName sep acc : Bytes)
    (fs : List TableFilter) (params : List Value) :
    translateFilters api columnName sep acc fs params =
      conjoin (translateFilter api columnName) sep acc fs params := by
  induction fs generalizing acc params with
  | nil => rfl
  | cons f fs ih =>
      simp only [translateFilters, conjoin]
      cases translateFilter api columnName f params with
      | none => rfl
      | some r => exact ih _ _

theorem filters_eq (x : Value) (k : Connective) (fs : List TableFilter) :
    D.filters x k fs = combine k (D.filter x) fs := by
  induction fs with
  | nil => rfl
  | cons f fs ih => simp [DuckDb.filters, combine, ih]

theorem filterConstantsList_eq (fs : List TableFilter) :
    TableFilter.constantsList fs = fs.flatMap TableFilter.constants := by
  induction fs with
  | nil => rfl
  | cons f fs ih => simp [TableFilter.constantsList, ih]

/-- **What a filter's fragment means**: the filter, with the casts left out. -/
theorem translateFilter_renders {api : DuckdbApi} (f : TableFilter) :
    ∀ {params : List Value} {frag : Bytes} {params' : List Value},
    translateFilter api (columnText col) f params = some (frag, params') →
    Renders S D columnText col (.chain .or) frag params params' f.constants
      (fun x => D.ignoringCasts.filter x f) := by
  induction f using TableFilter.tree_induction with
  | constantComparison type constant =>
      intro params frag params' h
      rw [translateFilter] at h
      cases hop : comparisonToSql type with
      | none => simp [hop] at h
      | some sql =>
          simp only [hop] at h
          obtain ⟨op, htype, rfl⟩ := comparisonToSql_eq_some hop
          refine (emitComparison_renders h).top.weaken (by simp [TableFilter.constants]) fun x => ?_
          simp only [DuckDb.filter, htype]
          rfl
  | isNull =>
      intro params frag params' h
      obtain ⟨rfl, rfl⟩ := Prod.mk.inj (Option.some.inj h)
      exact isNull_renders false _ _ fun x => rfl
  | isNotNull =>
      intro params frag params' h
      obtain ⟨rfl, rfl⟩ := Prod.mk.inj (Option.some.inj h)
      exact isNull_renders true _ _ fun x => rfl
  | conjunctionAnd fs ih =>
      -- the loop over the children is the one of every conjunction
      intro params frag params' h
      rw [translateFilter, translateFilters_eq_conjoin] at h
      refine (conjunction_renders .and ih h).weaken ?_ fun x => ?_
      · intro c hc
        rwa [TableFilter.constants, filterConstantsList_eq]
      · rw [DuckDb.filter, filters_eq]
  | conjunctionOr fs ih =>
      intro params frag params' h
      rw [translateFilter, translateFilters_eq_conjoin] at h
      refine (conjunction_renders .or ih h).weaken ?_ fun x => ?_
      · intro c hc
        rwa [TableFilter.constants, filterConstantsList_eq]
      · rw [DuckDb.filter, filters_eq]
  | inFilter values =>
      intro params frag params' h
      rw [translateFilter] at h
      exact (emitInList_renders h).top.weaken (fun c hc => hc) fun x => rfl
  | optionalNone =>
      -- nothing is written for it
      intro params frag params' h
      simp [translateFilter] at h
  | optionalSome f ih =>
      intro params frag params' h
      rw [translateFilter] at h
      exact (ih h).weaken (fun c hc => hc) fun x => rfl
  | expressionFilter e =>
      intro params frag params' h
      cases e with
      | none => simp [translateFilter] at h
      | some e =>
          simp only [translateFilter] at h
          split_ifs at h with hapi
          exact (translateFilterExpression_renders e h).weaken (fun c hc => hc) fun x => rfl
  | other =>
      intro params frag params' h
      simp [translateFilter] at h

end Translation

/-! ## Filters without casts -/

mutual
/-- No cast stands in a comparison, an `IN` list or a `NULL` test of the expression. -/
def Expression.castFree : Expression → Bool
  | .boundCast _ _ _ => false
  | .boundComparison _ left right => left.castFree && right.castFree
  | .boundOperator _ children => Expression.castFreeList children
  | .boundConjunction _ children => Expression.castFreeList children
  | _ => true

def Expression.castFreeList : List Expression → Bool
  | [] => true
  | e :: es => e.castFree && Expression.castFreeList es
end

mutual
def TableFilter.castFree : TableFilter → Bool
  | .conjunctionAnd fs => TableFilter.castFreeList fs
  | .conjunctionOr fs => TableFilter.castFreeList fs
  | .optionalFilter (some f) => f.castFree
  | .expressionFilter (some e) => e.castFree
  | _ => true

def TableFilter.castFreeList : List TableFilter → Bool
  | [] => true
  | f :: fs => f.castFree && TableFilter.castFreeList fs
end

section CastFree

variable {D : DuckDb}

theorem castFreeList_iff {es : List Expression} :
    Expression.castFreeList es = true ↔ ∀ e ∈ es, e.castFree = true := by
  induction es with
  | nil => simp [Expression.castFreeList]
  | cons e es ih => simp [Expression.castFreeList, ih]

theorem filterCastFreeList_iff {fs : List TableFilter} :
    TableFilter.castFreeList fs = true ↔ ∀ f ∈ fs, f.castFree = true := by
  induction fs with
  | nil => simp [TableFilter.castFreeList]
  | cons f fs ih => simp [TableFilter.castFreeList, ih]

theorem combine_congr {α : Type} {k : Connective} {m m' : α → Truth} {as : List α}
    (h : ∀ a ∈ as, m a = m' a) : combine k m as = combine k m' as := by
  induction as with
  | nil => rfl
  | cons a as ih =>
      have ha := h a (by simp)
      have htail := ih fun b hb => h b (by simp [hb])
      simp only [combine, ha, htail]

theorem operand_castFree {e : Expression} (h : e.castFree = true) (x : Value) :
    D.ignoringCasts.operand x e = D.operand x e := by
  cases e with
  | boundCast => simp [Expression.castFree] at h
  | _ => rfl

theorem expression_castFree (x : Value) (e : Expression) (h : e.castFree = true) :
    D.ignoringCasts.expression x e = D.expression x e := by
  induction e using Expression.tree_induction with
  | boundComparison type left right =>
      simp only [Expression.castFree, Bool.and_eq_true] at h
      simp only [DuckDb.expression, operand_castFree h.1, operand_castFree h.2]
      rfl
  | boundConjunction type children ih =>
      rw [Expression.castFree, castFreeList_iff] at h
      simp only [DuckDb.expression, expressions_eq]
      rw [show (fun k => combine k (D.ignoringCasts.expression x) children) =
        fun k => combine k (D.expression x) children from
          funext fun k => combine_congr fun c hc => ih c hc (h c hc)]
      rfl
  | boundOperator type children =>
      rw [Expression.castFree, castFreeList_iff] at h
      simp only [DuckDb.expression]
      -- only the first operand and the items of a list are read, and none of them is a cast
      cases type with
      | compareIn =>
          cases children with
          | nil => rfl
          | cons c cs =>
              have hsub := operand_castFree (D := D) (h c (by simp)) x
              have hitems : cs.map (D.ignoringCasts.operand x) = cs.map (D.operand x) :=
                List.map_congr_left fun e he => operand_castFree (h e (by simp [he])) x
              simp only [DuckDb.operator, hsub, hitems]
              rfl
      | operatorIsNull =>
          rcases children with _ | ⟨c, _ | ⟨d, cs⟩⟩
          · rfl
          · simp only [DuckDb.operator, operand_castFree (h c (by simp))]
          · rfl
      | operatorIsNotNull =>
          rcases children with _ | ⟨c, _ | ⟨d, cs⟩⟩
          · rfl
          · simp only [DuckDb.operator, operand_castFree (h c (by simp))]
          · rfl
      | _ => rfl
  | _ => rfl

/-- **Leaving the casts out of a filter that has none changes nothing**, so such a filter, and with it
    every filter of the v1.5 API, is faithfully translated. -/
theorem filter_castFree (x : Value) (f : TableFilter) (h : f.castFree = true) :
    D.ignoringCasts.filter x f = D.filter x f := by
  induction f using TableFilter.tree_induction with
  | conjunctionAnd fs ih =>
      rw [TableFilter.castFree, filterCastFreeList_iff] at h
      simp only [DuckDb.filter, filters_eq]
      exact combine_congr fun f hf => ih f hf (h f hf)
  | conjunctionOr fs ih =>
      rw [TableFilter.castFree, filterCastFreeList_iff] at h
      simp only [DuckDb.filter, filters_eq]
      exact combine_congr fun f hf => ih f hf (h f hf)
  | optionalSome f ih => exact ih h
  | expressionFilter e =>
      cases e with
      | none => rfl
      | some e => exact expression_castFree x e h
  | _ => rfl

end CastFree

/-! ## Points in time

One DuckDB and one server, for the runs below. -/

/-- A point in time in microseconds. -/
def instant : Value → Int
  | .date days => days.toInt * 86400000000
  | .timestamp micros => micros.toInt
  | .integer n => n.toInt
  | _ => 0

/-- DuckDB on `DATE` and `TIMESTAMP` values: they compare as points in time, a cast to `DATE` forgets the
    time of day and a cast to `TIMESTAMP` puts midnight in its place. -/
def calendarDuckDb : DuckDb where
  compare op a b := op.holds (instant a) (instant b)
  compare_flip op a b := CompareOp.holds_flip op (instant a) (instant b)
  cast target _ v :=
    match target.id with
    | .date => .date (Int32.ofInt (instant v / 86400000000))
    | .timestamp => .timestamp (Int64.ofInt (instant v))
    | _ => v
  scalar _ x := x
  predicate _ _ := .unknown
  tableFilter _ _ := .unknown

def calendarServer : Server where
  compare op a b := op.holds (instant a) (instant b)
  one_ne_zero := by decide

/-! ## Faithfulness -/

/-- **A translated filter is faithful exactly when its casts are harmless.** The fragment is read as a
    condition; for every value of the column, `NULL` included, that condition with its placeholders filled
    from the parameters added is true when DuckDB's filter is, if and only if dropping the casts from the
    filter never changes whether it is true.

    DuckDB itself compares only values of one type, so for a constant of another type than the column's
    `hagree` just says what comparing them without the cast would mean: what the server makes of it. -/
theorem translateFilter_faithful_iff {κ : Type} {S : Server} {D : DuckDb} {columnText : κ → Bytes}
    {col : κ} {api : DuckdbApi} {type : LogicalType} {f : TableFilter} {frag : Bytes}
    {params params' : List Value}
    (h : translateFilter api (columnText col) f params = some (frag, params'))
    (hagree : ∀ x : Value, x.type = type → AgreesAt S D x f.constants) :
    ∃ lexemes cond added, frag = render columnText lexemes ∧ read lexemes = some cond ∧
      params' = params ++ added ∧
      ((∀ row : κ → Value, (row col).type = type →
          (cond.eval S.algebra row added = some (.true, []) ↔ D.filter (row col) f = .true)) ↔
        (∀ x : Value, x.type = type →
          (D.ignoringCasts.filter x f = .true ↔ D.filter x f = .true))) := by
  obtain ⟨lexemes, added, t, hfrag, hparams, hsays, ht⟩ := translateFilter_renders (S := S) (D := D) f h
  obtain ⟨cond, hread, heval⟩ := hsays.read
  refine ⟨lexemes, cond, added, hfrag, hread, hparams, ?_⟩
  -- the condition always means the filter without its casts
  have hcond : ∀ row : κ → Value, (row col).type = type →
      (cond.eval S.algebra row added = some (.true, []) ↔
        D.ignoringCasts.filter (row col) f = .true) := by
    intro row hrow
    simp [heval row, ht row (hagree _ hrow)]
  constructor
  · intro hall x hx
    exact (hcond (fun _ => x) hx).symm.trans (hall (fun _ => x) hx)
  · intro hall row hrow
    exact (hcond row hrow).trans (hall (row col) hrow)

/-- A table with one column, `"TS"`. -/
def tsColumn : Unit → Bytes := fun _ => quoteIdent (utf8 "TS")

/-- `col < TIMESTAMP '1970-01-01 00:00:00.000005'` on a `TIMESTAMP` column. -/
theorem translateFilter_faithful_iff_lessThan :
    ∃ lexemes cond added, utf8 "\"TS\" < ?" = render tsColumn lexemes ∧
      read lexemes = some cond ∧ [Value.timestamp 5] = [] ++ added ∧
      ((∀ row : Unit → Value, (row ()).type = ⟨.timestamp, 0, 0⟩ →
          (cond.eval calendarServer.algebra row added = some (.true, []) ↔
            calendarDuckDb.filter (row ()) (.constantComparison .compareLessThan (.timestamp 5)) =
              .true)) ↔
        (∀ x : Value, x.type = ⟨.timestamp, 0, 0⟩ →
          (calendarDuckDb.ignoringCasts.filter x (.constantComparison .compareLessThan (.timestamp 5)) =
              .true ↔
            calendarDuckDb.filter x (.constantComparison .compareLessThan (.timestamp 5)) = .true))) :=
  @translateFilter_faithful_iff Unit calendarServer calendarDuckDb tsColumn () .v1_5 ⟨.timestamp, 0, 0⟩
    (.constantComparison .compareLessThan (.timestamp 5)) _ [] _ (by decide)
    fun _ _ _ _ _ _ _ => rfl

/-- `CAST(CAST(col AS DATE) AS TIMESTAMP) = TIMESTAMP '1970-01-01 00:00:00'`. -/
def midnightFilter : TableFilter :=
  .expressionFilter (some (.boundComparison .compareEqual
    (.boundCast ⟨.timestamp, 0, 0⟩ false (.boundCast ⟨.date, 0, 0⟩ false (.boundRef 0)))
    (.boundConstant (.timestamp 0))))

/-- **The cast is dropped.** For a `TIMESTAMP` column the filter becomes `"TS" = ?`: one o'clock in the
    morning passes DuckDB's filter and not the server's. -/
theorem translateFilter_drops_cast :
    translateFilter .v2_0 (tsColumn ()) midnightFilter [] =
      some (utf8 "\"TS\" = ?", [.timestamp 0]) ∧
    utf8 "\"TS\" = ?" =
      render tsColumn [.operand (.column ()), .blank, .op .eq, .blank, .operand .param] ∧
    read [.operand (.column ()), .blank, .op .eq, .blank, .operand (.param : Operand Unit Value)] =
      some (.compare (.column ()) .eq .param) ∧
    (∀ x : Value, AgreesAt calendarServer calendarDuckDb x midnightFilter.constants) ∧
    ¬∀ row : Unit → Value, (row ()).type = ⟨.timestamp, 0, 0⟩ →
      ((Cond.compare (.column ()) .eq .param).eval calendarServer.algebra row [.timestamp 0] =
          some (.true, []) ↔
        calendarDuckDb.filter (row ()) midnightFilter = .true) := by
  refine ⟨by decide, by decide, rfl, fun x _ c _ _ op => rfl, ?_⟩
  intro h
  have hone := h (fun _ => .timestamp 3600000000) rfl
  have hduck : calendarDuckDb.filter (.timestamp 3600000000) midnightFilter = .true := by decide
  have hserver : (Cond.compare (.column ()) .eq .param).eval calendarServer.algebra
      (fun _ => .timestamp 3600000000) [.timestamp 0] = some (.false, []) := by decide
  rw [hserver] at hone
  simp [hduck] at hone

end FirebirdScan
