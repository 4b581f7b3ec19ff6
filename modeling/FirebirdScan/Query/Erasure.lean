import FirebirdScan.Query.Build

/-!
# `Query.Erasure` — a query without its text constants

`eraseText` blanks the `VARCHAR` constants of a filter. The translators and the builder commute with it: text is
bound, never inlined, so what they write is the same, and their parameters are the same but for the texts
(`translateFilter_eraseText`, `build_eraseText`).
-/

namespace FirebirdScan

/-! ## Erasure -/

/-- A text constant is blanked; its length is lost with it. -/
def Value.eraseText : Value → Value
  | .varchar _ => .varchar ""
  | v => v

@[simp] theorem Value.eraseText_type (v : Value) : v.eraseText.type = v.type := by
  cases v <;> rfl

@[simp] theorem Value.eraseText_isNull (v : Value) : v.eraseText.isNull = v.isNull := by
  cases v <;> rfl

mutual
def Expression.eraseText : Expression → Expression
  | .boundConstant v => .boundConstant v.eraseText
  | .boundCast target tryCast child => .boundCast target tryCast child.eraseText
  | .boundComparison type left right => .boundComparison type left.eraseText right.eraseText
  | .boundFunction name children => .boundFunction name (Expression.eraseTexts children)
  | .boundOperator type children => .boundOperator type (Expression.eraseTexts children)
  | .boundConjunction type children => .boundConjunction type (Expression.eraseTexts children)
  | .boundRef index => .boundRef index
  | .boundColumnRef columnIndex returnType => .boundColumnRef columnIndex returnType
  | .other => .other

def Expression.eraseTexts : List Expression → List Expression
  | [] => []
  | e :: es => e.eraseText :: Expression.eraseTexts es
end

mutual
def TableFilter.eraseText : TableFilter → TableFilter
  | .constantComparison type constant => .constantComparison type constant.eraseText
  | .conjunctionAnd fs => .conjunctionAnd (TableFilter.eraseTexts fs)
  | .conjunctionOr fs => .conjunctionOr (TableFilter.eraseTexts fs)
  | .inFilter values => .inFilter (values.map Value.eraseText)
  | .optionalFilter (some f) => .optionalFilter (some f.eraseText)
  | .optionalFilter none => .optionalFilter none
  | .expressionFilter expr => .expressionFilter (expr.map Expression.eraseText)
  | .isNull => .isNull
  | .isNotNull => .isNotNull
  | .other => .other

def TableFilter.eraseTexts : List TableFilter → List TableFilter
  | [] => []
  | f :: fs => f.eraseText :: TableFilter.eraseTexts fs
end

theorem Expression.eraseTexts_eq (es : List Expression) : Expression.eraseTexts es = es.map Expression.eraseText := by
  induction es with
  | nil => rfl
  | cons e es ih => rw [Expression.eraseTexts, ih, List.map_cons]

theorem TableFilter.eraseTexts_eq (fs : List TableFilter) :
    TableFilter.eraseTexts fs = fs.map TableFilter.eraseText := by
  induction fs with
  | nil => rfl
  | cons f fs ih => rw [TableFilter.eraseTexts, ih, List.map_cons]

/-! ## The translators -/

/-- What a translator returns, with the texts among its parameters blanked. -/
def eraseParams (r : Bytes × List Value) : Bytes × List Value := (r.1, r.2.map Value.eraseText)

section Translate

variable {columnName : Bytes}

/-- Text is not inlined. -/
theorem safeLiteralInline_eraseText (v : Value) : safeLiteralInline v.eraseText = safeLiteralInline v := by
  cases v <;> rfl

theorem emitComparison_eraseText (op : Bytes) (constant : Value) (params : List Value) :
    emitComparison columnName op constant.eraseText (params.map Value.eraseText) =
      (emitComparison columnName op constant params).map eraseParams := by
  unfold emitComparison
  rw [Value.eraseText_type, safeLiteralInline_eraseText]
  split_ifs
  · rw [Option.map_some, eraseParams, List.map_append, List.map_singleton]
  · rw [Option.map_map]
    rfl

theorem emitInItems_eraseText (values : List Value) : ∀ (first : Bool) (acc : Bytes) (params : List Value),
    emitInItems first acc (values.map Value.eraseText) (params.map Value.eraseText) =
      (emitInItems first acc values params).map eraseParams := by
  induction values with
  | nil => exact fun first acc params => rfl
  | cons v values ih =>
      intro first acc params
      simp only [List.map_cons, emitInItems, Value.eraseText_type, safeLiteralInline_eraseText]
      split_ifs
      · rw [← ih, List.map_append, List.map_singleton]
      · rw [← ih, List.map_append, List.map_singleton]
      · cases safeLiteralInline v with
        | none => rfl
        | some lit => exact ih _ _ _
      · cases safeLiteralInline v with
        | none => rfl
        | some lit => exact ih _ _ _

theorem emitInList_eraseText (values params : List Value) :
    emitInList columnName (values.map Value.eraseText) (params.map Value.eraseText) =
      (emitInList columnName values params).map eraseParams := by
  cases values with
  | nil => rfl
  | cons v values =>
      have hitems := emitInItems_eraseText (v :: values) true (columnName ++ utf8 " IN (") params
      simp only [emitInList, List.isEmpty_cons, List.map_cons, Bool.false_eq_true, if_false] at hitems ⊢
      rw [hitems, Option.map_map, Option.map_map]
      rfl

theorem isColumnSubject_eraseText (e : Expression) : isColumnSubject e.eraseText = isColumnSubject e := by
  induction e using Expression.tree_induction with
  | boundCast target tryCast child ih => exact ih
  | _ => rfl

theorem tryGetConstant_eraseText (e : Expression) :
    tryGetConstant e.eraseText = (tryGetConstant e).map Value.eraseText := by
  cases e <;> rfl

theorem translateComparison_eraseText (type : ExpressionType) (left right : Expression) (params : List Value) :
    translateComparison columnName type left.eraseText right.eraseText (params.map Value.eraseText) =
      (translateComparison columnName type left right params).map eraseParams := by
  simp only [translateComparison, isColumnSubject_eraseText, ← apply_ite Expression.eraseText,
    tryGetConstant_eraseText]
  split_ifs with hsides
  · rfl
  all_goals
    rcases tryGetConstant _ with _ | constant
    · rfl
    · rcases comparisonToSql _ with _ | op
      · rfl
      · simp only [Option.map_some, Value.eraseText_isNull]
        split_ifs
        · rfl
        · exact emitComparison_eraseText op constant params

theorem inListValues_eraseText (es : List Expression) :
    inListValues (es.map Expression.eraseText) = (inListValues es).map (List.map Value.eraseText) := by
  induction es with
  | nil => rfl
  | cons e es ih =>
      simp only [List.map_cons, inListValues, tryGetConstant_eraseText]
      rcases tryGetConstant e with _ | v
      · rfl
      · simp only [Option.map_some, Value.eraseText_isNull]
        split_ifs
        · rfl
        · rw [ih, Option.map_map, Option.map_map]
          rfl

theorem translateInList_eraseText (children : List Expression) (params : List Value) :
    translateInList columnName (children.map Expression.eraseText) (params.map Value.eraseText) =
      (translateInList columnName children params).map eraseParams := by
  rcases children with _ | ⟨subject, _ | ⟨item, items⟩⟩
  · rfl
  · rfl
  · have hvalues := inListValues_eraseText (item :: items)
    rw [List.map_cons] at hvalues
    simp only [List.map_cons, translateInList, isColumnSubject_eraseText]
    split_ifs
    · rw [hvalues]
      rcases inListValues (item :: items) with _ | values
      · rfl
      · exact emitInList_eraseText values params
    · rfl

/-- The conjunction loop commutes with a change of the children and of the parameters that their translation
    commutes with. -/
theorem conjoin_eraseText {α : Type} {translate : α → List Value → Option (Bytes × List Value)} {erase : α → α}
    (sep : Bytes) {children : List α}
    (hchild : ∀ c ∈ children, ∀ params,
      translate (erase c) (params.map Value.eraseText) = (translate c params).map eraseParams) :
    ∀ (acc : Bytes) (params : List Value),
      conjoin translate sep acc (children.map erase) (params.map Value.eraseText) =
        (conjoin translate sep acc children params).map eraseParams := by
  induction children with
  | nil => exact fun acc params => rfl
  | cons c cs ih =>
      intro acc params
      have hc := hchild c List.mem_cons_self params
      have hcs := ih fun d hd => hchild d (List.mem_cons_of_mem c hd)
      simp only [List.map_cons, conjoin, hc]
      rcases translate c params with _ | ⟨part, ps⟩
      · rfl
      · exact hcs _ _

theorem nonemptyFragment_eraseText (r : Option (Bytes × List Value)) :
    (r.map eraseParams).bind nonemptyFragment = (r.bind nonemptyFragment).map eraseParams := by
  rcases r with _ | ⟨acc, params⟩
  · rfl
  · simp only [Option.map_some, Option.bind_some, eraseParams, nonemptyFragment]
    split_ifs <;> rfl

theorem translateFilterExpression_eraseText (e : Expression) : ∀ params : List Value,
    translateFilterExpression columnName e.eraseText (params.map Value.eraseText) =
      (translateFilterExpression columnName e params).map eraseParams := by
  induction e using Expression.tree_induction with
  | boundComparison type left right =>
      intro params
      rw [Expression.eraseText, translateFilterExpression, translateFilterExpression]
      exact translateComparison_eraseText type left right params
  | boundConjunction type children ih =>
      intro params
      rw [Expression.eraseText, Expression.eraseTexts_eq, translateFilterExpression, translateFilterExpression]
      rcases conjunctionSeparator type with _ | sep
      · rfl
      · simp only [translateExpressions_eq_conjoin]
        rw [conjoin_eraseText sep ih, nonemptyFragment_eraseText]
  | boundOperator type children =>
      intro params
      rw [Expression.eraseText, Expression.eraseTexts_eq]
      cases type with
      | compareIn =>
          rw [translateFilterExpression, translateFilterExpression]
          exact translateInList_eraseText children params
      | operatorIsNull =>
          obtain _ | ⟨child, _ | _⟩ := children
          · rfl
          · simp only [List.map_cons, List.map_nil, translateFilterExpression, isColumnSubject_eraseText]
            split_ifs <;> rfl
          · rfl
      | operatorIsNotNull =>
          obtain _ | ⟨child, _ | _⟩ := children
          · rfl
          · simp only [List.map_cons, List.map_nil, translateFilterExpression, isColumnSubject_eraseText]
            split_ifs <;> rfl
          · rfl
      | _ => rfl
  | _ => exact fun params => rfl

/-- **A translated filter shows no text**: blanked, it becomes the same fragment, with the same parameters but for
    the texts. -/
theorem translateFilter_eraseText {api : DuckdbApi} (f : TableFilter) : ∀ params : List Value,
    translateFilter api columnName f.eraseText (params.map Value.eraseText) =
      (translateFilter api columnName f params).map eraseParams := by
  induction f using TableFilter.tree_induction with
  | constantComparison type constant =>
      intro params
      rw [TableFilter.eraseText, translateFilter, translateFilter]
      rcases comparisonToSql type with _ | op
      · rfl
      · exact emitComparison_eraseText op constant params
  | conjunctionAnd fs ih =>
      intro params
      rw [TableFilter.eraseText, TableFilter.eraseTexts_eq, translateFilter, translateFilter]
      simp only [translateFilters_eq_conjoin]
      rw [conjoin_eraseText _ ih, nonemptyFragment_eraseText]
  | conjunctionOr fs ih =>
      intro params
      rw [TableFilter.eraseText, TableFilter.eraseTexts_eq, translateFilter, translateFilter]
      simp only [translateFilters_eq_conjoin]
      rw [conjoin_eraseText _ ih, nonemptyFragment_eraseText]
  | inFilter values =>
      intro params
      rw [TableFilter.eraseText, translateFilter, translateFilter]
      exact emitInList_eraseText values params
  | optionalSome f ih =>
      intro params
      rw [TableFilter.eraseText, translateFilter, translateFilter]
      exact ih params
  | expressionFilter expr =>
      intro params
      simp only [TableFilter.eraseText, translateFilter]
      split_ifs
      · rcases expr with _ | e
        · rfl
        · exact translateFilterExpression_eraseText e params
      · rfl
  | _ => exact fun params => rfl

end Translate

/-! ## The builder -/

/-- The entry of a filter list, blanked. -/
def eraseEntry (entry : Nat × TableFilter) : Nat × TableFilter := (entry.1, entry.2.eraseText)

/-- The variables of the loop, with the texts among the parameters blanked. -/
def FilterLoop.eraseText (st : FilterLoop) : FilterLoop := { st with params := st.params.map Value.eraseText }

theorem pushFilter_eraseText (api : DuckdbApi) (a : BuildArgs) (params : List Value) (entry : Nat × TableFilter) :
    a.pushFilter api (params.map Value.eraseText) (eraseEntry entry) =
      (a.pushFilter api params entry).map eraseParams := by
  unfold BuildArgs.pushFilter eraseEntry
  rcases a.sourceColumn entry.1 with reason | sourceCol
  · rfl
  · simp only [translateFilter_eraseText]
    split_ifs
    · rfl
    · rcases translateFilter api (a.columnText sourceCol) entry.2 params with _ | r
      · rfl
      · rfl

theorem filterStep_eraseText (api : DuckdbApi) (a : BuildArgs) (st : FilterLoop) (entry : Nat × TableFilter) :
    filterStep api a st.eraseText (eraseEntry entry) = (filterStep api a st entry).eraseText := by
  have hpush := pushFilter_eraseText api a st.params entry
  unfold filterStep
  rw [FilterLoop.eraseText, hpush]
  rcases a.pushFilter api st.params entry with reason | ⟨frag, params⟩
  · rfl
  · rfl

/-- The filter loop, blanked. -/
theorem filterLoop_eraseText (api : DuckdbApi) (a : BuildArgs) (filters : List (Nat × TableFilter)) :
    (filters.map eraseEntry).foldl (filterStep api a) {} =
      (filters.foldl (filterStep api a) {}).eraseText := by
  have hhom := @List.foldl_hom _ _ _ FilterLoop.eraseText (filterStep api a)
    (fun st entry => filterStep api a st (eraseEntry entry)) filters {} (filterStep_eraseText api a)
  rw [List.foldl_map]
  exact hhom

/-- What the builder returns, with the texts among its parameters blanked. -/
def BuildResult.eraseText (r : BuildResult) : BuildResult := { r with params := r.params.map Value.eraseText }

/-- **The builder shows no text.** -/
theorem build_eraseText (api : DuckdbApi) (a : BuildArgs) (filters : List (Nat × TableFilter)) :
    build api a (filters.map eraseEntry) = (build api a filters).eraseText := by
  unfold build
  rw [filterLoop_eraseText]
  rfl

end FirebirdScan
